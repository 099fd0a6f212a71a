import ComputeGraph.Proofs.Graph.TopologicalOrder

/-!
# Nodes without operands in the topological order

Depth-first search discovers a node without operands only when it comes to the node itself, and by
then the search from all smaller nodes is over. What is finished later is listed further in front,
so in the order every node without operands stands in front of all nodes with smaller ids.

* `explore_suffix` — what is finished stays at the end of the list;
* `mem_explore` — only nodes of the stack and their successors are finished;
* **`Graph.WellFormed.idxOf_lt_of_source`** — the place of a node without operands.
-/

namespace ComputeGraph

section Search

variable {successors : NodeId → List NodeId}

/-- What is finished stays at the end. -/
theorem explore_suffix (unseen stack finished : List NodeId) :
    finished <:+ explore successors unseen stack finished := by
  fun_induction explore with
  | case1 unseen finished => exact List.suffix_refl _
  | case2 unseen id stack finished hunseen ih => exact ih
  | case3 unseen id stack finished hunseen hfinished ih => exact ih
  | case4 unseen id stack finished hunseen hfinished ih => exact (List.suffix_cons _ _).trans ih

/-- A node is finished only if it was before, lies on the stack, or is a successor. -/
theorem mem_explore {unseen stack finished : List NodeId} {x : NodeId}
    (h : x ∈ explore successors unseen stack finished) :
    x ∈ finished ∨ x ∈ stack ∨ ∃ id, x ∈ successors id := by
  fun_induction explore with
  | case1 unseen finished => exact .inl h
  | case2 unseen id stack finished hunseen ih =>
    rcases ih h with hx | hx | hx
    · exact .inl hx
    · rcases List.mem_append.1 hx with hx | hx
      · exact .inr (.inr ⟨id, List.mem_of_mem_filter hx⟩)
      · exact .inr (.inl hx)
    · exact .inr (.inr hx)
  | case3 unseen id stack finished hunseen hfinished ih =>
    exact (ih h).imp_right (Or.imp_left (List.mem_cons_of_mem _))
  | case4 unseen id stack finished hunseen hfinished ih =>
    rcases ih h with hx | hx | hx
    · rcases List.mem_cons.1 hx with rfl | hx
      · exact .inr (.inl List.mem_cons_self)
      · exact .inl hx
    · exact .inr (.inl (List.mem_cons_of_mem _ hx))
    · exact .inr (.inr hx)

/-- Of two nodes, the search finishes the larger one later if it is a successor of none. -/
theorem idxOf_explore_range {bound : Nat}
    (hedges : ∀ id, ∀ next ∈ successors id, id < next ∧ next < bound) {small large : NodeId}
    (hlt : small < large) (hlarge : large < bound) (hsource : ∀ id, large ∉ successors id) :
    (explore successors (List.range bound) (List.range bound) []).idxOf large <
      (explore successors (List.range bound) (List.range bound) []).idxOf small := by
  obtain ⟨hnodup, hmem, -⟩ := explore_range hedges
  -- the search from the nodes below the larger one finishes the smaller one, and not the larger one
  obtain ⟨unseen', finished', h⟩ := explore_append hedges _ (List.range large) []
    (searchState_range successors bound)
    (fun id hid => ⟨Nat.lt_trans (List.mem_range.1 hid) hlarge, not_isOpen_range bound id⟩)
    (fun g hg => absurd hg (not_isOpen_range bound g))
  have hsmall : small ∈ finished' := h.piece_finished small (List.mem_range.2 hlt)
  have hnot : large ∉ finished' := by
    intro hin
    have hrun := h.run []
    rw [List.append_nil, explore_nil] at hrun
    rw [← hrun] at hin
    rcases mem_explore hin with hin | hin | ⟨id, hin⟩
    · cases hin
    · exact absurd (List.mem_range.1 hin) (Nat.lt_irrefl large)
    · exact hsource id hin
  -- what is finished by then stands at the end
  have hrange : List.range bound =
      List.range large ++ (List.range (bound - large)).map (large + ·) := by
    rw [← List.range_add, Nat.add_sub_cancel' (Nat.le_of_lt hlarge)]
  have horder : explore successors (List.range bound) (List.range bound) [] =
      explore successors unseen' ((List.range (bound - large)).map (large + ·)) finished' := by
    rw [← h.run, ← hrange]
  obtain ⟨front, hfront⟩ : finished' <:+ explore successors unseen' _ finished' :=
    explore_suffix unseen' ((List.range (bound - large)).map (large + ·)) finished'
  rw [horder, ← hfront] at hnodup hmem ⊢
  have hlater : large ∈ front := (List.mem_append.1 ((hmem large).2 hlarge)).resolve_right hnot
  have hearlier : small ∉ front :=
    fun hin => (List.nodup_append.1 hnodup).2.2 small hin small hsmall rfl
  rw [List.idxOf_append_of_mem hlater, List.idxOf_append_of_notMem hearlier]
  exact Nat.lt_of_lt_of_le (List.idxOf_lt_length_of_mem hlater) (Nat.le_add_right _ _)

end Search

namespace Graph.WellFormed

variable {graph : Graph}

/-- **Nodes without operands** are listed in front of all nodes with smaller ids. -/
theorem idxOf_lt_of_source (h : graph.WellFormed) {node : Node} (hnode : node ∈ graph.nodes)
    (hinputs : node.inputs = []) {id : NodeId} (hlt : id < node.id) :
    graph.finishOrder.idxOf node.id < graph.finishOrder.idxOf id := by
  refine idxOf_explore_range h.lt_of_mem_successors hlt (h.id_lt hnode) fun source hsource => ?_
  obtain ⟨node', hnode', hinput, hid⟩ := mem_successors.1 hsource
  have hsame : node' = node := by
    have hget := h.node?_id hnode'
    rw [hid, h.node?_id hnode] at hget
    exact (Option.some.inj hget).symm
  rw [hsame, hinputs] at hinput
  cases hinput

end Graph.WellFormed

end ComputeGraph
