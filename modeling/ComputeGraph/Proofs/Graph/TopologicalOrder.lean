import ComputeGraph.Proofs.Graph.WellFormed

/-!
# The order found by depth-first search

The search keeps its stack in one list, on which a node can stand several times. What lies on top of
the stack is worked off before anything below it is looked at again, so the search of a piece of the
stack can be described by itself: it finishes the nodes of that piece, leaves the nodes that are
discovered and not finished as they were, and keeps every finished node in front of its successors.

Edges lead from smaller ids to larger ones. A node that is discovered and not finished is smaller
than all that is searched before it is finished, so it is never met as a successor.

* `SuccessorsBehind` — a list in which every node stands in front of its successors;
* `SearchState` — what holds between two steps;
* **`explore_append`** — the search of a piece of the stack;
* **`explore_range`** — the search from all nodes;
* **`topologicalOrder_eq_ok`** — every reachable graph has a topological order.
-/

namespace ComputeGraph

/-! ### Lists in which successors come later -/

/-- Every node of the list stands in front of all its successors. -/
def SuccessorsBehind (successors : NodeId → List NodeId) : List NodeId → Prop
  | [] => True
  | id :: order => (∀ next ∈ successors id, next ∈ order) ∧ SuccessorsBehind successors order

theorem SuccessorsBehind.mem {successors : NodeId → List NodeId} {order : List NodeId}
    (h : SuccessorsBehind successors order) {id next : NodeId} (hid : id ∈ order)
    (hnext : next ∈ successors id) : next ∈ order := by
  induction order with
  | nil => cases hid
  | cons head order ih =>
    rcases List.mem_cons.1 hid with rfl | hid
    · exact List.mem_cons_of_mem _ (h.1 next hnext)
    · exact List.mem_cons_of_mem _ (ih h.2 hid)

theorem SuccessorsBehind.idxOf_lt {successors : NodeId → List NodeId} {order : List NodeId}
    (h : SuccessorsBehind successors order) (hnodup : order.Nodup) {id next : NodeId}
    (hid : id ∈ order) (hnext : next ∈ successors id) : order.idxOf id < order.idxOf next := by
  induction order with
  | nil => cases hid
  | cons head order ih =>
    obtain ⟨hhead, htail⟩ := List.nodup_cons.1 hnodup
    have hne : ∀ {x}, x ∈ order → head ≠ x := fun hx heq => hhead (heq ▸ hx)
    rcases List.mem_cons.1 hid with rfl | hid
    · rw [List.idxOf_cons_self, List.idxOf_cons_ne _ (hne (h.1 next hnext))]
      exact Nat.succ_pos _
    · rw [List.idxOf_cons_ne _ (hne hid), List.idxOf_cons_ne _ (hne (h.2.mem hid hnext))]
      exact Nat.succ_lt_succ (ih h.2 htail hid)

/-! ### Steps of the search -/

section Search

variable {successors : NodeId → List NodeId} {unseen stack finished : List NodeId} {id : NodeId}

theorem explore_nil : explore successors unseen [] finished = finished := by
  rw [explore]

/-- A node on top that is unseen is discovered, and its unseen successors are put on it. -/
theorem explore_unseen (h : id ∈ unseen) :
    explore successors unseen (id :: stack) finished =
      explore successors (unseen.erase id)
        ((successors id).filter (· ∈ unseen.erase id) ++ id :: stack) finished := by
  rw [explore, if_pos h]

/-- A node on top that is finished is taken off. -/
theorem explore_finished (hunseen : id ∉ unseen) (h : id ∈ finished) :
    explore successors unseen (id :: stack) finished =
      explore successors unseen stack finished := by
  rw [explore, if_neg hunseen, if_pos h]

/-- Any other node on top is taken off and finished. -/
theorem explore_open (hunseen : id ∉ unseen) (h : id ∉ finished) :
    explore successors unseen (id :: stack) finished =
      explore successors unseen stack (id :: finished) := by
  rw [explore, if_neg hunseen, if_neg h]

/-! ### The search of a piece of the stack -/

/-- What holds of the unseen and the finished nodes between two steps of a search among the nodes
below a bound. -/
structure SearchState (successors : NodeId → List NodeId) (bound : Nat)
    (unseen finished : List NodeId) : Prop where
  unseen_nodup : unseen.Nodup
  unseen_lt : ∀ id ∈ unseen, id < bound
  finished_nodup : finished.Nodup
  finished_lt : ∀ id ∈ finished, id < bound
  disjoint : ∀ id ∈ finished, id ∉ unseen
  behind : SuccessorsBehind successors finished

/-- A node that is discovered and not finished. -/
def IsOpen (bound : Nat) (unseen finished : List NodeId) (id : NodeId) : Prop :=
  id < bound ∧ id ∉ unseen ∧ id ∉ finished

/-- What the search of a piece of the stack leaves behind: the piece is finished, and nothing that
was open or finished before has changed. -/
structure Searched (successors : NodeId → List NodeId) (bound : Nat)
    (unseen finished piece unseen' finished' : List NodeId) : Prop where
  state : SearchState successors bound unseen' finished'
  run : ∀ stack, explore successors unseen (piece ++ stack) finished =
    explore successors unseen' stack finished'
  unseen_sublist : unseen'.Sublist unseen
  finished_subset : finished ⊆ finished'
  open_iff : ∀ id, IsOpen bound unseen' finished' id ↔ IsOpen bound unseen finished id
  piece_finished : ∀ id ∈ piece, id ∈ finished'

variable {bound : Nat}

/-- A node below the bound is unseen, finished or open. -/
theorem mem_or_mem_of_not_isOpen (hlt : id < bound) (h : ¬ IsOpen bound unseen finished id) :
    id ∈ unseen ∨ id ∈ finished := by
  by_cases hunseen : id ∈ unseen
  · exact .inl hunseen
  · by_cases hfinished : id ∈ finished
    · exact .inr hfinished
    · exact absurd ⟨hlt, hunseen, hfinished⟩ h

/-- Discovering a node opens it. -/
theorem isOpen_erase (hstate : SearchState successors bound unseen finished) (hid : id ∈ unseen)
    (other : NodeId) :
    IsOpen bound (unseen.erase id) finished other ↔
      IsOpen bound unseen finished other ∨ other = id := by
  unfold IsOpen
  rw [hstate.unseen_nodup.mem_erase_iff]
  constructor
  · intro h
    obtain ⟨hlt, hunseen, hfinished⟩ := h
    by_cases heq : other = id
    · exact .inr heq
    · exact .inl ⟨hlt, fun hmem => hunseen ⟨heq, hmem⟩, hfinished⟩
  · intro h
    rcases h with ⟨hlt, hunseen, hfinished⟩ | rfl
    · exact ⟨hlt, fun hmem => hunseen hmem.2, hfinished⟩
    · exact ⟨hstate.unseen_lt _ hid, fun hmem => hmem.1 rfl, fun hmem => hstate.disjoint _ hmem hid⟩

theorem SearchState.erase (h : SearchState successors bound unseen finished) (id : NodeId) :
    SearchState successors bound (unseen.erase id) finished where
  unseen_nodup := h.unseen_nodup.erase id
  unseen_lt := fun x hx => h.unseen_lt x (List.mem_of_mem_erase hx)
  finished_nodup := h.finished_nodup
  finished_lt := h.finished_lt
  disjoint := fun x hx hmem => h.disjoint x hx (List.mem_of_mem_erase hmem)
  behind := h.behind

/-- An open node whose successors are finished can be finished. -/
theorem SearchState.finish (h : SearchState successors bound unseen finished)
    (hopen : IsOpen bound unseen finished id) (hnext : ∀ next ∈ successors id, next ∈ finished) :
    SearchState successors bound unseen (id :: finished) where
  unseen_nodup := h.unseen_nodup
  unseen_lt := h.unseen_lt
  finished_nodup := List.nodup_cons.2 ⟨hopen.2.2, h.finished_nodup⟩
  finished_lt := by
    intro x hx
    rcases List.mem_cons.1 hx with rfl | hx
    · exact hopen.1
    · exact h.finished_lt x hx
  disjoint := by
    intro x hx
    rcases List.mem_cons.1 hx with rfl | hx
    · exact hopen.2.1
    · exact h.disjoint x hx
  behind := ⟨hnext, h.behind⟩

/-- Finishing a node closes it. -/
theorem isOpen_cons (other : NodeId) :
    IsOpen bound unseen (id :: finished) other ↔
      IsOpen bound unseen finished other ∧ other ≠ id := by
  unfold IsOpen
  rw [List.mem_cons, not_or]
  tauto

/-- Pieces that lie on each other are searched one after the other. -/
theorem Searched.append {upper lower unseen₁ finished₁ unseen₂ finished₂ : List NodeId}
    (h1 : Searched successors bound unseen finished upper unseen₁ finished₁)
    (h2 : Searched successors bound unseen₁ finished₁ lower unseen₂ finished₂) :
    Searched successors bound unseen finished (upper ++ lower) unseen₂ finished₂ where
  state := h2.state
  run := by
    intro stack
    rw [List.append_assoc, h1.run, h2.run]
  unseen_sublist := h2.unseen_sublist.trans h1.unseen_sublist
  finished_subset := fun _ hx => h2.finished_subset (h1.finished_subset hx)
  open_iff := fun x => (h2.open_iff x).trans (h1.open_iff x)
  piece_finished := by
    intro x hx
    rcases List.mem_append.1 hx with hx | hx
    · exact h2.finished_subset (h1.piece_finished x hx)
    · exact h2.piece_finished x hx

/-- A node that is finished already is only taken off. -/
theorem searched_finished (hstate : SearchState successors bound unseen finished)
    (hunseen : id ∉ unseen) (h : id ∈ finished) :
    Searched successors bound unseen finished [id] unseen finished where
  state := hstate
  run := fun _ => explore_finished hunseen h
  unseen_sublist := List.Sublist.refl _
  finished_subset := List.Subset.refl _
  open_iff := fun _ => Iff.rfl
  piece_finished := by
    intro x hx
    rw [List.mem_singleton.1 hx]
    exact h

/-- An unseen node is finished after the successors that are put on it. Its other successors are
finished by then, because an open node is smaller than it and cannot be its successor. -/
theorem searched_unseen (hstate : SearchState successors bound unseen finished)
    (hedges : ∀ next ∈ successors id, id < next ∧ next < bound) (hid : id ∈ unseen)
    (hopen : ∀ g, IsOpen bound unseen finished g → g < id) {unseen' finished' : List NodeId}
    (h : Searched successors bound (unseen.erase id) finished
      ((successors id).filter (· ∈ unseen.erase id)) unseen' finished') :
    Searched successors bound unseen finished [id] unseen' (id :: finished') := by
  have hopened : IsOpen bound unseen' finished' id :=
    (h.open_iff id).2 ((isOpen_erase hstate hid id).2 (.inr rfl))
  have hnext : ∀ next ∈ successors id, next ∈ finished' := by
    intro next hmem
    obtain ⟨hgt, hlt⟩ := hedges next hmem
    by_cases hunseen : next ∈ unseen.erase id
    · exact h.piece_finished next (List.mem_filter.2 ⟨hmem, decide_eq_true hunseen⟩)
    · have hnot : ¬ IsOpen bound (unseen.erase id) finished next := by
        rw [isOpen_erase hstate hid]
        intro hor
        rcases hor with hor | heq
        · exact absurd (hopen next hor) (Nat.lt_asymm hgt)
        · exact absurd heq (Nat.ne_of_gt hgt)
      exact h.finished_subset ((mem_or_mem_of_not_isOpen hlt hnot).resolve_left hunseen)
  refine ⟨h.state.finish hopened hnext, fun stack => ?_,
    h.unseen_sublist.trans List.erase_sublist,
    fun x hx => List.mem_cons_of_mem _ (h.finished_subset hx), fun x => ?_, fun x hx => ?_⟩
  · rw [List.singleton_append, explore_unseen hid, h.run, explore_open hopened.2.1 hopened.2.2]
  · rw [isOpen_cons, h.open_iff, isOpen_erase hstate hid]
    constructor
    · intro hx
      exact hx.1.resolve_right hx.2
    · intro hx
      exact ⟨.inl hx, Nat.ne_of_lt (hopen x hx)⟩
  · rw [List.mem_singleton.1 hx]
    exact List.mem_cons_self

/-- **The search of a piece of the stack**, whose nodes are not open and larger than all open
nodes. -/
theorem explore_append (hedges : ∀ id, ∀ next ∈ successors id, id < next ∧ next < bound)
    (unseen piece finished : List NodeId) (hstate : SearchState successors bound unseen finished)
    (hpiece : ∀ id ∈ piece, id < bound ∧ ¬ IsOpen bound unseen finished id)
    (hopen : ∀ g, IsOpen bound unseen finished g → ∀ id ∈ piece, g < id) :
    ∃ unseen' finished', Searched successors bound unseen finished piece unseen' finished' := by
  -- A node that is discovered makes fewer nodes unseen; any other makes the piece shorter.
  induction hm : unseen.length using Nat.strongRecOn generalizing unseen piece finished with
  | ind m ihm =>
  subst hm
  induction piece with
  | nil =>
    exact ⟨unseen, finished, hstate, fun _ => rfl, List.Sublist.refl _, List.Subset.refl _,
      fun _ => Iff.rfl, by simp⟩
  | cons id piece ih =>
    have hpiece' : ∀ x ∈ piece, x < bound ∧ ¬ IsOpen bound unseen finished x :=
      fun x hx => hpiece x (List.mem_cons_of_mem _ hx)
    have hopen' : ∀ g, IsOpen bound unseen finished g → ∀ x ∈ piece, g < x :=
      fun g hg x hx => hopen g hg x (List.mem_cons_of_mem _ hx)
    obtain ⟨hlt, hnot⟩ := hpiece id List.mem_cons_self
    by_cases hid : id ∈ unseen
    · have hless : ∀ g, IsOpen bound unseen finished g → g < id :=
        fun g hg => hopen g hg id List.mem_cons_self
      have hshorter : (unseen.erase id).length < unseen.length := by
        have hpos : 0 < unseen.length := List.length_pos_of_mem hid
        rw [List.length_erase_of_mem hid]
        omega
      have hpushed : ∀ x ∈ (successors id).filter (· ∈ unseen.erase id),
          x ∈ successors id ∧ x ∈ unseen.erase id :=
        fun x hx => ⟨(List.mem_filter.1 hx).1, of_decide_eq_true (List.mem_filter.1 hx).2⟩
      obtain ⟨unseen₁, finished₁, h1⟩ := ihm _ hshorter (unseen.erase id)
        ((successors id).filter (· ∈ unseen.erase id)) finished (hstate.erase id)
        (fun x hx => ⟨(hedges id x (hpushed x hx).1).2, fun h => h.2.1 (hpushed x hx).2⟩)
        (by
          intro g hg x hx
          have hx' := (hedges id x (hpushed x hx).1).1
          rcases (isOpen_erase hstate hid g).1 hg with hg | rfl
          · exact Nat.lt_trans (hless g hg) hx'
          · exact hx') rfl
      have hsearched := searched_unseen hstate (hedges id) hid hless h1
      obtain ⟨unseen₂, finished₂, h2⟩ := ihm _
        (Nat.lt_of_le_of_lt h1.unseen_sublist.length_le hshorter) unseen₁ piece (id :: finished₁)
        hsearched.state
        (fun x hx => ⟨(hpiece' x hx).1, fun h => (hpiece' x hx).2 ((hsearched.open_iff x).1 h)⟩)
        (fun g hg => hopen' g ((hsearched.open_iff g).1 hg)) rfl
      exact ⟨unseen₂, finished₂, hsearched.append h2⟩
    · have hfinished : id ∈ finished := (mem_or_mem_of_not_isOpen hlt hnot).resolve_left hid
      obtain ⟨unseen', finished', h⟩ := ih hpiece' hopen'
      exact ⟨unseen', finished', (searched_finished hstate hid hfinished).append h⟩

/-- Before the search no node is finished. -/
theorem searchState_range (successors : NodeId → List NodeId) (bound : Nat) :
    SearchState successors bound (List.range bound) [] :=
  ⟨List.nodup_range, fun _ hid => List.mem_range.1 hid, List.nodup_nil, by simp, by simp, trivial⟩

theorem not_isOpen_range (bound : Nat) (id : NodeId) : ¬ IsOpen bound (List.range bound) [] id :=
  fun h => h.2.1 (List.mem_range.2 h.1)

/-- **The search from all nodes** finishes every node once and in front of its successors. -/
theorem explore_range (hedges : ∀ id, ∀ next ∈ successors id, id < next ∧ next < bound) :
    (explore successors (List.range bound) (List.range bound) []).Nodup ∧
      (∀ id, id ∈ explore successors (List.range bound) (List.range bound) [] ↔ id < bound) ∧
      SuccessorsBehind successors
        (explore successors (List.range bound) (List.range bound) []) := by
  obtain ⟨unseen', finished', h⟩ := explore_append hedges _ (List.range bound) []
    (searchState_range successors bound)
    (fun id hid => ⟨List.mem_range.1 hid, not_isOpen_range bound id⟩)
    (fun g hg => absurd hg (not_isOpen_range bound g))
  have hrun := h.run []
  rw [List.append_nil, explore_nil] at hrun
  rw [hrun]
  refine ⟨h.state.finished_nodup, fun id => ?_, h.state.behind⟩
  exact ⟨h.state.finished_lt id, fun hlt => h.piece_finished id (List.mem_range.2 hlt)⟩

end Search

/-! ### Topological order -/

namespace Graph

variable {graph : Graph}

theorem mem_successors {id next : NodeId} :
    next ∈ graph.successors id ↔ ∃ node ∈ graph.nodes, id ∈ node.inputs ∧ node.id = next := by
  rw [successors_eq_edges, List.mem_map]
  constructor
  · intro h
    obtain ⟨edge, hedge, rfl⟩ := h
    obtain ⟨hmem, hsource⟩ := List.mem_filter.1 hedge
    obtain ⟨node, hnode, hinput, hid⟩ := mem_edges.1 hmem
    exact ⟨node, hnode, of_decide_eq_true hsource ▸ hinput, hid⟩
  · intro h
    obtain ⟨node, hnode, hinput, hid⟩ := h
    exact ⟨(id, next), List.mem_filter.2 ⟨mem_edges.2 ⟨node, hnode, hinput, hid⟩, by simp⟩, rfl⟩

/-- Edges of a well-formed graph lead to larger ids. -/
theorem WellFormed.lt_of_mem_successors (h : graph.WellFormed) (id : NodeId) :
    ∀ next ∈ graph.successors id, id < next ∧ next < graph.size := by
  intro next hnext
  obtain ⟨node, hnode, hinput, rfl⟩ := mem_successors.1 hnext
  exact ⟨h.inputs_lt node hnode id hinput, h.id_lt hnode⟩

/-- No node of a list is early if each of them follows its operands. -/
theorem firstEarly?_eq_none {before order : List NodeId}
    (h : ∀ earlier id later, order = earlier ++ id :: later →
      ∀ input ∈ graph.inputsOf id, input ∈ before ∨ input ∈ earlier) :
    graph.firstEarly? before order = none := by
  induction order generalizing before with
  | nil => rfl
  | cons id order ih =>
    have hid : ∀ input ∈ graph.inputsOf id, input ∈ before := by
      intro input hinput
      rcases h [] id order rfl input hinput with hbefore | hnil
      · exact hbefore
      · cases hnil
    rw [firstEarly?, if_pos hid]
    apply ih
    intro earlier id' later hsplit input hinput
    rcases h (id :: earlier) id' later (by rw [hsplit, List.cons_append]) input hinput with
      hbefore | hearlier
    · exact .inl (List.mem_cons_of_mem _ hbefore)
    · rcases List.mem_cons.1 hearlier with rfl | hearlier
      · exact .inl List.mem_cons_self
      · exact .inr hearlier

/-- A node whose id is its place is found among the consumers of its operands. -/
theorem WellFormed.mem_successors_of_mem_inputsOf (h : graph.WellFormed) {id input : NodeId}
    (hinput : input ∈ graph.inputsOf id) : id ∈ graph.successors input := by
  unfold inputsOf at hinput
  cases hnode : graph.node? id with
  | none =>
    rw [hnode] at hinput
    cases hinput
  | some node =>
    rw [hnode] at hinput
    exact mem_successors.2 ⟨node, List.mem_of_getElem? hnode, hinput, h.id_eq hnode⟩

/-- **The order of a well-formed graph** lists each id once, every node behind its operands. -/
theorem WellFormed.topologicalOrder_eq (h : graph.WellFormed) :
    graph.topologicalOrder = .ok graph.finishOrder ∧ graph.finishOrder.Nodup ∧
      (∀ id, id ∈ graph.finishOrder ↔ id < graph.size) ∧
      ∀ node ∈ graph.nodes, ∀ input ∈ node.inputs,
        graph.finishOrder.idxOf input < graph.finishOrder.idxOf node.id := by
  obtain ⟨hnodup, hmem, hbehind⟩ := explore_range (h.lt_of_mem_successors)
  change graph.finishOrder.Nodup at hnodup
  change ∀ id, id ∈ graph.finishOrder ↔ id < graph.size at hmem
  change SuccessorsBehind graph.successors graph.finishOrder at hbehind
  have hbefore : ∀ {id next}, next ∈ graph.successors id →
      graph.finishOrder.idxOf id < graph.finishOrder.idxOf next := by
    intro id next hnext
    obtain ⟨hgt, hlt⟩ := h.lt_of_mem_successors id next hnext
    exact hbehind.idxOf_lt hnodup ((hmem id).2 (Nat.lt_trans hgt hlt)) hnext
  refine ⟨?_, hnodup, hmem, ?_⟩
  · unfold topologicalOrder
    rw [firstEarly?_eq_none]
    intro earlier id later hsplit input hinput
    have hlt := hbefore (h.mem_successors_of_mem_inputsOf hinput)
    rw [hsplit] at hnodup hlt
    have hid : id ∉ earlier := by
      intro hid
      exact (List.nodup_append.1 hnodup).2.2 id hid id List.mem_cons_self rfl
    rw [List.idxOf_append_of_notMem hid, List.idxOf_cons_self, Nat.add_zero] at hlt
    by_cases hin : input ∈ earlier
    · exact .inr hin
    · rw [List.idxOf_append_of_notMem hin] at hlt
      omega
  · intro node hnode input hinput
    exact hbefore (mem_successors.2 ⟨node, hnode, hinput, rfl⟩)

end Graph

/-- **Every reachable graph has a topological order**: the search never meets a cycle, and it lists
the id of every node exactly once, each node behind all its operands. -/
theorem topologicalOrder_eq_ok {graph : Graph} (h : graph.Reachable) :
    ∃ order, graph.topologicalOrder = .ok order ∧ order.Nodup ∧
      (∀ id, id ∈ order ↔ ∃ node ∈ graph.nodes, node.id = id) ∧
      ∀ node ∈ graph.nodes, ∀ input ∈ node.inputs, order.idxOf input < order.idxOf node.id := by
  have hwf := h.wellFormed
  obtain ⟨hok, hnodup, hmem, hbehind⟩ := hwf.topologicalOrder_eq
  refine ⟨graph.finishOrder, hok, hnodup, fun id => ?_, hbehind⟩
  rw [hmem id]
  constructor
  · intro hlt
    have hnode : graph.node? id = some (graph.nodes.get ⟨id, hlt⟩) := List.getElem?_eq_getElem hlt
    exact ⟨_, List.mem_of_getElem? hnode, hwf.id_eq hnode⟩
  · intro hid
    obtain ⟨node, hnode, rfl⟩ := hid
    exact hwf.id_lt hnode

/-- A node that has one operand twice, and a node that consumes both. -/
theorem topologicalOrder_eq_ok_repeated :
    let calls : List Call :=
      [.declare (.input (.scalar 2) none) none,
        .binary (.combine .plus) (.node 0) (.node 0) none,
        .binary (.combine .elementTimes) (.node 1) (.node 0) none]
    let graph := (Builder.runAll {} calls).graph
    ∃ order, graph.topologicalOrder = .ok order ∧ 0 ∈ order ∧
      order.idxOf 0 < order.idxOf 1 ∧ order.idxOf 1 < order.idxOf 2 := by
  intro calls graph
  have hreachable : graph.Reachable := Builder.reachable_runAll .empty calls
  obtain ⟨order, horder, -, hmem, hbehind⟩ := topologicalOrder_eq_ok hreachable
  have hsum : graph.node? 1 = some (graph.nodes.get ⟨1, by decide⟩) := rfl
  have hproduct : graph.node? 2 = some (graph.nodes.get ⟨2, by decide⟩) := rfl
  refine ⟨order, horder, (hmem 0).2 ⟨_, List.mem_cons_self, rfl⟩, ?_, ?_⟩
  · exact hbehind _ (List.mem_of_getElem? hsum) 0 (by decide)
  · exact hbehind _ (List.mem_of_getElem? hproduct) 1 (by decide)

end ComputeGraph
