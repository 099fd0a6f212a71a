import ComputeGraph.Proofs.Builder.Agreement
import ComputeGraph.Proofs.Graph.Outputs
import ComputeGraph.Proofs.Graph.Sources

/-!
# Dynamic axes in the analyses of a graph

An input names its dynamic axis in an attribute, and has no operands. The order of a graph and its
outputs look at operands only. So the axis is an earlier node, but it is listed behind the input,
and it counts as consumed only if some node has it as an operand.

* `Settings.fitsAxis_of_answers` — what is known of the inputs that a builder appends;
* **`dynamicAxis_is_no_operand`** — the place of a dynamic axis in the order, and among the outputs.
-/

namespace ComputeGraph

/-- An input of either kind. -/
def Kind.IsInput (kind : Kind) : Prop :=
  kind = .input ∨ kind = .sparseInput

instance : DecidablePred Kind.IsInput :=
  fun _ => inferInstanceAs (Decidable (_ ∨ _))

/-- An input has no operands, and a dynamic axis among the attributes of a node is an earlier node
that is one. -/
def Node.FitsInput (graph : Graph) (node : Node) : Prop :=
  (node.kind.IsInput → node.inputs = []) ∧ node.FitsAxis graph

theorem Node.FitsInput.mono {graph after : Graph} {node : Node} (h : graph.nodes <+: after.nodes)
    (hfits : node.FitsInput graph) : node.FitsInput after :=
  hfits.imp_right fun haxis => haxis.mono h

theorem Kind.IsInput.isDeclared {kind : Kind} (h : kind.IsInput) : kind.IsDeclared := by
  rcases h with rfl | rfl <;> decide

/-- **The inputs that a builder appends** under any settings. -/
theorem Settings.fitsInput_of_answers {settings : Settings} {graph : Graph} {node : Node}
    (h : settings.Answers graph node) : node.FitsInput graph := by
  obtain ⟨request, hasks, hgrants⟩ := h
  obtain ⟨operator, shapes, shape, -, -, -, -, rfl⟩ := eq_toNode_of_grants hgrants
  rcases declares_or_defers_of_asks hasks with ⟨-, hdeclaration, haxis⟩ | ⟨hkind, -, haxis⟩
  · refine ⟨fun hinput => ?_, haxis⟩
    have hinput : request.kind.IsInput := hinput
    unfold Node.FitsDeclaration at hdeclaration
    rcases hinput with hkind | hkind
    · rw [show (request.toNode graph request.hostShape).kind = .input from hkind] at hdeclaration
      exact hdeclaration.1
    · rw [show (request.toNode graph request.hostShape).kind = .sparseInput from hkind]
        at hdeclaration
      exact hdeclaration.1
  · exact ⟨fun hinput => absurd (Kind.IsInput.isDeclared hinput) hkind,
      Node.fitsAxis_of_find?_eq_none haxis⟩

/-- **The dynamic axis of an input** is an earlier node that is a dynamic axis. It is no operand of
the input: the topological order lists the input in front of it, and it is among the outputs iff no
node has it as an operand. -/
theorem dynamicAxis_is_no_operand (settings : Settings) (calls : List Call)
    (htyped : ∀ call ∈ calls, call.IsTyped) {n axis : NodeId} {node : Node} :
    let graph := (Builder.runAll { toSettings := settings } calls).graph
    graph.node? n = some node → node.kind.IsInput →
      node.attributes.find? "dynamicAxis" = some (.node axis) →
        (∃ target, graph.node? axis = some target ∧ target.kind = .dynamicAxis) ∧ axis < n ∧
        (∃ order, graph.topologicalOrder = .ok order ∧ n ∈ order ∧ axis ∈ order ∧
          order.idxOf n < order.idxOf axis) ∧
        (axis ∈ graph.outputs ↔ ∀ other ∈ graph.nodes, axis ∉ other.inputs) := by
  intro graph hnode hkind haxis
  have hwf : graph.WellFormed := (Builder.reachable_runAll .empty calls).wellFormed
  have hmem : node ∈ graph.nodes := List.mem_of_getElem? hnode
  have hgrows : Graph.Grows settings.Answers .empty graph :=
    @Builder.runAll_grows { toSettings := settings } calls htyped
  have hfits : node.FitsInput graph :=
    (hgrows.mono fun _ _ => Settings.fitsInput_of_answers).forall_mem Node.FitsInput.mono
      (fun _ h => nomatch h) node hmem
  obtain rfl : node.id = n := hwf.id_eq hnode
  obtain ⟨axis', target, haxis', hlt, htarget, htag⟩ := hfits.2 _ haxis
  cases haxis'
  obtain ⟨horder, -, hin, -⟩ := hwf.topologicalOrder_eq
  refine ⟨⟨target, htarget, htag⟩, hlt, ⟨graph.finishOrder, horder, ?_, ?_, ?_⟩, ?_⟩
  · exact (hin _).2 (Graph.lt_size_of_node? hnode)
  · exact (hin _).2 (Graph.lt_size_of_node? htarget)
  · exact hwf.idxOf_lt_of_source hmem (hfits.1 hkind) hlt
  · rw [Graph.mem_outputs]
    have hthere : ∃ other ∈ graph.nodes, other.id = axis :=
      ⟨target, List.mem_of_getElem? htarget, hwf.id_eq htarget⟩
    exact and_iff_right hthere

/-- A dynamic axis with an input along it, and a function of the axis. -/
theorem dynamicAxis_is_no_operand_softmax :
    let calls : List Call :=
      [.declare .dynamicAxis (some "t"), .declare (.input (.dims [2]) (some 0)) (some "x"),
        .unary .softmax (.node 0) none]
    let graph := (Builder.runAll {} calls).graph
    (∃ order, graph.topologicalOrder = .ok order ∧ order.idxOf 1 < order.idxOf 0) ∧
      0 ∉ graph.outputs := by
  intro calls graph
  have htyped : ∀ call ∈ calls, call.IsTyped := by simp [calls, Call.IsTyped]
  have hnode : graph.node? 1 = some (graph.nodes.get ⟨1, by decide⟩) := rfl
  have haxis : (graph.nodes.get ⟨1, by decide⟩).attributes.find? "dynamicAxis" =
      some (.node 0) := by decide
  obtain ⟨-, -, ⟨order, horder, -, -, hlt⟩, houtputs⟩ :=
    dynamicAxis_is_no_operand {} calls htyped hnode (by decide) haxis
  refine ⟨⟨order, horder, hlt⟩, fun hin => ?_⟩
  have hnot := houtputs.1 hin (graph.nodes.get ⟨2, by decide⟩) (List.get_mem _ _)
  exact hnot (by decide)

/-- An input along a dynamic axis stands in front of it, and the axis is an output. -/
theorem dynamicAxis_listed_last :
    let calls : List Call :=
      [.declare .dynamicAxis none, .declare (.input (.dims [2]) (some 0)) none]
    let graph := (Builder.runAll {} calls).graph
    (∀ call ∈ calls, call.IsTyped) ∧
      (∃ node, graph.node? 1 = some node ∧ node.kind.IsInput ∧
        node.attributes.find? "dynamicAxis" = some (.node 0)) ∧
      graph.topologicalOrder = .ok [1, 0] ∧ graph.outputs = [0, 1] := by
  intro calls graph
  have hwf : graph.WellFormed := (Builder.reachable_runAll .empty calls).wellFormed
  have hedges : ∀ id, graph.successors id = [] := fun _ => rfl
  have horder : graph.finishOrder = [1, 0] := by
    show explore graph.successors [0, 1] [0, 1] [] = [1, 0]
    simp [explore, hedges]
  refine ⟨by simp [calls, Call.IsTyped], ⟨_, rfl, by decide, by decide⟩, ?_, by decide⟩
  rw [hwf.topologicalOrder_eq.1, horder]

end ComputeGraph
