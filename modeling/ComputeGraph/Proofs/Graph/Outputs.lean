import ComputeGraph.Proofs.Graph.WellFormed
import Mathlib.Logic.Relation

/-!
# The outputs of a graph

The outputs are the nodes that no node consumes. Consumers have larger ids than their operands, so
going from a node to one of its consumers again and again comes to an end, and the end is an output.
Whoever evaluates the outputs, and with each node its operands, evaluates the whole graph.

* `Graph.Feeds` — a node is among the operands of another;
* `Graph.IsEvaluated` — what is evaluated for the outputs;
* `Graph.WellFormed.pairwise_outputs` — the outputs are listed in increasing order;
* `Graph.WellFormed.exists_output` — every node leads to an output;
* **`outputs_cover`** — what the outputs of every reachable graph are and cover.
-/

namespace ComputeGraph

namespace Graph

/-- The first node is among the operands of the second. -/
def Feeds (graph : Graph) (id consumer : NodeId) : Prop :=
  ∃ node ∈ graph.nodes, id ∈ node.inputs ∧ node.id = consumer

/-- What is evaluated for the outputs: they themselves, and with a node its operands. -/
inductive IsEvaluated (graph : Graph) : NodeId → Prop
  | output {id : NodeId} (h : id ∈ graph.outputs) : IsEvaluated graph id
  | operand {id consumer : NodeId} (h : IsEvaluated graph consumer)
      (hfeeds : graph.Feeds id consumer) : IsEvaluated graph id

variable {graph : Graph}

/-- The outputs are the nodes that no node has among its operands. -/
theorem mem_outputs {id : NodeId} :
    id ∈ graph.outputs ↔
      (∃ node ∈ graph.nodes, node.id = id) ∧ ∀ node ∈ graph.nodes, id ∉ node.inputs := by
  unfold outputs
  rw [List.mem_filter, List.mem_map, Bool.not_eq_true', ← Bool.not_eq_true, isConsumed_iff,
    List.mem_flatMap]
  simp only [not_exists, not_and]

/-- A node is an output or feeds another one. -/
theorem mem_outputs_or_feeds {node : Node} (hnode : node ∈ graph.nodes) :
    node.id ∈ graph.outputs ∨ ∃ consumer ∈ graph.nodes, graph.Feeds node.id consumer.id := by
  by_cases h : ∀ consumer ∈ graph.nodes, node.id ∉ consumer.inputs
  · exact .inl (mem_outputs.2 ⟨⟨node, hnode, rfl⟩, h⟩)
  · push Not at h
    obtain ⟨consumer, hconsumer, hinput⟩ := h
    exact .inr ⟨consumer, hconsumer, consumer, hconsumer, hinput, rfl⟩

/-- Whatever leads to a node that is evaluated is evaluated. -/
theorem IsEvaluated.of_leads {id later : NodeId}
    (hleads : Relation.ReflTransGen graph.Feeds id later) (h : graph.IsEvaluated later) :
    graph.IsEvaluated id := by
  induction hleads using Relation.ReflTransGen.head_induction_on with
  | refl => exact h
  | head hfeeds _ ih => exact .operand ih hfeeds

namespace WellFormed

theorem pairwise_outputs (h : graph.WellFormed) : graph.outputs.Pairwise (· < ·) := by
  unfold outputs
  rw [h.map_id]
  exact List.pairwise_lt_range.filter _

theorem lt_of_feeds (h : graph.WellFormed) {id consumer : NodeId}
    (hfeeds : graph.Feeds id consumer) : id < consumer := by
  obtain ⟨node, hnode, hinput, rfl⟩ := hfeeds
  exact h.inputs_lt node hnode id hinput

/-- **Every node leads to an output**, from consumer to consumer. -/
theorem exists_output (h : graph.WellFormed) {node : Node} (hnode : node ∈ graph.nodes) :
    ∃ output ∈ graph.outputs, Relation.ReflTransGen graph.Feeds node.id output := by
  -- a consumer is nearer to the end of the graph
  induction hleft : graph.size - node.id using Nat.strongRecOn generalizing node with
  | ind left ih =>
    rcases mem_outputs_or_feeds hnode with houtput | ⟨consumer, hconsumer, hfeeds⟩
    · exact ⟨node.id, houtput, .refl⟩
    · have hless : graph.size - consumer.id < left :=
        hleft ▸ Nat.sub_lt_sub_left (h.id_lt hnode) (h.lt_of_feeds hfeeds)
      obtain ⟨output, houtput, hleads⟩ := ih _ hless hconsumer rfl
      exact ⟨output, houtput, .head hfeeds hleads⟩

/-- No node comes after the last one, so none consumes it. -/
theorem last_mem_outputs (h : graph.WellFormed) {last : Node}
    (hlast : graph.nodes.getLast? = some last) : last.id ∈ graph.outputs := by
  have hmem : last ∈ graph.nodes := List.mem_of_getLast? hlast
  have hid : last.id = graph.size - 1 := by
    rw [List.getLast?_eq_getElem?] at hlast
    exact h.id_eq hlast
  refine mem_outputs.2 ⟨⟨last, hmem, rfl⟩, fun node hnode hinput => ?_⟩
  have hbefore : last.id < node.id := h.inputs_lt node hnode last.id hinput
  have hle : node.id ≤ last.id := hid ▸ Nat.le_sub_one_of_lt (h.id_lt hnode)
  exact absurd hbefore (Nat.not_lt.2 hle)

/-- **What is evaluated for the outputs** are all nodes. -/
theorem isEvaluated_iff (h : graph.WellFormed) {id : NodeId} :
    graph.IsEvaluated id ↔ ∃ node ∈ graph.nodes, node.id = id := by
  constructor
  · intro hevaluated
    induction hevaluated with
    | output houtput => exact (mem_outputs.1 houtput).1
    | @operand id consumer _ hfeeds _ =>
      obtain ⟨node, hnode, hinput, rfl⟩ := hfeeds
      have hlt := (h.inBounds node hnode).2 id hinput
      exact ⟨graph.nodes[id], List.getElem_mem hlt, h.id_eq (List.getElem?_eq_getElem hlt)⟩
  · intro hnode
    obtain ⟨node, hnode, rfl⟩ := hnode
    obtain ⟨output, houtput, hleads⟩ := h.exists_output hnode
    exact .of_leads hleads (.output houtput)

end WellFormed

end Graph

/-- **The outputs of a reachable graph** are listed in increasing order, each once, and are the
nodes that no node has among its operands, as found by marking all operands in a table; the last
node is one of them. From every node there is a chain of consumers that ends in an output, so the
nodes that are evaluated for the outputs are all nodes of the graph. -/
theorem outputs_cover {graph : Graph} (h : graph.Reachable) :
    graph.markedOutputs? = some graph.outputs ∧ graph.outputs.Pairwise (· < ·) ∧
      (∀ id, id ∈ graph.outputs ↔
        (∃ node ∈ graph.nodes, node.id = id) ∧ ∀ node ∈ graph.nodes, id ∉ node.inputs) ∧
      (∀ node ∈ graph.nodes,
        ∃ output ∈ graph.outputs, Relation.ReflTransGen graph.Feeds node.id output) ∧
      (∀ last, graph.nodes.getLast? = some last → last.id ∈ graph.outputs) ∧
      ∀ id, graph.IsEvaluated id ↔ ∃ node ∈ graph.nodes, node.id = id := by
  have hwf := h.wellFormed
  exact ⟨Graph.markedOutputs?_eq hwf.inBounds, hwf.pairwise_outputs, fun _ => Graph.mem_outputs,
    fun _ => hwf.exists_output, fun _ => hwf.last_mem_outputs, fun _ => hwf.isEvaluated_iff⟩

/-- An input that feeds two outputs, one of them through a node that has it twice. -/
theorem outputs_cover_shared :
    let calls : List Call :=
      [.declare (.input (.scalar 2) none) none,
        .binary (.combine .plus) (.node 0) (.node 0) none,
        .unary .softmax (.node 1) none,
        .unary (.apply .relu) (.node 0) none]
    let graph := (Builder.runAll {} calls).graph
    graph.outputs = [2, 3] ∧ graph.outputs.Pairwise (· < ·) ∧
      (∃ output ∈ graph.outputs, Relation.ReflTransGen graph.Feeds 1 output) ∧
      3 ∈ graph.outputs ∧ graph.IsEvaluated 0 := by
  intro calls graph
  have hreachable : graph.Reachable := Builder.reachable_runAll .empty calls
  obtain ⟨-, hincreasing, -, hleads, hlast, hevaluated⟩ := outputs_cover hreachable
  have hsum : graph.nodes.get ⟨1, by decide⟩ ∈ graph.nodes := List.get_mem _ _
  exact ⟨by decide, hincreasing, hleads _ hsum, hlast (graph.nodes.get ⟨3, by decide⟩) rfl,
    (hevaluated 0).2 ⟨_, List.mem_cons_self, rfl⟩⟩

end ComputeGraph
