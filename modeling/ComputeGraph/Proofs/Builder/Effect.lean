import ComputeGraph.Proofs.Builder.Stages

/-!
# The effect of a call

What a call adds to a graph. A call that succeeds adds a constant for each of its literal operands,
in the order of its arguments, and then its own node. A call that fails leaves the constants of the
first few of its literal operands. Nothing else changes.

* `Graph.Appends` — a graph with some nodes appended under the ids that come next;
* `Node.IsConstant` — a parameter that training does not change, with a tensor as initial value;
* `operandIds` — the nodes that operands become;
* **`Settings.resolveAll_yields`**, **`Settings.resolveAll_fails`** — what operands add;
* **`Settings.performStages_yields`** — what a call adds that is not folded and succeeds;
* **`run_effect`** — what every call adds, whether it succeeds or not.
-/

namespace ComputeGraph

/-! ### Appending several nodes -/

namespace Graph

/-- The graph with further nodes, and their names in the index. -/
def extend (graph : Graph) (nodes : List Node) : Graph :=
  ⟨graph.nodes ++ nodes, (nodes.filterMap Node.entry?).reverse ++ graph.names⟩

/-- The graph after is the graph before with the nodes appended, under the ids that come next. -/
def Appends (graph : Graph) (nodes : List Node) (after : Graph) : Prop :=
  after = graph.extend nodes ∧ nodes.map Node.id = List.range' graph.size nodes.length

theorem extend_nil (graph : Graph) : graph.extend [] = graph := by
  simp [extend]

theorem extend_append (graph : Graph) (nodes more : List Node) :
    graph.extend (nodes ++ more) = (graph.extend nodes).extend more := by
  simp [extend, List.filterMap_append]

theorem extend_singleton (graph : Graph) (node : Node) : graph.extend [node] = graph.snoc node := by
  unfold extend snoc
  cases hentry : node.entry? <;> simp [hentry]

theorem size_extend (graph : Graph) (nodes : List Node) :
    (graph.extend nodes).size = graph.size + nodes.length :=
  List.length_append

theorem node?_extend_of_lt (graph : Graph) (nodes : List Node) {i : NodeId} (h : i < graph.size) :
    (graph.extend nodes).node? i = graph.node? i :=
  List.getElem?_append_left h

theorem node?_extend_add (graph : Graph) (nodes : List Node) (j : Nat) :
    (graph.extend nodes).node? (graph.size + j) = nodes[j]? := by
  show (graph.nodes ++ nodes)[graph.nodes.length + j]? = nodes[j]?
  rw [List.getElem?_append_right (Nat.le_add_right _ _), Nat.add_sub_cancel_left]

/-- The names in use once some nodes are appended. -/
theorem hasName_extend (graph : Graph) (nodes : List Node) (name : String) :
    (graph.extend nodes).hasName name =
      ((nodes.any fun node => decide (node.name = some name)) || graph.hasName name) := by
  induction nodes generalizing graph with
  | nil => rw [extend_nil, List.any_nil, Bool.false_or]
  | cons node nodes ih =>
    rw [← List.singleton_append, extend_append, extend_singleton, ih, hasName_snoc,
      List.singleton_append, List.any_cons, ← Bool.or_assoc, Bool.or_comm (decide _)]

namespace Appends

variable {graph mid after : Graph} {nodes more : List Node}

theorem nil (graph : Graph) : graph.Appends [] graph :=
  ⟨graph.extend_nil.symm, rfl⟩

theorem single {node : Node} (hid : node.id = graph.size) :
    graph.Appends [node] (graph.snoc node) := by
  refine ⟨(graph.extend_singleton node).symm, ?_⟩
  rw [List.map_singleton, hid]
  rfl

theorem nodes_eq (h : graph.Appends nodes after) : after.nodes = graph.nodes ++ nodes := by
  rw [h.1, extend]

theorem size_eq (h : graph.Appends nodes after) : after.size = graph.size + nodes.length := by
  rw [size, h.nodes_eq, List.length_append, size]

theorem append (h : graph.Appends nodes mid) (hmore : mid.Appends more after) :
    graph.Appends (nodes ++ more) after := by
  refine ⟨?_, ?_⟩
  · rw [hmore.1, h.1, extend_append]
  · rw [List.map_append, h.2, hmore.2, h.size_eq, List.length_append,
      List.range'_append_1]

end Appends

end Graph

/-! ### Constants -/

/-- The attributes of a parameter that training does not change and that starts with a literal. -/
def constantAttributes (literal : MatrixLiteral) : Attributes :=
  .ofList
    [("learningRateMultiplier", .float 0), ("shape", .shape literal.shape),
      ("init", .text Initialisation.fromLiteral.engineName),
      ("initFromLiteral", .literal literal.text)]

/-- The node is a parameter that training does not change and that starts with a tensor. -/
structure Node.IsConstant (value : Tensor) (node : Node) : Prop where
  kind_eq : node.kind = .parameter
  inputs_eq : node.inputs = []
  attributes_eq : ∃ literal, value.literal = .ok literal ∧
    node.attributes = constantAttributes literal
  hostShape_eq : node.hostShape = some value.extents

theorem constant_request_eq_ok {graph : Graph} {value : Tensor} {name : Option String}
    {request : Request} :
    ((Declaration.parameter (.constant value)).request graph name).result = .ok request ↔
      ∃ literal, value.literal = .ok literal ∧
        request = {
          kind := .parameter, name, attributes := constantAttributes literal
          hostShape := some value.extents } := by
  show (requestParameter (.constant value) name).result = .ok request ↔ _
  rw [requestParameter_eq_ok]
  constructor
  · intro h
    rcases h with ⟨h, -⟩ | ⟨value', hvalue, -, -, h⟩
    · cases h
    · cases hvalue
      exact requestInitialised_eq_ok.1 h
  · intro h
    exact .inr ⟨value, rfl, rfl, rfl, requestInitialised_eq_ok.2 h⟩

/-! ### Operands -/

/-- The tensor that an operand is. -/
def Operand.literal? : Operand → Option Tensor
  | .node _ => none
  | .literal value => some value

/-- The tensors among the operands of a call, in the order of its arguments. -/
def Call.literals (call : Call) : List Tensor :=
  call.operands.filterMap Operand.literal?

/-- The nodes of operands: the nodes that are given, and for the tensors the ids from `next` on. -/
def operandIds : NodeId → List Operand → List NodeId
  | _, [] => []
  | next, .node id :: operands => id :: operandIds next operands
  | next, .literal _ :: operands => next :: operandIds (next + 1) operands

namespace Settings

variable {settings : Settings} {graph after : Graph} {id : NodeId} {e : Error}

/-- A builder that succeeds in appending the node of a request has been granted it. -/
theorem add_yields_iff {request : Request} :
    (settings.add request).Yields graph id after ↔
      ∃ node, settings.Grants graph request node ∧ node.id = id ∧ after = graph.snoc node := by
  unfold add Grants Registry.Grants
  rw [Build.yields_change]
  constructor
  · intro h
    obtain ⟨operator, shapes, shape, -, -, -, -, -, rfl, rfl⟩ := Registry.append_eq_ok.1 h
    exact ⟨_, h, rfl, rfl⟩
  · intro h
    obtain ⟨node, h, rfl, rfl⟩ := h
    exact h

theorem add_fails (request : Request) (h : (settings.add request).Fails graph e after) :
    graph = after :=
  (Build.fails_change.1 h).2

/-- What a node takes over from its request. -/
theorem takes_over_of_grants {request : Request} {node : Node}
    (h : settings.Grants graph request node) :
    node.id = graph.size ∧ node.kind = request.kind ∧ node.inputs = request.inputs ∧
      node.attributes = request.attributes ∧
      (∀ shape, request.hostShape = some shape → node.hostShape = some shape) ∧
      (request.name = none ∨ node.name = request.name) := by
  obtain ⟨operator, shapes, shape, -, -, -, hshape, rfl⟩ := eq_toNode_of_grants h
  refine ⟨rfl, rfl, rfl, rfl, ?_, ?_⟩
  · intro known hknown
    rw [Operator.inferShape_of_eq_some hknown] at hshape
    rcases hshape with hshape | ⟨⟨e, hshape⟩, -⟩
    · exact (Except.ok.inj hshape).symm
    · cases hshape
  · show request.name = none ∨ (request.named settings.options graph).name = request.name
    unfold Request.named
    split
    · rename_i hname _
      exact .inl hname
    · exact .inr rfl

/-- A constant that is made is appended and nothing else. -/
theorem constant_yields {value : Tensor} {name : Option String}
    (h : (settings.constant value name).Yields graph id after) :
    ∃ node, node.IsConstant value ∧ node.id = id ∧ (name = none ∨ node.name = name) ∧
      graph.Appends [node] after := by
  obtain ⟨request, mid, hquery, hadd⟩ := Build.yields_bind.1 h
  obtain ⟨hrequest, rfl⟩ := Build.yields_query.1 hquery
  obtain ⟨literal, hliteral, rfl⟩ := constant_request_eq_ok.1 hrequest
  obtain ⟨node, hgrants, hid, rfl⟩ := add_yields_iff.1 hadd
  obtain ⟨hnext, hkind, hinputs, hattributes, hshape, hname⟩ := takes_over_of_grants hgrants
  exact ⟨node, ⟨hkind, hinputs, ⟨literal, hliteral, hattributes⟩, hshape _ rfl⟩, hid, hname,
    .single hnext⟩

theorem constant_fails {value : Tensor} {name : Option String}
    (h : (settings.constant value name).Fails graph e after) : graph = after := by
  rcases Build.fails_bind.1 h with h | ⟨request, mid, hquery, hadd⟩
  · exact h.2
  · obtain ⟨-, rfl⟩ := Build.yields_query.1 hquery
    exact add_fails _ hadd

/-- An operand that becomes a node adds its constant if it is a tensor, and nothing otherwise. -/
theorem resolve_yields {x : Operand} (h : (settings.resolve x).Yields graph id after) :
    ∃ constants, graph.Appends constants after ∧
      List.Forall₂ Node.IsConstant x.literal?.toList constants ∧
      [id] = operandIds graph.size [x] := by
  cases x with
  | node i =>
    obtain ⟨hresult, rfl⟩ := Build.yields_query.1 h
    obtain ⟨node, -, rfl⟩ := except_map_eq_ok.1 hresult
    exact ⟨[], .nil graph, .nil, rfl⟩
  | literal value =>
    obtain ⟨node, hconstant, rfl, -, happends⟩ := constant_yields h
    have hid : node.id = graph.size := (List.cons.inj happends.2).1
    exact ⟨[node], happends, .cons hconstant .nil, congrArg (fun id => [id]) hid⟩

theorem resolve_fails {x : Operand} (h : (settings.resolve x).Fails graph e after) :
    graph = after := by
  cases x with
  | node i => exact h.2
  | literal value => exact constant_fails h

theorem operandIds_cons (next : NodeId) (x : Operand) (operands : List Operand) :
    operandIds next (x :: operands) =
      operandIds next [x] ++ operandIds (next + x.literal?.toList.length) operands := by
  cases x <;> rfl

theorem length_operandIds (next : NodeId) (operands : List Operand) :
    (operandIds next operands).length = operands.length := by
  induction operands generalizing next with
  | nil => rfl
  | cons x operands ih => cases x <;> exact congrArg (· + 1) (ih _)

theorem filterMap_literal?_cons (x : Operand) (operands : List Operand) :
    (x :: operands).filterMap Operand.literal? =
      x.literal?.toList ++ operands.filterMap Operand.literal? := by
  cases x <;> rfl

/-- **Operands that become nodes** add the constants of the tensors among them. -/
theorem resolveAll_yields {operands : List Operand} {ids : List NodeId}
    (h : (settings.resolveAll operands).Yields graph ids after) :
    ∃ constants, graph.Appends constants after ∧
      List.Forall₂ Node.IsConstant (operands.filterMap Operand.literal?) constants ∧
      ids = operandIds graph.size operands := by
  induction operands generalizing graph ids with
  | nil =>
    obtain ⟨hids, rfl⟩ := h
    exact ⟨[], .nil graph, .nil, (Except.ok.inj hids).symm⟩
  | cons x operands ih =>
    obtain ⟨id, mid, hx, h⟩ := Build.yields_bind.1 h
    obtain ⟨rest, mid', hrest, h⟩ := Build.yields_bind.1 h
    obtain ⟨hids, rfl⟩ := h
    obtain ⟨first, hfirst, hconstant, hid⟩ := resolve_yields hx
    obtain ⟨constants, hconstants, hall, rfl⟩ := ih hrest
    refine ⟨first ++ constants, hfirst.append hconstants, ?_, ?_⟩
    · rw [filterMap_literal?_cons]
      exact List.rel_append hconstant hall
    · rw [operandIds_cons, ← hid, hconstant.length_eq, ← hfirst.size_eq]
      exact (Except.ok.inj hids).symm

/-- **Operands of which one becomes no node** add the constants of the tensors before that one. -/
theorem resolveAll_fails {operands : List Operand}
    (h : (settings.resolveAll operands).Fails graph e after) :
    ∃ k constants, graph.Appends constants after ∧
      List.Forall₂ Node.IsConstant ((operands.filterMap Operand.literal?).take k) constants := by
  induction operands generalizing graph with
  | nil => cases h.1
  | cons x operands ih =>
    rcases Build.fails_bind.1 h with h | ⟨id, mid, hx, h⟩
    · obtain rfl := resolve_fails h
      exact ⟨0, [], .nil graph, .nil⟩
    · obtain ⟨first, hfirst, hconstant, -⟩ := resolve_yields hx
      rcases Build.fails_bind.1 h with h | ⟨rest, mid', -, h⟩
      · obtain ⟨k, constants, hconstants, hall⟩ := ih h
        refine ⟨x.literal?.toList.length + k, first ++ constants, hfirst.append hconstants, ?_⟩
        rw [filterMap_literal?_cons, List.take_length_add_append]
        exact List.rel_append hconstant hall
      · cases h.1

/-- The error of operands is that a node is missing, or that of a constant without a name. -/
theorem resolveAll_error {operands : List Operand}
    (h : (settings.resolveAll operands).Fails graph e after) :
    (∃ id, e = .noSuchNode id) ∨
      ∃ value mid, (settings.constant value none).Fails mid e mid := by
  induction operands generalizing graph with
  | nil => cases h.1
  | cons x operands ih =>
    rcases Build.fails_bind.1 h with h | ⟨id, mid, -, h⟩
    · cases x with
      | node id =>
        obtain ⟨-, rfl⟩ := Graph.get_eq_error.1 (except_map_eq_error.1 h.1)
        exact .inl ⟨id, rfl⟩
      | literal value =>
        obtain rfl := constant_fails h
        exact .inr ⟨value, graph, h⟩
    · rcases Build.fails_bind.1 h with h | ⟨ids, mid', -, h⟩
      · exact ih h
      · cases h.1

/-! ### Calls -/

/-- A request that is made and granted, or fails without a trace. -/
theorem ask_yields {f : Graph → Attempt Request} (h : (settings.ask f).Yields graph id after) :
    ∃ request node, (f graph).result = .ok request ∧ settings.Grants graph request node ∧
      node.id = id ∧ after = graph.snoc node := by
  obtain ⟨request, mid, hquery, hadd⟩ := Build.yields_bind.1 h
  obtain ⟨hrequest, rfl⟩ := Build.yields_query.1 hquery
  obtain ⟨node, hgrants, hid, hafter⟩ := add_yields_iff.1 hadd
  exact ⟨request, node, hrequest, hgrants, hid, hafter⟩

theorem ask_fails {f : Graph → Attempt Request} (h : (settings.ask f).Fails graph e after) :
    graph = after := by
  rcases Build.fails_bind.1 h with h | ⟨request, mid, hquery, hadd⟩
  · exact h.2
  · obtain ⟨-, rfl⟩ := Build.yields_query.1 hquery
    exact add_fails _ hadd

/-- **A call that succeeds and is not folded** makes the constants of its literal operands, and is
then granted its request for the nodes of its operands. -/
theorem performStages_yields {call : Call}
    (h : (settings.performStages call).Yields graph id after) :
    ∃ constants mid request node, graph.Appends constants mid ∧
      List.Forall₂ Node.IsConstant call.literals constants ∧
      (call.request settings.options.validateShapes mid
        (operandIds graph.size call.operands)).result = .ok request ∧
      settings.Grants mid request node ∧ node.id = id ∧ after = mid.snoc node := by
  unfold performStages at h
  split at h
  · cases h.1
  · obtain ⟨ids, mid, hids, hask⟩ := Build.yields_bind.1 h
    obtain ⟨constants, happends, hall, rfl⟩ := resolveAll_yields hids
    obtain ⟨request, node, hrequest, hgrants, hid, rfl⟩ := ask_yields hask
    exact ⟨constants, mid, request, node, happends, hall, hrequest, hgrants, hid, rfl⟩

/-- A call that fails and is not folded leaves constants of its first literal operands, and none if
its arguments alone are refused. -/
theorem performStages_fails {call : Call}
    (h : (settings.performStages call).Fails graph e after) :
    ∃ k constants, graph.Appends constants after ∧
      List.Forall₂ Node.IsConstant (call.literals.take k) constants ∧
      (call.operands = [] ∨ call.refusal? ≠ none → k = 0) := by
  unfold performStages at h
  split at h
  · obtain ⟨-, rfl⟩ := h
    exact ⟨0, [], .nil graph, .nil, fun _ => rfl⟩
  · rename_i hrefusal
    have hleft : ∃ k constants, graph.Appends constants after ∧
        List.Forall₂ Node.IsConstant (call.literals.take k) constants := by
      rcases Build.fails_bind.1 h with h | ⟨ids, mid, hids, hask⟩
      · exact resolveAll_fails h
      · obtain rfl := ask_fails hask
        obtain ⟨constants, happends, hall, -⟩ := resolveAll_yields hids
        exact ⟨call.literals.length, constants, happends, by rwa [List.take_length]⟩
    obtain ⟨k, constants, happends, hall⟩ := hleft
    by_cases hnone : call.operands = []
    · have hliterals : call.literals = [] := by rw [Call.literals, hnone]; rfl
      rw [hliterals, List.take_nil] at hall
      exact ⟨0, constants, happends, by rwa [List.take_zero], fun _ => rfl⟩
    · refine ⟨k, constants, happends, hall, fun h => ?_⟩
      rcases h with h | h
      · exact absurd h hnone
      · exact absurd hrefusal h

end Settings

/-- **Every call.** Settings stay, and so do the nodes that are there. If the call succeeds, the
constants of its literal operands are appended in the order of its arguments and then its node,
whose id is returned and whose operands are those of the call; if it is folded, only the constant of
its values is. If the call fails, the constants of its first `k` literal operands are appended and
nothing else; none are if it has no operands, is refused for its arguments alone, or is folded. -/
theorem run_effect (builder : Builder) (call : Call) :
    (builder.run call).toSettings = builder.toSettings ∧
      builder.graph.nodes <+: (builder.run call).graph.nodes ∧
      match (builder.outcome call).result with
      | .ok id => ∃ constants node,
          builder.graph.Appends (constants ++ [node]) (builder.run call).graph ∧
          node.id = id ∧ (call.name = none ∨ node.name = call.name) ∧
          match builder.foldedCall? call with
          | some (f, value) => constants = [] ∧
              node.IsConstant (f.fold builder.options.domainPolicy value)
          | none => List.Forall₂ Node.IsConstant call.literals constants ∧
              node.kind = call.kind ∧
              node.inputs = call.inputs (operandIds builder.graph.size call.operands)
      | .error _ => ∃ k constants,
          builder.graph.Appends constants (builder.run call).graph ∧
          List.Forall₂ Node.IsConstant (call.literals.take k) constants ∧
          (call.operands = [] ∨ call.refusal? ≠ none ∨ (builder.foldedCall? call).isSome →
            k = 0) := by
  refine ⟨rfl, (builder.toSettings.perform_grows call builder.graph).nodes_extend, ?_⟩
  cases hfold : builder.foldedCall? call with
  | some folded =>
    obtain ⟨f, value⟩ := folded
    obtain ⟨hgraph, hresult⟩ := Settings.perform_of_folded hfold builder.graph
    cases houtcome : (builder.outcome call).result with
    | ok id =>
      obtain ⟨node, hconstant, hid, hname, happends⟩ :=
        Settings.constant_yields ⟨hresult.symm.trans houtcome, hgraph.symm⟩
      exact ⟨[], node, happends, hid, hname, rfl, hconstant⟩
    | error e =>
      have hsame := Settings.constant_fails ⟨hresult.symm.trans houtcome, hgraph.symm⟩
      refine ⟨0, [], ?_, .nil, fun _ => rfl⟩
      show builder.graph.Appends [] (builder.toSettings.perform call builder.graph).graph
      rw [← hsame]
      exact .nil _
  | none =>
    have hstages := Settings.perform_of_unfolded hfold
    cases houtcome : (builder.outcome call).result with
    | ok id =>
      have hyields : (builder.toSettings.performStages call).Yields builder.graph id
          (builder.run call).graph := hstages ▸ ⟨houtcome, rfl⟩
      obtain ⟨constants, mid, request, node, happends, hall, hrequest, hgrants, hid, hafter⟩ :=
        Settings.performStages_yields hyields
      obtain ⟨hkind, hname, hinputs⟩ := Call.request_says hrequest
      obtain ⟨hnext, hkind', hinputs', -, -, hname'⟩ := Settings.takes_over_of_grants hgrants
      refine ⟨constants, node, hafter ▸ happends.append (.single hnext), hid, hname ▸ hname', hall,
        hkind'.trans hkind, hinputs'.trans hinputs⟩
    | error e =>
      have hfails : (builder.toSettings.performStages call).Fails builder.graph e
          (builder.run call).graph := hstages ▸ ⟨houtcome, rfl⟩
      obtain ⟨k, constants, happends, hall, hzero⟩ := Settings.performStages_fails hfails
      refine ⟨k, constants, happends, hall, fun h => hzero ?_⟩
      rcases h with h | h | h
      · exact .inl h
      · exact .inr h
      · cases h

end ComputeGraph
