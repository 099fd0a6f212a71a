import ComputeGraph.Proofs.Graph.Append

/-!
# How calls make graphs grow

Whatever a call does, it only appends nodes, one after another, and each of them is the answer to a
request that was made for the graph as it was then. So a property of graphs that every appended node
keeps holds of every graph that can be reached.

* `Graph.Grows` — a graph with nodes appended one after another, each related to the graph before;
* `Settings.Asks` — the requests of the calls other than those that bring a request of their own;
* **`Settings.perform_grows`** — every call, also one that fails, only appends granted requests;
* **`Settings.perform_grows_typed`** — and without a request of its own only those it asks for;
* `Graph.Reachable`, **`Graph.Reachable.grows`** — graphs after any sequence of calls and requests.
-/

namespace ComputeGraph

/-! ### Growing graphs -/

/-- A graph to which nodes are appended one after another, each related to the graph before it. -/
inductive Graph.Grows (related : Graph → Node → Prop) (graph : Graph) : Graph → Prop
  | refl : Grows related graph graph
  | snoc {mid after : Graph} {node : Node} (grown : Grows related graph mid)
      (hnode : related mid node) (hpush : mid.push node = .ok after) : Grows related graph after

namespace Graph.Grows

variable {related : Graph → Node → Prop} {graph mid after : Graph}

theorem single {node : Node} (hnode : related graph node) (hpush : graph.push node = .ok after) :
    Grows related graph after :=
  .snoc .refl hnode hpush

theorem trans (h1 : Grows related graph mid) (h2 : Grows related mid after) :
    Grows related graph after := by
  induction h2 with
  | refl => exact h1
  | snoc _ hnode hpush ih => exact .snoc ih hnode hpush

theorem mono {related' : Graph → Node → Prop} (h : Grows related graph after)
    (himp : ∀ graph node, related graph node → related' graph node) :
    Grows related' graph after := by
  induction h with
  | refl => exact .refl
  | snoc _ hnode hpush ih => exact .snoc ih (himp _ _ hnode) hpush

/-- What is there stays as it is. -/
theorem nodes_extend (h : Grows related graph after) : graph.nodes <+: after.nodes := by
  induction h with
  | refl => exact List.prefix_refl _
  | snoc _ _ hpush ih =>
    obtain ⟨-, -, -, rfl⟩ := push_eq_ok.1 hpush
    exact ih.trans (List.prefix_append _ _)

theorem size_le (h : Grows related graph after) : graph.size ≤ after.size :=
  h.nodes_extend.length_le

/-- A property that every appended node keeps. -/
theorem preserves {holds : Graph → Prop} (h : Grows related graph after) (hgraph : holds graph)
    (hpush : ∀ {graph after node}, graph.push node = .ok after → holds graph → holds after) :
    holds after := by
  induction h with
  | refl => exact hgraph
  | snoc _ _ hsnoc ih => exact hpush hsnoc ih

end Graph.Grows

/-! ### Names of requests -/

namespace Request

variable (request : Request) (options : Options) (graph : Graph)

/-- A request under another name. -/
theorem named_eq :
    request.named options graph = { request with name := (request.named options graph).name } := by
  unfold named
  split <;> rfl

/-- Without a prefix for names a request keeps the name that it has. -/
theorem named_eq_self {options : Options} (hstem : options.namePrefix = none) (request : Request)
    (graph : Graph) : request.named options graph = request := by
  unfold named
  rw [hstem]
  cases request.name <;> rfl

theorem named_of_name {request : Request} {name : String} (hname : request.name = some name)
    (options : Options) (graph : Graph) : request.named options graph = request := by
  unfold named
  rw [hname]

theorem kind_named : (request.named options graph).kind = request.kind := by
  rw [named_eq]

theorem inputs_named : (request.named options graph).inputs = request.inputs := by
  rw [named_eq]

theorem hostShape_named : (request.named options graph).hostShape = request.hostShape := by
  rw [named_eq]

/-- The name that a builder may give does not matter to the operator. -/
theorem validate_named (operator : Operator) :
    operator.validate (request.named options graph) = operator.validate request := by
  rw [named_eq]
  rfl

theorem inferShape_named (operator : Operator) (shapes : List (Option Extents)) :
    operator.inferShape (request.named options graph) shapes =
      operator.inferShape request shapes := by
  rw [named_eq]
  rfl

end Request

/-! ### Calls -/

/-- Appends the node of a request as it is, and leaves the graph alone if that fails. -/
def Registry.create (registry : Registry) (strict : Bool) (request : Request) : Build NodeId :=
  Build.change fun graph => registry.append strict graph request

/-- The node is what a registry appends to the graph for the request. -/
def Registry.Grants (registry : Registry) (strict : Bool) (graph : Graph) (request : Request)
    (node : Node) : Prop :=
  (registry.append strict graph request).result = .ok (node.id, graph.snoc node)

/-- A registry leaves the graph alone or appends the one node that it grants. -/
theorem Registry.create_cases (registry : Registry) (strict : Bool) (request : Request)
    (graph : Graph) :
    (registry.create strict request graph).graph = graph ∨
      ∃ node, registry.Grants strict graph request node ∧
        graph.push node = .ok (registry.create strict request graph).graph := by
  rcases Build.graph_change (fun graph => registry.append strict graph request) graph with
    ⟨h, -⟩ | ⟨id, h⟩
  · exact .inl h
  · obtain ⟨operator, shapes, shape, -, -, hshapes, -, hfree, rfl, hafter⟩ := append_eq_ok.1 h
    refine .inr ⟨request.toNode graph shape, ?_, ?_⟩
    · rw [hafter] at h
      exact h
    · exact Graph.push_eq_ok.2 ⟨rfl, Graph.lt_size_of_hostShapes hshapes, hfree, hafter⟩

/-- Whether a call is one of the declarations and operators, and not a request as it is. -/
def Call.IsTyped : Call → Prop
  | .add _ => False
  | _ => True

namespace Settings

variable (settings : Settings)

/-- The node is what a builder appends to the graph for the request. -/
def Grants (graph : Graph) (request : Request) (node : Node) : Prop :=
  settings.registry.Grants settings.options.validateShapes graph
    (request.named settings.options graph) node

/-- What is known of a node that a builder appends for a request: the operator of its kind accepts
the request, and apart from its name the node is that of the request with the shape that is found or
left open. -/
theorem eq_toNode_of_grants {settings : Settings} {graph : Graph} {request : Request} {node : Node}
    (h : settings.Grants graph request node) :
    ∃ operator shapes shape, settings.registry.find? request.kind = some operator ∧
      operator.validate request = .ok () ∧ graph.hostShapes request.inputs = .ok shapes ∧
      (operator.inferShape request shapes = .ok shape ∨
        (∃ e, operator.inferShape request shapes = .error e) ∧
          settings.options.validateShapes = false ∧ shape = none) ∧
      node = { request.toNode graph shape with
        name := (request.named settings.options graph).name } := by
  obtain ⟨operator, shapes, shape, hoperator, hvalid, hshapes, hshape, -, -, hafter⟩ :=
    Registry.append_eq_ok.1 h
  rw [Request.validate_named] at hvalid
  rw [Request.inferShape_named] at hshape
  rw [Request.kind_named] at hoperator
  rw [Request.inputs_named] at hshapes
  refine ⟨operator, shapes, shape, hoperator, hvalid, hshapes, hshape, ?_⟩
  have hnodes : graph.nodes ++ [node] =
      graph.nodes ++ [(request.named settings.options graph).toNode graph shape] :=
    congrArg Graph.nodes hafter
  rw [(List.cons.inj (List.append_cancel_left hnodes)).1, Request.named_eq]
  rfl

/-- The requests that declarations and operators make for a graph. -/
inductive Asks (graph : Graph) : Request → Prop
  | declare {declaration : Declaration} {name : Option String} {request : Request}
      (h : (declaration.request graph name).result = .ok request) : Asks graph request
  | unary {operator : UnaryOperator} {x : NodeId} {name : Option String} {request : Request}
      (h : (operator.request settings.options.validateShapes graph x name).result = .ok request) :
      Asks graph request
  | binary {operator : BinaryOperator} {left right : NodeId} {name : Option String}
      {request : Request}
      (h : (operator.request settings.options.validateShapes graph left right name).result =
        .ok request) : Asks graph request
  | ternary (operator : TernaryOperator) (first second third : NodeId) (name : Option String) :
      Asks graph (operator.request first second third name)

/-- The node answers a request that a declaration or an operator makes. -/
def Answers (graph : Graph) (node : Node) : Prop :=
  ∃ request, settings.Asks graph request ∧ settings.Grants graph request node

/-- A builder creates the node of a request under the name that it may give it. -/
theorem add_eq_create (request : Request) (graph : Graph) :
    settings.add request graph =
      settings.registry.create settings.options.validateShapes
        (request.named settings.options graph) graph := by
  unfold add Registry.create Build.change
  rfl

theorem add_cases (request : Request) (graph : Graph) :
    (settings.add request graph).graph = graph ∨
      ∃ node, settings.Grants graph request node ∧
        graph.push node = .ok (settings.add request graph).graph := by
  rw [add_eq_create]
  exact Registry.create_cases _ _ _ graph

/-- A request that is made for the graph and granted at once, or refused. -/
theorem query_add_grows {f : Graph → Attempt Request} (graph : Graph)
    (hasks : ∀ request, (f graph).result = .ok request → settings.Asks graph request) :
    Graph.Grows settings.Answers graph ((Build.query f >>= settings.add) graph).graph := by
  cases h : (f graph).result with
  | error e =>
    rw [(Build.bind_of_error (x := Build.query f) (f := settings.add) h).2]
    exact .refl
  | ok request =>
    rw [(Build.bind_of_ok (x := Build.query f) (f := settings.add) h).2]
    rcases settings.add_cases request graph with hsame | ⟨node, hgrants, hpush⟩
    · show Graph.Grows _ graph (settings.add request graph).graph
      rw [hsame]
      exact .refl
    · exact .single ⟨request, hasks request h, hgrants⟩ hpush

theorem declare_grows (declaration : Declaration) (name : Option String) (graph : Graph) :
    Graph.Grows settings.Answers graph (settings.declare declaration name graph).graph :=
  settings.query_add_grows graph fun _ h => .declare h

theorem resolve_grows (operand : Operand) (graph : Graph) :
    Graph.Grows settings.Answers graph (settings.resolve operand graph).graph := by
  cases operand with
  | node id => exact .refl
  | literal value => exact settings.declare_grows _ _ graph

theorem performUnary_grows (operator : UnaryOperator) (x : Operand) (name : Option String)
    (graph : Graph) :
    Graph.Grows settings.Answers graph (settings.performUnary operator x name graph).graph := by
  unfold performUnary
  cases operator.refusal? with
  | some error => exact .refl
  | none =>
    refine Build.graph_bind .trans (settings.resolve_grows x graph) fun x mid => ?_
    exact settings.query_add_grows mid fun _ h => .unary h

theorem performFolded_grows (f : Elementwise) (value : Tensor) (name : Option String)
    (graph : Graph) :
    Graph.Grows settings.Answers graph (settings.performFolded f value name graph).graph := by
  refine Build.graph_bind .trans .refl fun _ mid => ?_
  exact settings.declare_grows _ _ mid

theorem performBinary_grows (operator : BinaryOperator) (left right : Operand)
    (name : Option String) (graph : Graph) :
    Graph.Grows settings.Answers graph
      (settings.performBinary operator left right name graph).graph := by
  refine Build.graph_bind .trans (settings.resolve_grows left graph) fun left mid => ?_
  refine Build.graph_bind .trans (settings.resolve_grows right mid) fun right mid => ?_
  exact settings.query_add_grows mid fun _ h => .binary h

theorem performTernary_grows (operator : TernaryOperator) (first second third : Operand)
    (name : Option String) (graph : Graph) :
    Graph.Grows settings.Answers graph
      (settings.performTernary operator first second third name graph).graph := by
  refine Build.graph_bind .trans (settings.resolve_grows first graph) fun first mid => ?_
  refine Build.graph_bind .trans (settings.resolve_grows second mid) fun second mid => ?_
  refine Build.graph_bind .trans (settings.resolve_grows third mid) fun third mid => ?_
  rcases settings.add_cases (operator.request first second third name) mid with
    hsame | ⟨node, hgrants, hpush⟩
  · rw [hsame]
    exact .refl
  · exact .single ⟨_, .ternary operator first second third name, hgrants⟩ hpush

/-- **Declarations and operators** append only answers to the requests that they make, also where
they fail. -/
theorem perform_grows_typed {call : Call} (htyped : call.IsTyped) (graph : Graph) :
    Graph.Grows settings.Answers graph (settings.perform call graph).graph := by
  cases call with
  | declare declaration name => exact settings.declare_grows declaration name graph
  | unary operator x name =>
    unfold perform
    cases h : settings.folded? operator x with
    | none => simpa only [h] using settings.performUnary_grows operator x name graph
    | some folded => simpa only [h] using settings.performFolded_grows folded.1 folded.2 name graph
  | binary operator left right name =>
    exact settings.performBinary_grows operator left right name graph
  | ternary operator first second third name =>
    exact settings.performTernary_grows operator first second third name graph
  | add request => exact absurd htyped id

/-- **Every call** only appends nodes that are granted. -/
theorem perform_grows (call : Call) (graph : Graph) :
    Graph.Grows (fun graph node => ∃ request, settings.Grants graph request node) graph
      (settings.perform call graph).graph := by
  cases call with
  | add request =>
    rcases settings.add_cases request graph with hsame | ⟨node, hgrants, hpush⟩
    · show Graph.Grows _ graph (settings.add request graph).graph
      rw [hsame]
      exact .refl
    · exact .single ⟨request, hgrants⟩ hpush
  | _ =>
    refine (settings.perform_grows_typed ?_ graph).mono fun _ _ h => ?_
    · trivial
    · obtain ⟨request, -, hgrants⟩ := h
      exact ⟨request, hgrants⟩

end Settings

/-! ### Reachable graphs -/

/-- The graphs that can be made by calls and by requests as they are, in any order and under any
settings, whether they succeed or not. -/
inductive Graph.Reachable : Graph → Prop
  | empty : Reachable .empty
  | call {graph : Graph} (h : Reachable graph) (settings : Settings) (call : Call) :
      Reachable (settings.perform call graph).graph
  | create {graph : Graph} (h : Reachable graph) (registry : Registry) (strict : Bool)
      (request : Request) : Reachable (registry.create strict request graph).graph

/-- **Reachable graphs** have grown from the empty one. -/
theorem Graph.Reachable.grows {graph : Graph} (h : graph.Reachable) :
    Graph.Grows (fun _ _ => True) .empty graph := by
  induction h with
  | empty => exact .refl
  | call _ settings call ih =>
    exact ih.trans ((settings.perform_grows call _).mono fun _ _ _ => trivial)
  | create _ registry strict request ih =>
    rcases registry.create_cases strict request _ with hsame | ⟨node, -, hpush⟩
    · rw [hsame]
      exact ih
    · exact .snoc ih trivial hpush

/-- A builder that starts with the empty graph only ever holds reachable ones. -/
theorem Builder.reachable_runAll {builder : Builder} (h : builder.graph.Reachable)
    (calls : List Call) : (builder.runAll calls).graph.Reachable := by
  induction calls generalizing builder with
  | nil => exact h
  | cons call calls ih => exact ih (.call h builder.toSettings call)

end ComputeGraph
