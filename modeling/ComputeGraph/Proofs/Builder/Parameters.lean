import ComputeGraph.Proofs.Builder.Folding
import ComputeGraph.Proofs.Builder.Names
import ComputeGraph.Proofs.Graph.WellFormed
import ComputeGraph.Proofs.Tensor.Matrix

/-!
# Parameters and their initial values

A parameter is specified by up to three things: a shape, a value, and a file. A value brings its own
shape, so a shape beside it has to be the same, and it leaves no room for a file. The node of a
parameter says in one attribute where the initial value comes from, and has the attribute for that
source and none for another.

* `Parameter.IsConsistent` — the specifications that make sense;
* `Node.Records` — what the node of a parameter records of its specification;
* `exists_requestParameter_iff` — a parameter is asked for iff its specification is consistent;
* `requestParameter_form`, `records_of_requestParameter` — and then with what it has to record;
* `Settings.exists_declare_yields` — such a request is granted if its name is free;
* **`parameter_accepted_iff`** — the outcome of every declaration of a parameter.
-/

namespace ComputeGraph

/-! ### Specifications -/

/-- There is a shape and no value, or a value with an element, no file, and no shape but that of the
value. -/
def Parameter.IsConsistent (spec : Parameter) : Prop :=
  (spec.value = none ∧ spec.shape ≠ none) ∨
    ∃ value, spec.value = some value ∧ 0 ∉ value.shape ∧ spec.file = none ∧
      ∀ shape, spec.shape = some shape → shape.extents = value.extents

/-- The extents of the value, or without a value those of the shape. -/
def Parameter.extents? (spec : Parameter) : Option Extents :=
  (spec.value.map Tensor.extents).or (spec.shape.map Shape.extents)

/-- What the node of a parameter records of its specification. -/
structure Node.Records (spec : Parameter) (node : Node) : Prop where
  kind : node.kind = .parameter
  inputs : node.inputs = []
  hostShape : node.hostShape = spec.extents?
  /-- The shape for the engine is the shape of the node. -/
  shape : ∃ shape, node.attributes.find? "shape" = some (.shape shape) ∧
    node.hostShape = some shape.toHost.extents
  multiplier : node.attributes.find? "learningRateMultiplier" =
    some (.float spec.learningRateMultiplier)
  fromLiteral : node.attributes.find? "init" = some (.text "fromLiteral") ↔ spec.value ≠ none
  fromFile : node.attributes.find? "init" = some (.text "fromFile") ↔
    spec.value = none ∧ spec.file ≠ none
  uniform : node.attributes.find? "init" = some (.text "uniform") ↔
    spec.value = none ∧ spec.file = none
  /-- A value is written with an entry for each element of the node, and there is no path. -/
  literal : spec.value ≠ none →
    (∃ text shape, node.attributes.find? "initFromLiteral" = some (.literal text) ∧
      node.hostShape = some shape ∧ (Text.tokens text).flatten.length = shape.elementCount) ∧
    node.attributes.find? "initFromFilePath" = none
  /-- Without a value there is the path that is given, and no literal. -/
  path : spec.value = none →
    node.attributes.find? "initFromFilePath" = spec.file.map .path ∧
      node.attributes.find? "initFromLiteral" = none

/-! ### The request for a parameter -/

theorem requireShapeOf_eq_ok {value : Tensor} {shape : Option Shape} :
    requireShapeOf value shape = .ok () ↔
      ∀ given, shape = some given → given.extents = value.extents := by
  cases shape with
  | none => simp [requireShapeOf]
  | some given =>
    by_cases h : given.extents = value.extents
    · simp [requireShapeOf, h]
    · simp [requireShapeOf, h]

/-- **A parameter is asked for** iff its specification is consistent. -/
theorem exists_requestParameter_iff {spec : Parameter} {name : Option String} :
    (∃ request, (requestParameter spec name).result = .ok request) ↔ spec.IsConsistent := by
  constructor
  · intro h
    obtain ⟨request, h⟩ := h
    rcases requestParameter_eq_ok.1 h with ⟨hvalue, shape, hshape, -⟩ |
      ⟨value, hvalue, hshape, hfile, h⟩
    · exact .inl ⟨hvalue, hshape ▸ Option.some_ne_none shape⟩
    · obtain ⟨literal, hliteral, -⟩ := requestInitialised_eq_ok.1 h
      have hfilled : 0 ∉ value.extents := (Tensor.literal_eq_ok.1 hliteral).1
      exact .inr ⟨value, hvalue, Tensor.zero_mem_extents.not.1 hfilled, hfile,
        requireShapeOf_eq_ok.1 hshape⟩
  · intro h
    rcases h with ⟨hvalue, hshape⟩ | ⟨value, hvalue, hfilled, hfile, hshape⟩
    · obtain ⟨shape, hshape⟩ := Option.ne_none_iff_exists'.1 hshape
      exact ⟨_, requestParameter_eq_ok.2
        (.inl ⟨hvalue, shape, hshape, requestUninitialised_eq _ _ _ _⟩)⟩
    · obtain ⟨literal, hliteral⟩ := Tensor.exists_literal (Tensor.zero_mem_extents.not.2 hfilled)
      exact ⟨_, requestParameter_eq_ok.2 (.inr ⟨value, hvalue, requireShapeOf_eq_ok.2 hshape, hfile,
        requestInitialised_eq_ok.2 ⟨literal, hliteral, rfl⟩⟩)⟩

/-- **What is asked for.** All parameters have a multiplier and a shape among their attributes, and
further ones for their initial value: a literal with an entry for each element, or those of
`initialisationOf`. -/
theorem requestParameter_form {spec : Parameter} {name : Option String} {request : Request}
    (h : (requestParameter spec name).result = .ok request) :
    ∃ (shape : EngineShape) (initialisation : List (String × Attribute)) (extents : Extents),
      request = {
        kind := .parameter, name
        attributes := .ofList
          ([("learningRateMultiplier", .float spec.learningRateMultiplier),
            ("shape", .shape shape)] ++ initialisation)
        hostShape := some extents } ∧
      shape.toHost.extents = extents ∧ spec.extents? = some extents ∧
      ((spec.value = none ∧ initialisation = initialisationOf spec.file) ∨
        ∃ text, spec.value ≠ none ∧ spec.file = none ∧
          initialisation = [("init", .text Initialisation.fromLiteral.engineName),
            ("initFromLiteral", .literal text)] ∧
          (Text.tokens text).flatten.length = extents.elementCount) := by
  rcases requestParameter_eq_ok.1 h with ⟨hvalue, shape, hshape, h⟩ |
    ⟨value, hvalue, -, hfile, h⟩
  · rw [requestUninitialised_eq, Except.ok.injEq] at h
    refine ⟨_, _, _, h.symm, ?_, ?_, .inl ⟨hvalue, rfl⟩⟩
    · rw [Shape.toHost_toEngine]
    · simp [Parameter.extents?, hvalue, hshape]
  · obtain ⟨literal, hliteral, h⟩ := requestInitialised_eq_ok.1 h
    obtain ⟨-, hengine, -⟩ := Tensor.literal_eq_ok.1 hliteral
    refine ⟨_, _, _, h, ?_, ?_, .inr ⟨literal.text, ?_, hfile, rfl,
      (Tensor.laysOut_of_literal hliteral).length_flatten⟩⟩
    · rw [hengine, Shape.toHost_toEngine]
      rfl
    · simp [Parameter.extents?, hvalue]
    · simp [hvalue]

/-- The node of what is asked for records the specification. -/
theorem records_of_requestParameter {spec : Parameter} {name : Option String} {request : Request}
    (h : (requestParameter spec name).result = .ok request) {node : Node}
    (hkind : node.kind = request.kind) (hinputs : node.inputs = request.inputs)
    (hattributes : node.attributes = request.attributes)
    (hhostShape : node.hostShape = request.hostShape) : node.Records spec := by
  obtain ⟨shape, initialisation, extents, rfl, hhost, hextents, h⟩ := requestParameter_form h
  have hshape : node.hostShape = some extents := hhostShape
  -- each key is looked up among the attributes, of which there are four at most
  rcases h with ⟨hvalue, rfl⟩ | ⟨text, hvalue, hfile, rfl, hcount⟩
  · cases hfile : spec.file
    all_goals
      rw [hfile] at hattributes
      constructor
      all_goals
        simp [hkind, hinputs, hattributes, hshape, hhost, hextents, hvalue, hfile,
          Attributes.ofList, initialisationOf, Initialisation.engineName]
  · constructor
    case literal =>
      intro _
      refine ⟨⟨text, extents, ?_, hshape, hcount⟩, ?_⟩
      all_goals simp [hattributes, Attributes.ofList]
    all_goals
      simp [hkind, hinputs, hattributes, hshape, hhost, hextents, hvalue, hfile,
        Attributes.ofList, Initialisation.engineName]

/-! ### The outcome -/

/-- The request for a parameter brings all that its operator needs. -/
theorem isAdmitted_of_requestParameter {spec : Parameter} {name : Option String}
    {request : Request} (h : (requestParameter spec name).result = .ok request) (graph : Graph)
    (n : Option String) :
    Request.IsAdmitted graph { request with name := n } request.hostShape := by
  obtain ⟨shape, initialisation, extents, rfl, -, -, h⟩ := requestParameter_form h
  refine ⟨_, [], rfl, Operator.validate_eq_ok.2 ⟨rfl, rfl, ?_⟩, rfl, rfl⟩
  rcases h with ⟨-, rfl⟩ | ⟨text, -, -, rfl, -⟩
  · cases spec.file <;> simp [Operator.missing?, initialisationOf, Attributes.ofList]
  · simp [Operator.missing?, Attributes.ofList]

/-- A consistent specification needs nothing but a free name. -/
theorem Settings.exists_declare_yields {settings : Settings}
    (hstandard : settings.registry = .standard) {spec : Parameter} (h : spec.IsConsistent)
    {graph : Graph} {name : Option String} (hfree : graph.IsFree name) :
    ∃ id after, (settings.declare (.parameter spec) name).Yields graph id after := by
  obtain ⟨registry, options⟩ := settings
  obtain rfl : registry = .standard := hstandard
  obtain ⟨request, hrequest⟩ := exists_requestParameter_iff.2 h
  obtain ⟨_, _, _, hform, -⟩ := requestParameter_form hrequest
  have hadmitted := isAdmitted_of_requestParameter hrequest graph (request.named options graph).name
  rw [← Request.named_eq] at hadmitted
  have hfree' : graph.IsFree request.name := by
    rw [hform]
    exact hfree
  have hadd := add_yields_of_named options.foldConstants hadmitted (hfree'.named options)
  exact ⟨_, _, Build.yields_bind.2 ⟨request, graph, ⟨hrequest, rfl⟩, hadd⟩⟩

/-- **Declarations of parameters.** With an operator for every kind and a name that is free, a
parameter is accepted iff its specification is consistent. Then its node is appended and records the
specification; otherwise the graph stays as it is. -/
theorem parameter_accepted_iff {builder : Builder} (hstandard : builder.registry = .standard)
    (hreachable : builder.graph.Reachable) (spec : Parameter) {name : Option String}
    (hname : ∀ used, name = some used → ∀ node ∈ builder.graph.nodes, node.name ≠ some used) :
    let call : Call := .declare (.parameter spec) name
    ((∃ id, (builder.outcome call).result = .ok id) ↔ spec.IsConsistent) ∧
      (∀ id, (builder.outcome call).result = .ok id → ∃ node,
        builder.graph.Appends [node] (builder.run call).graph ∧ node.id = id ∧
          node.Records spec ∧ ∀ value, spec = .constant value →
            node.attributes.find? "learningRateMultiplier" = some (.float 0)) ∧
      ∀ e, (builder.outcome call).result = .error e → (builder.run call).graph = builder.graph := by
  intro call
  have hfree : builder.graph.IsFree name :=
    fun used h => hreachable.wellFormed.hasName_eq_false.2 (hname used h)
  have hmade : ∀ id, (builder.outcome call).result = .ok id → ∃ request node,
      (requestParameter spec name).result = .ok request ∧
        builder.toSettings.Grants builder.graph request node ∧ node.id = id ∧
        (builder.run call).graph = builder.graph.snoc node :=
    fun id h => Settings.ask_yields (f := fun _ => requestParameter spec name) ⟨h, rfl⟩
  refine ⟨⟨fun h => ?_, fun h => ?_⟩, fun id h => ?_, fun e h => ?_⟩
  · obtain ⟨id, h⟩ := h
    obtain ⟨request, node, hrequest, -⟩ := hmade id h
    exact exists_requestParameter_iff.1 ⟨request, hrequest⟩
  · obtain ⟨id, after, hresult, -⟩ := Settings.exists_declare_yields hstandard h hfree
    exact ⟨id, hresult⟩
  · obtain ⟨request, node, hrequest, hgrants, hid, hafter⟩ := hmade id h
    obtain ⟨hnext, hkind, hinputs, hattributes, hshape, -⟩ := Settings.takes_over_of_grants hgrants
    obtain ⟨_, _, extents, hform, -⟩ := requestParameter_form hrequest
    have hknown : request.hostShape = some extents := by rw [hform]
    have hrecords : node.Records spec :=
      records_of_requestParameter hrequest hkind hinputs hattributes
        ((hshape extents hknown).trans hknown.symm)
    refine ⟨node, hafter ▸ .single hnext, hid, hrecords, fun value hconstant => ?_⟩
    have hmultiplier := hrecords.multiplier
    rwa [hconstant] at hmultiplier
  · exact (Settings.ask_fails (f := fun _ => requestParameter spec name) ⟨h, rfl⟩).symm

/-- A value without axes is one element on one axis, and its name is not that of the input. -/
theorem parameter_accepted_scalar :
    let builder := Builder.runAll {} [.declare (.input (.scalar 2) none) (some "x")]
    let spec : Parameter := { shape := some (.dims [1]), value := some (.scalar 0) }
    let call : Call := .declare (.parameter spec) (some "w")
    builder.graph.Reachable ∧ spec.IsConsistent ∧
      ∃ node, builder.graph.Appends [node] (builder.run call).graph ∧ node.id = 1 ∧
        node.Records spec := by
  intro builder spec call
  have hreachable : builder.graph.Reachable := Builder.reachable_runAll .empty _
  have hconsistent : spec.IsConsistent :=
    .inr ⟨.scalar 0, rfl, List.not_mem_nil, rfl, fun shape h => by cases h; rfl⟩
  have hname : ∀ used, some "w" = some used →
      ∀ node ∈ builder.graph.nodes, node.name ≠ some used := by
    intro used h
    cases h
    decide
  obtain ⟨haccepted, hmade, -⟩ := parameter_accepted_iff rfl hreachable spec hname
  obtain ⟨id, hid⟩ := haccepted.2 hconsistent
  obtain ⟨node, happends, -, hrecords, -⟩ := hmade id hid
  have hnext : node.id = 1 := (List.cons.inj happends.2).1
  exact ⟨hreachable, hconsistent, node, happends, hnext, hrecords⟩

end ComputeGraph
