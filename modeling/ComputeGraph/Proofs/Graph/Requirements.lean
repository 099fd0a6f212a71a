import ComputeGraph.Proofs.Graph.WellFormed

/-!
# What a request must meet

A request for a node is checked for six things, one after another. It is granted if all are met,
and then the graph gets the one node that was asked for. Otherwise the graph stays as it is, and the
error is that of the first requirement that is not met.

* `Registry.registerAll` — a registry after some operators have been registered, where a second one
  for a kind changes nothing;
* **`Registry.find?_registerAll`** — the first operator for a kind stays;
* `Requirement`, `Requirement.Met`, `Requirement.Reports` — the requirements in the order in which
  they are checked, and the error of each;
* **`Registry.exists_append_iff`** — a request is granted iff it meets all of them;
* **`Registry.firstUnmet_of_append_eq_error`** — the error is that of the first one unmet;
* **`create_grants_iff_met`** — the outcome of every request to every graph that can be reached.
-/

namespace ComputeGraph

/-! ### Registrations -/

namespace Registry

/-- The registry after an operator has been registered, or as it was if the kind is taken. -/
def offer (registry : Registry) (operator : Operator) : Registry :=
  match registry.register operator with
  | .ok after => after
  | .error _ => registry

/-- The registry after some operators have been registered one after another. -/
def registerAll (registry : Registry) (operators : List Operator) : Registry :=
  operators.foldl offer registry

theorem find?_offer (registry : Registry) (operator : Operator) (kind : Kind) :
    (registry.offer operator).find? kind =
      (registry.find? kind).or ([operator].find? fun o => o.kind = kind) := by
  unfold offer register
  split
  · -- the operator has been registered
    rename_i after hregister
    split at hregister
    · cases hregister
    · rename_i hnone
      cases hregister
      show List.find? _ (operator :: registry.operators) = _
      by_cases hkind : operator.kind = kind
      · rw [hkind] at hnone
        simp [hkind, hnone]
      · simp [hkind, find?]
  · -- the kind is taken
    rename_i hregister
    split at hregister
    · rename_i earlier hearlier
      by_cases hkind : operator.kind = kind
      · rw [hkind] at hearlier
        rw [hearlier]
        rfl
      · simp [hkind]
    · cases hregister

/-- **Registrations.** The first operator for a kind stays. -/
theorem find?_registerAll (registry : Registry) (operators : List Operator) (kind : Kind) :
    (registry.registerAll operators).find? kind =
      (registry.find? kind).or (operators.find? fun operator => operator.kind = kind) := by
  induction operators generalizing registry with
  | nil => simp [registerAll]
  | cons operator operators ih =>
    show ((registry.offer operator).registerAll operators).find? kind = _
    rw [ih, find?_offer, Option.or_assoc, ← List.find?_append, List.singleton_append]

theorem kind_of_find? {registry : Registry} {kind : Kind} {operator : Operator}
    (h : registry.find? kind = some operator) : operator.kind = kind := by
  have hkind := List.find?_some h
  exact of_decide_eq_true hkind

end Registry

/-! ### Requirements -/

/-- The shapes of some nodes, where they are known. -/
def Graph.shapesOf (graph : Graph) (ids : List NodeId) : List (Option Extents) :=
  ids.map fun id => (graph.node? id).bind Node.hostShape

theorem Graph.eq_shapesOf_of_hostShapes {graph : Graph} {ids : List NodeId}
    {shapes : List (Option Extents)} (h : graph.hostShapes ids = .ok shapes) :
    shapes = graph.shapesOf ids := by
  have hall := hostShapes_eq_ok.1 h
  clear h
  induction hall with
  | nil => rfl
  | cons hhead _ ih =>
    obtain ⟨node, hnode, rfl⟩ := hhead
    rw [ih, shapesOf, shapesOf, List.map_cons, hnode]
    rfl

theorem Graph.exists_hostShapes_iff {graph : Graph} {ids : List NodeId} :
    (∃ shapes, graph.hostShapes ids = .ok shapes) ↔ ∀ id ∈ ids, id < graph.size := by
  constructor
  · intro h
    obtain ⟨shapes, hshapes⟩ := h
    exact lt_size_of_hostShapes hshapes
  · intro h
    cases hshapes : graph.hostShapes ids with
    | ok shapes => exact ⟨shapes, rfl⟩
    | error e =>
      obtain ⟨id, hid, -⟩ := hostShapes_eq_error.1 hshapes
      have hmissing : graph.size ≤ id := by simpa using List.find?_some hid
      exact absurd (h id (List.mem_of_find?_eq_some hid)) (Nat.not_lt.2 hmissing)

/-- What a request must meet. -/
inductive Requirement where
  /-- There is an operator for the kind. -/
  | operator
  /-- There are as many operands as the operator takes. -/
  | arity
  /-- All attributes are there that the operator requires. -/
  | attributes
  /-- All operands exist. -/
  | operands
  /-- The shape is declared, can be found, or may stay open. -/
  | shape
  /-- The name is not in use. -/
  | name
deriving DecidableEq, Repr

namespace Requirement

/-- The requirements in the order in which they are checked. -/
def all : List Requirement :=
  [.operator, .arity, .attributes, .operands, .shape, .name]

/-- What the error of a request that does not meet a requirement is about. -/
def category : Requirement → Error.Category
  | .operator => .unsupportedFeature
  | .arity => .validation
  | .attributes => .missingField
  | .operands => .invalidGraph
  | .shape => .validation
  | .name => .invalidGraph

section Meaning

variable (registry : Registry) (strict : Bool) (graph : Graph) (request : Request)

/-- Whether a request to a graph meets a requirement. Where there is no operator for the kind, only
the first one is not met. -/
def Met : Requirement → Prop
  | .operator => ∃ operator, registry.find? request.kind = some operator
  | .arity => ∀ operator, registry.find? request.kind = some operator →
      request.inputs.length = operator.arity
  | .attributes => ∀ operator, registry.find? request.kind = some operator →
      ∀ key ∈ operator.required, ∃ value, request.attributes.find? key = some value
  | .operands => ∀ id ∈ request.inputs, ∃ node ∈ graph.nodes, node.id = id
  | .shape => ∀ operator, registry.find? request.kind = some operator →
      request.hostShape ≠ none ∨
        (∃ shape, operator.rule.infer (graph.shapesOf request.inputs) = .ok shape) ∨ strict = false
  | .name => ∀ name, request.name = some name → ∀ node ∈ graph.nodes, node.name ≠ some name

/-- Whether an error is the one for a request that does not meet a requirement. -/
def Reports (e : Error) : Requirement → Prop
  | .operator => e = .notRegistered request.kind
  | .arity => ∃ operator, registry.find? request.kind = some operator ∧
      e = .wrongArity request.kind operator.arity request.inputs.length
  | .attributes => ∃ operator key, registry.find? request.kind = some operator ∧
      operator.missing? request = some key ∧ e = .missingAttribute request.kind key
  | .operands => ∃ id, request.inputs.find? (graph.size ≤ ·) = some id ∧ e = .noSuchNode id
  | .shape => ∃ operator, registry.find? request.kind = some operator ∧
      operator.rule.infer (graph.shapesOf request.inputs) = .error e
  | .name => ∃ name, request.name = some name ∧ e = .nameInUse name

/-- The request does not meet the requirement, but all that are checked before it. -/
def FirstUnmet (requirement : Requirement) : Prop :=
  ∃ before after, all = before ++ requirement :: after ∧
    (∀ earlier ∈ before, earlier.Met registry strict graph request) ∧
      ¬ requirement.Met registry strict graph request

end Meaning

variable {registry : Registry} {strict : Bool} {graph : Graph} {request : Request} {e : Error}

theorem category_of_reports {requirement : Requirement}
    (h : requirement.Reports registry graph request e) : e.category = requirement.category := by
  cases requirement with
  | operator =>
    cases h
    rfl
  | arity =>
    obtain ⟨operator, -, rfl⟩ := h
    rfl
  | attributes =>
    obtain ⟨operator, key, -, -, rfl⟩ := h
    rfl
  | operands =>
    obtain ⟨id, -, rfl⟩ := h
    rfl
  | shape =>
    obtain ⟨operator, -, h⟩ := h
    have hinfer : operator.inferShape { request with hostShape := none }
        (graph.shapesOf request.inputs) = .error e := h
    obtain ⟨left, right, rfl⟩ := Operator.inferShape_eq_error hinfer
    rfl
  | name =>
    obtain ⟨name, -, rfl⟩ := h
    rfl

theorem arity_met_iff {operator : Operator}
    (h : registry.find? request.kind = some operator) :
    Met registry strict graph request .arity ↔ request.inputs.length = operator.arity := by
  simp [Met, h]

theorem attributes_met_iff {operator : Operator}
    (h : registry.find? request.kind = some operator) :
    Met registry strict graph request .attributes ↔ operator.missing? request = none := by
  simp only [Met, h, Option.some.injEq, forall_eq', Operator.missing?, List.find?_eq_none,
    Option.isNone_iff_eq_none, ← ne_eq, Option.ne_none_iff_exists']

/-- The operator of the kind accepts a request that has all operands and attributes. -/
theorem validate_eq_ok_iff {operator : Operator}
    (h : registry.find? request.kind = some operator) :
    operator.validate request = .ok () ↔ Met registry strict graph request .arity ∧
      Met registry strict graph request .attributes := by
  rw [arity_met_iff h, attributes_met_iff h, Operator.validate_eq_ok]
  exact and_iff_right (Registry.kind_of_find? h).symm

theorem operands_met_iff (h : graph.WellFormed) :
    Met registry strict graph request .operands ↔ ∀ id ∈ request.inputs, id < graph.size := by
  refine forall₂_congr fun id _ => ⟨fun hnode => ?_, fun hlt => ?_⟩
  · obtain ⟨node, hmem, rfl⟩ := hnode
    exact h.id_lt hmem
  · have hnode : graph.node? id = some graph.nodes[id] := List.getElem?_eq_getElem hlt
    exact ⟨_, List.mem_of_getElem? hnode, h.id_eq hnode⟩

theorem name_met_iff (h : graph.WellFormed) :
    Met registry strict graph request .name ↔ graph.IsFree request.name :=
  forall₂_congr fun _ _ => h.hasName_eq_false.symm

/-- Where the shape is not declared, the rule of the operator has to give it. -/
theorem shape_met_iff {operator : Operator} (h : registry.find? request.kind = some operator) :
    Met registry strict graph request .shape ↔
      (∃ shape, operator.inferShape request (graph.shapesOf request.inputs) = .ok shape) ∨
        strict = false := by
  simp only [Met, h, Option.some.injEq, forall_eq', ← or_assoc]
  refine or_congr_left ?_
  cases hdeclared : request.hostShape with
  | none => simp [Operator.inferShape_of_eq_none hdeclared]
  | some shape => simp [Operator.inferShape_of_eq_some hdeclared]

end Requirement

/-! ### Granted and refused requests -/

namespace Registry

open Requirement

variable {registry : Registry} {strict : Bool} {graph : Graph} {request : Request}

/-- A declared shape is never refused, so it is the rule that fails. -/
theorem infer_of_inferShape_eq_error {operator : Operator} {shapes : List (Option Extents)}
    {e : Error} (h : operator.inferShape request shapes = .error e) :
    operator.rule.infer shapes = .error e := by
  cases hdeclared : request.hostShape with
  | none => rwa [Operator.inferShape_of_eq_none hdeclared] at h
  | some shape =>
    rw [Operator.inferShape_of_eq_some hdeclared] at h
    cases h

/-- The shape of the node for a request: the declared one, else the one that the rule gives, else
none. -/
def settledShape (operator : Operator) (graph : Graph) (request : Request) : Option Extents :=
  request.hostShape.or (operator.rule.infer (graph.shapesOf request.inputs)).toOption.join

/-- What has been found or left open is the settled shape. -/
theorem eq_settledShape {operator : Operator} {shape : Option Extents}
    (h : operator.inferShape request (graph.shapesOf request.inputs) = .ok shape ∨
      (∃ e, operator.inferShape request (graph.shapesOf request.inputs) = .error e) ∧
        strict = false ∧ shape = none) : shape = settledShape operator graph request := by
  unfold settledShape
  cases hdeclared : request.hostShape with
  | some declared =>
    rw [Operator.inferShape_of_eq_some hdeclared] at h
    rcases h with h | ⟨⟨e, h⟩, -⟩
    · cases h
      rfl
    · cases h
  | none =>
    rw [Operator.inferShape_of_eq_none hdeclared] at h
    rcases h with h | ⟨⟨e, h⟩, -, rfl⟩
    · rw [h]
      rfl
    · rw [h]
      rfl

/-- **Granted requests** are those that meet all requirements. -/
theorem exists_append_iff (h : graph.WellFormed) :
    (∃ r, (registry.append strict graph request).result = .ok r) ↔
      ∀ requirement : Requirement, requirement.Met registry strict graph request := by
  constructor
  · intro hgranted
    obtain ⟨⟨id, after⟩, hgranted⟩ := hgranted
    obtain ⟨operator, shapes, shape, hoperator, hvalid, hshapes, hshape, hfree, -, -⟩ :=
      append_eq_ok.1 hgranted
    obtain ⟨harity, hattributes⟩ : Met registry strict graph request .arity ∧
        Met registry strict graph request .attributes := (validate_eq_ok_iff hoperator).1 hvalid
    obtain rfl := Graph.eq_shapesOf_of_hostShapes hshapes
    intro requirement
    cases requirement with
    | operator => exact ⟨operator, hoperator⟩
    | arity => exact harity
    | attributes => exact hattributes
    | operands => exact (operands_met_iff h).2 (Graph.lt_size_of_hostShapes hshapes)
    | shape =>
      refine (shape_met_iff hoperator).2 ?_
      rcases hshape with hfound | ⟨-, hlenient, -⟩
      · exact .inl ⟨shape, hfound⟩
      · exact .inr hlenient
    | name => exact (name_met_iff h).2 hfree
  · intro hmet
    obtain ⟨operator, hoperator⟩ := hmet .operator
    have hvalid := (validate_eq_ok_iff hoperator).2 ⟨hmet .arity, hmet .attributes⟩
    obtain ⟨shapes, hshapes⟩ :=
      Graph.exists_hostShapes_iff.2 ((operands_met_iff h).1 (hmet .operands))
    obtain rfl := Graph.eq_shapesOf_of_hostShapes hshapes
    have hfree := (name_met_iff h).1 (hmet .name)
    have hshape := (shape_met_iff hoperator).1 (hmet .shape)
    cases hinfer : operator.inferShape request (graph.shapesOf request.inputs) with
    | ok shape =>
      exact ⟨_, append_eq_ok.2
        ⟨operator, _, shape, hoperator, hvalid, hshapes, .inl hinfer, hfree, rfl, rfl⟩⟩
    | error e =>
      have hlenient : strict = false := by simpa [hinfer] using hshape
      exact ⟨_, append_eq_ok.2 ⟨operator, _, none, hoperator, hvalid, hshapes,
        .inr ⟨⟨e, hinfer⟩, hlenient, rfl⟩, hfree, rfl, rfl⟩⟩

/-- **Refused requests** get the error of the first requirement that they do not meet. -/
theorem firstUnmet_of_append_eq_error (h : graph.WellFormed) {e : Error}
    (herror : (registry.append strict graph request).result = .error e) :
    ∃ requirement : Requirement, requirement.FirstUnmet registry strict graph request ∧
      requirement.Reports registry graph request e := by
  rcases append_eq_error herror with ⟨hnone, he⟩ | ⟨operator, hoperator, herror⟩
  · exact ⟨.operator, ⟨[], _, rfl, by simp, by simp [Met, hnone]⟩, he⟩
  have hfirst : Met registry strict graph request .operator := ⟨operator, hoperator⟩
  have hkind := kind_of_find? hoperator
  rcases herror with hinvalid | ⟨hvalid, herror⟩
  · rcases Operator.validate_eq_error.1 hinvalid with
      ⟨hother, -⟩ | ⟨-, ⟨harity, he⟩ | ⟨harity, key, hkey, he⟩⟩
    · exact absurd hkind.symm hother
    · refine ⟨.arity, ⟨[.operator], _, rfl, ?_, ?_⟩, operator, hoperator, hkind ▸ he⟩
      · simpa using hfirst
      · rwa [arity_met_iff hoperator]
    · refine ⟨.attributes, ⟨[.operator, .arity], _, rfl, ?_, ?_⟩, operator, key, hoperator, hkey,
        hkind ▸ he⟩
      · simpa using ⟨hfirst, (arity_met_iff hoperator).2 harity⟩
      · simp [attributes_met_iff hoperator, hkey]
  obtain ⟨harity, hattributes⟩ : Met registry strict graph request .arity ∧
      Met registry strict graph request .attributes := (validate_eq_ok_iff hoperator).1 hvalid
  rcases herror with ⟨id, hid, he⟩ | ⟨shapes, hshapes, herror⟩
  · refine ⟨.operands, ⟨[.operator, .arity, .attributes], _, rfl, ?_, ?_⟩, id, hid, he⟩
    · simpa using ⟨hfirst, harity, hattributes⟩
    · intro hmet
      have hlt := (operands_met_iff h).1 hmet id (List.mem_of_find?_eq_some hid)
      have hmissing : graph.size ≤ id := by simpa using List.find?_some hid
      exact Nat.not_lt.2 hmissing hlt
  obtain rfl := Graph.eq_shapesOf_of_hostShapes hshapes
  have hoperands : Met registry strict graph request .operands :=
    (operands_met_iff h).2 (Graph.lt_size_of_hostShapes hshapes)
  rcases herror with ⟨hinfer, hstrict⟩ | ⟨hfound, name, hname, hused, he⟩
  · refine ⟨.shape, ⟨[.operator, .arity, .attributes, .operands], _, rfl, ?_, ?_⟩,
      operator, hoperator, infer_of_inferShape_eq_error hinfer⟩
    · simpa using ⟨hfirst, harity, hattributes, hoperands⟩
    · simp [shape_met_iff hoperator, hinfer, hstrict]
  · have hshape : Met registry strict graph request .shape := by
      refine (shape_met_iff hoperator).2 ?_
      cases strict with
      | true => exact .inl (hfound rfl)
      | false => exact .inr rfl
    refine ⟨.name, ⟨[.operator, .arity, .attributes, .operands, .shape], _, rfl, ?_, ?_⟩,
      name, hname, he⟩
    · simpa using ⟨hfirst, harity, hattributes, hoperands, hshape⟩
    · rw [name_met_iff h]
      intro hfree
      rw [hfree name hname] at hused
      cases hused

/-- The node that a granted request makes. -/
theorem eq_snoc_of_append_eq_ok {id : NodeId} {after : Graph}
    (h : (registry.append strict graph request).result = .ok (id, after)) :
    id = graph.size ∧ ∃ operator, registry.find? request.kind = some operator ∧
      after = graph.snoc (request.toNode graph (settledShape operator graph request)) := by
  obtain ⟨operator, shapes, shape, hoperator, -, hshapes, hshape, -, hid, hafter⟩ :=
    append_eq_ok.1 h
  obtain rfl := Graph.eq_shapesOf_of_hostShapes hshapes
  obtain rfl := eq_settledShape hshape
  exact ⟨hid, operator, hoperator, hafter⟩

theorem exists_create_iff :
    (∃ id, (registry.create strict request graph).result = .ok id) ↔
      ∃ r, (registry.append strict graph request).result = .ok r := by
  constructor
  · intro h
    obtain ⟨id, hid⟩ := h
    have hyields : (registry.create strict request).Yields graph id _ := ⟨hid, rfl⟩
    exact ⟨_, Build.yields_change.1 hyields⟩
  · intro h
    obtain ⟨⟨id, after⟩, hgranted⟩ := h
    have hyields : (registry.create strict request).Yields graph id after :=
      Build.yields_change.2 hgranted
    exact ⟨id, hyields.1⟩

end Registry

/-- **Requests to graphs that can be reached**, through a registry in which further operators have
been registered one after another. The first operator for a kind is the one that counts. A request
succeeds iff it meets all requirements. Then the graph gets one node with the next id, which has the
kind, name, operands and attributes of the request and the shape that is declared, else the one that
the rule of the operator gives, else none; its name, if it has one, is put into the index. Otherwise
nodes and index stay as they are, and the error is that of the first requirement that is not met. -/
theorem create_grants_iff_met {graph : Graph} (h : graph.Reachable) (base : Registry)
    (operators : List Operator) (strict : Bool) (request : Request) :
    let registry := base.registerAll operators
    let outcome := registry.create strict request graph
    (∀ kind, registry.find? kind =
      (base.find? kind).or (operators.find? fun operator => operator.kind = kind)) ∧
    ((∃ id, outcome.result = .ok id) ↔
      ∀ requirement : Requirement, requirement.Met registry strict graph request) ∧
    (∀ id, outcome.result = .ok id → id = graph.size ∧
      ∃ operator, registry.find? request.kind = some operator ∧
        outcome.graph.nodes = graph.nodes ++ [{
          id, name := request.name, kind := request.kind, inputs := request.inputs
          attributes := request.attributes
          hostShape := request.hostShape.or
            (operator.rule.infer (graph.shapesOf request.inputs)).toOption.join }] ∧
        outcome.graph.names = (request.name.map fun name => (name, id)).toList ++ graph.names) ∧
    ∀ e, outcome.result = .error e → outcome.graph = graph ∧
      ∃ requirement : Requirement, requirement.FirstUnmet registry strict graph request ∧
        requirement.Reports registry graph request e ∧ e.category = requirement.category := by
  intro registry outcome
  have hwf := h.wellFormed
  refine ⟨base.find?_registerAll operators, ?_, fun id hid => ?_, fun e he => ?_⟩
  · rw [Registry.exists_create_iff, Registry.exists_append_iff hwf]
  · have hyields : (registry.create strict request).Yields graph id outcome.graph := ⟨hid, rfl⟩
    obtain ⟨rfl, operator, hoperator, hafter⟩ :=
      Registry.eq_snoc_of_append_eq_ok (Build.yields_change.1 hyields)
    rw [hafter]
    exact ⟨rfl, operator, hoperator, rfl, rfl⟩
  · have hfails : (registry.create strict request).Fails graph e outcome.graph := ⟨he, rfl⟩
    obtain ⟨herror, hsame⟩ := Build.fails_change.1 hfails
    obtain ⟨requirement, hfirst, hreports⟩ := Registry.firstUnmet_of_append_eq_error hwf herror
    exact ⟨hsame.symm, requirement, hfirst, hreports, Requirement.category_of_reports hreports⟩

/-- Two operators for one kind, of which the first counts: a request for it with one operand is
granted, and one with two operands, of which one does not exist, is refused for their number. -/
theorem create_grants_iff_met_twice :
    let graph := (Builder.runAll {} [.declare (.input (.dims [2, 3]) none) (some "x")]).graph
    let registry := Registry.empty.registerAll
      [{ kind := .relu, arity := 1, rule := .preserve },
        { kind := .relu, arity := 2, rule := .scalar }]
    let request : Request := { kind := .relu, inputs := [0], name := some "y" }
    let other : Request := { kind := .relu, inputs := [0, 7] }
    graph.Reachable ∧
      (∀ requirement : Requirement, requirement.Met registry true graph request) ∧
      (registry.create true request graph).graph.nodes.map Node.hostShape =
        [some [2, 3], some [2, 3]] ∧
      (registry.create true other graph).result.toOption = none ∧
      (registry.create true other graph).graph = graph ∧
      ∃ requirement : Requirement, requirement.FirstUnmet registry true graph other ∧
        requirement.Reports registry graph other (.wrongArity .relu 1 2) := by
  intro graph registry request other
  have hreachable : graph.Reachable := Builder.reachable_runAll .empty _
  obtain ⟨-, hgranted, -, -⟩ := create_grants_iff_met hreachable .empty
    [{ kind := .relu, arity := 1, rule := .preserve },
      { kind := .relu, arity := 2, rule := .scalar }]
    true request
  obtain ⟨-, -, -, hrefused⟩ := create_grants_iff_met hreachable .empty
    [{ kind := .relu, arity := 1, rule := .preserve },
      { kind := .relu, arity := 2, rule := .scalar }]
    true other
  obtain ⟨hsame, requirement, hfirst, hreports, -⟩ := hrefused (.wrongArity .relu 1 2) rfl
  exact ⟨hreachable, hgranted.1 ⟨1, rfl⟩, rfl, rfl, hsame, requirement, hfirst, hreports⟩

end ComputeGraph
