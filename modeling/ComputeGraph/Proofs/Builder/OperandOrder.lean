import ComputeGraph.Proofs.Builder.Effect
import ComputeGraph.Proofs.Graph.Requirements
import ComputeGraph.Proofs.Shape.CommonShape

/-!
# The order of operands

An operator whose output has the common shape of its operands finds that shape, leaves it open, or
refuses the operands. Which of these it does depends on their order, as the search for the common
shape ends at the first operand whose shape is unknown. A choice with operands that do not fit is
refused only if its first two operands have known shapes.

* **`Registry.append_strict_fails_iff`** — a request that brings everything but a shape;
* `Settings.resolveAll_exist` — operands that have become nodes are in the graph;
* **`Settings.cond_fails_iff`** — the choices that are refused;
* **`commonShape_agrees_iff`** — when the order does not matter.
-/

namespace ComputeGraph

open Extents OutputRule

/-- **Where shapes must be found**, a request that brings everything else is refused for its
arguments iff its shape cannot be found. -/
theorem Registry.append_strict_fails_iff {registry : Registry} {graph : Graph} {request : Request}
    {operator : Operator} (hoperator : registry.find? request.kind = some operator)
    (hvalid : operator.validate request = .ok ())
    (hinputs : ∀ id ∈ request.inputs, id < graph.size) :
    (∃ e, e.category = .validation ∧ (registry.append true graph request).result = .error e) ↔
      ∃ e, operator.inferShape request (graph.shapesOf request.inputs) = .error e := by
  obtain ⟨shapes, hshapes⟩ := Graph.exists_hostShapes_iff.2 hinputs
  obtain rfl := Graph.eq_shapesOf_of_hostShapes hshapes
  constructor
  · intro h
    obtain ⟨e, hcategory, he⟩ := h
    rcases append_eq_error he with ⟨hnone, -⟩ | ⟨operator', hoperator', herror⟩
    · cases hoperator.symm.trans hnone
    obtain rfl := Option.some.inj (hoperator.symm.trans hoperator')
    rcases herror with hinvalid | ⟨-, ⟨id, -, rfl⟩ | ⟨shapes, hshapes', herror⟩⟩
    · cases hvalid.symm.trans hinvalid
    · cases hcategory
    obtain rfl := Graph.eq_shapesOf_of_hostShapes hshapes'
    rcases herror with ⟨hinfer, -⟩ | ⟨-, name, -, -, rfl⟩
    · exact ⟨e, hinfer⟩
    · -- a name in use is not a matter of arguments
      cases hcategory
  · intro h
    obtain ⟨e, hinfer⟩ := h
    obtain ⟨left, right, rfl⟩ := Operator.inferShape_eq_error hinfer
    have hcategory : (Error.cannotBroadcast left right).category = .validation := rfl
    refine ⟨_, hcategory, Attempt.bind_eq_error.2 (.inr ⟨operator, get_eq_ok.2 hoperator, ?_⟩)⟩
    refine Attempt.bind_eq_error.2 (.inr ⟨(), hvalid, ?_⟩)
    refine Attempt.bind_eq_error.2 (.inr ⟨_, hshapes, ?_⟩)
    exact Attempt.bind_eq_error.2 (.inl (Attempt.shapeOrUnknown_eq_error.2 ⟨hinfer, rfl⟩))

/-! ### Operands that have become nodes -/

namespace Settings

variable {settings : Settings} {graph mid : Graph} {id : NodeId} {ids : List NodeId}

theorem resolve_exists {x : Operand} (h : (settings.resolve x).Yields graph id mid) :
    id < mid.size := by
  cases x with
  | node i =>
    obtain ⟨hresult, rfl⟩ := Build.yields_query.1 h
    obtain ⟨node, hnode, rfl⟩ := except_map_eq_ok.1 hresult
    exact Graph.lt_size_of_node? (Graph.get_eq_ok.1 hnode)
  | literal value =>
    obtain ⟨node, -, rfl, -, happends⟩ := constant_yields h
    have hid : node.id = graph.size := (List.cons.inj happends.2).1
    rw [hid, happends.size_eq]
    exact Nat.lt_succ_self _

theorem resolveAll_exist {operands : List Operand}
    (h : (settings.resolveAll operands).Yields graph ids mid) : ∀ id ∈ ids, id < mid.size := by
  induction operands generalizing graph ids with
  | nil =>
    cases h.1
    simp
  | cons x operands ih =>
    obtain ⟨id, next, hx, h⟩ := Build.yields_bind.1 h
    obtain ⟨rest, last, hrest, h⟩ := Build.yields_bind.1 h
    obtain ⟨hids, rfl⟩ : _ ∧ last = mid := h
    cases hids
    refine List.forall_mem_cons.2 ⟨?_, ih hrest⟩
    obtain ⟨constants, happends, -⟩ := resolveAll_yields hrest
    rw [happends.size_eq]
    exact Nat.lt_add_right _ (resolve_exists hx)

theorem length_of_resolveAll {operands : List Operand}
    (h : (settings.resolveAll operands).Yields graph ids mid) : ids.length = operands.length := by
  obtain ⟨constants, -, -, rfl⟩ := resolveAll_yields h
  exact length_operandIds _ _

/-! ### Choices -/

/-- The operands of a call that is not folded and not refused for its arguments alone are nodes, so
the call fails iff its request does. -/
theorem performStages_fails_iff {call : Call} {e : Error} {after : Graph}
    (hrefusal : call.refusal? = none)
    (h : (settings.resolveAll call.operands).Yields graph ids mid) :
    (settings.performStages call).Fails graph e after ↔
      (settings.ask fun graph => call.request settings.options.validateShapes graph ids).Fails
        mid e after := by
  unfold performStages
  rw [hrefusal]
  obtain ⟨hids, rfl⟩ := h
  obtain ⟨hresult, hgraph⟩ := Build.bind_of_ok (f := fun ids =>
    settings.ask fun graph => call.request settings.options.validateShapes graph ids) hids
  unfold Build.Fails
  rw [hresult, hgraph]

/-- **Choices** between operands that have become nodes are refused for their operands, where shapes
must be found, iff the shapes in front of the first unknown one do not fit. -/
theorem cond_fails_iff {flag x y : Operand} {name : Option String}
    (hfind : settings.registry.find? .cond = Registry.standard.find? .cond)
    (hstrict : settings.options.validateShapes = true)
    (h : (settings.resolveAll [flag, x, y]).Yields graph ids mid) :
    (∃ e, e.category = .validation ∧
        (settings.perform (.ternary .cond flag x y name)).Fails graph e mid) ↔
      ¬ Joinable (compared (mid.shapesOf ids)) := by
  obtain ⟨first, second, third, rfl⟩ := List.length_eq_three.1 (length_of_resolveAll h)
  let request := (TernaryOperator.cond.request first second third name).named settings.options mid
  have hinputs : request.inputs = [first, second, third] := Request.inputs_named _ _ _
  have hfails : ∀ e, (settings.perform (.ternary .cond flag x y name)).Fails graph e mid ↔
      (settings.registry.append true mid request).result = .error e := by
    intro e
    rw [perform_of_unfolded rfl, performStages_fails_iff rfl h, ← hstrict]
    exact Build.fails_change.trans (and_iff_left rfl)
  have hoperator : settings.registry.find? request.kind =
      some { kind := .cond, arity := 3, rule := .broadcast } := by
    rw [Request.kind_named]
    exact hfind
  simp only [hfails]
  rw [Registry.append_strict_fails_iff hoperator ((Request.validate_named ..).trans rfl)
    (hinputs ▸ resolveAll_exist h), hinputs,
    Operator.inferShape_of_eq_none (Request.hostShape_named _ _ _)]
  exact exists_infer_broadcast_error_iff

/-- A choice with operands of which the known ones do not fit. -/
theorem cond_fails_iff_of_not_joinable {flag x y : Operand} {name : Option String}
    (hfind : settings.registry.find? .cond = Registry.standard.find? .cond)
    (hstrict : settings.options.validateShapes = true)
    (h : (settings.resolveAll [flag, x, y]).Yields graph ids mid)
    (hfit : ¬ Joinable (mid.shapesOf ids).reduceOption) :
    (∃ e, e.category = .validation ∧
        (settings.perform (.ternary .cond flag x y name)).Fails graph e mid) ↔
      none ∉ (mid.shapesOf ids).take 2 := by
  rw [cond_fails_iff hfind hstrict h]
  have hlength : (mid.shapesOf ids).length = 3 := by
    rw [Graph.shapesOf, List.length_map]
    exact length_of_resolveAll h
  obtain ⟨first, second, third, hshapes⟩ := List.length_eq_three.1 hlength
  rw [hshapes] at hfit ⊢
  exact not_congr (joinable_compared_iff_of_three hfit)

end Settings

/-- **The order of operands.** Take an operator whose output has the common shape of its operands,
and a request that declares no shape. Two orders of the operands have the same outcome, which is a
shape, no shape or a refusal, iff the shapes in front of the first unknown one fit in both orders or
in neither. All orders have the same outcome iff no shape is unknown or the known ones fit. Where
shapes must be found, a choice with operands of which the known ones do not fit is refused iff the
shapes of its first two operands are known. -/
theorem commonShape_agrees_iff {operator : Operator} {request : Request}
    (hrule : operator.rule = .broadcast) (hshape : request.hostShape = none) :
    (∀ shapes shapes' : List (Option Extents), shapes.Perm shapes' →
      (AgreeUpTo Error.BothValidation Eq (operator.inferShape request shapes)
          (operator.inferShape request shapes') ↔
        (Joinable (compared shapes) ↔ Joinable (compared shapes')))) ∧
    (∀ shapes : List (Option Extents),
      (∀ shapes', shapes.Perm shapes' →
        AgreeUpTo Error.BothValidation Eq (operator.inferShape request shapes)
          (operator.inferShape request shapes')) ↔
      none ∉ shapes ∨ Joinable shapes.reduceOption) ∧
    ∀ (settings : Settings) (graph mid : Graph) (ids : List NodeId) (flag x y : Operand)
      (name : Option String),
      settings.registry.find? .cond = Registry.standard.find? .cond →
      settings.options.validateShapes = true →
      (settings.resolveAll [flag, x, y]).Yields graph ids mid →
      ¬ Joinable (mid.shapesOf ids).reduceOption →
      ((∃ e, e.category = .validation ∧
          (settings.perform (.ternary .cond flag x y name)).Fails graph e mid) ↔
        none ∉ (mid.shapesOf ids).take 2) := by
  have hinfer : ∀ shapes, operator.inferShape request shapes = infer .broadcast shapes := by
    intro shapes
    rw [Operator.inferShape_of_eq_none hshape, hrule]
  simp only [hinfer]
  refine ⟨fun shapes shapes' => infer_agree_iff, infer_agree_all_iff, ?_⟩
  intro settings graph mid ids flag x y name hfind hstrict h hfit
  exact Settings.cond_fails_iff_of_not_joinable hfind hstrict h hfit

/-- Two shapes that fit around an unknown one and in front of it, and a choice with two shapes that
do not fit in front of an unknown one. -/
theorem commonShape_agrees_iff_choice :
    let cond : Operator := { kind := .cond, arity := 3, rule := .broadcast }
    let request : Request := { kind := .cond, inputs := [0, 1, 2] }
    let builder := Builder.runAll {} [.declare .dynamicAxis none,
      .declare (.input (.dims [2]) none) none, .declare (.input (.dims [3]) none) none]
    cond.inferShape request [some [2, 1], none, some [3]] = .ok none ∧
      AgreeUpTo Error.BothValidation Eq
        (cond.inferShape request [some [2, 1], none, some [3]])
        (cond.inferShape request [some [2, 1], some [3], none]) ∧
      ∃ e, e.category = .validation ∧
        (builder.perform (.ternary .cond (.node 1) (.node 2) (.node 0) none)).Fails
          builder.graph e builder.graph := by
  intro cond request builder
  have hrule : cond.rule = .broadcast := rfl
  have hshape : request.hostShape = none := rfl
  obtain ⟨-, hall, hcond⟩ := commonShape_agrees_iff hrule hshape
  have hfit : Joinable (List.reduceOption [some [2, 1], none, some [3]]) :=
    exists_foldlM_broadcast_iff.1 ⟨[2, 3], rfl⟩
  have hunfit : ¬ Joinable [[2], [3]] := by
    rw [← exists_foldlM_broadcast_iff]
    rintro ⟨shape, h⟩
    cases h
  refine ⟨rfl, (hall _).2 (.inr hfit) _ (.cons _ (.swap _ _ _)), ?_⟩
  refine (hcond builder.toSettings builder.graph builder.graph [1, 2, 0] (.node 1) (.node 2)
    (.node 0) none rfl rfl ⟨rfl, rfl⟩ hunfit).2 ?_
  decide

/-- The same operands in two orders: behind the unknown shape the two others go unseen, and in front
of it they are refused. -/
theorem commonShape_order_disagrees :
    let cond : Operator := { kind := .cond, arity := 3, rule := .broadcast }
    let request : Request := { kind := .cond, inputs := [0, 1, 2] }
    let builder := Builder.runAll {} [.declare .dynamicAxis none,
      .declare (.input (.dims [2]) none) none, .declare (.input (.dims [3]) none) none]
    cond.inferShape request [none, some [2], some [3]] = .ok none ∧
      cond.inferShape request [some [2], some [3], none] = .error (.cannotBroadcast [2] [3]) ∧
      ¬ (∀ shapes shapes' : List (Option Extents), shapes.Perm shapes' →
        AgreeUpTo Error.BothValidation Eq (cond.inferShape request shapes)
          (cond.inferShape request shapes')) ∧
      (builder.outcome (.ternary .cond (.node 0) (.node 1) (.node 2) none)).result = .ok 3 ∧
      (builder.outcome (.ternary .cond (.node 1) (.node 2) (.node 0) none)).result =
        .error (.cannotBroadcast [2] [3]) := by
  intro cond request builder
  refine ⟨rfl, rfl, fun h => ?_, rfl, rfl⟩
  exact h [none, some [2], some [3]] [some [2], some [3], none] (by decide)

end ComputeGraph
