import ComputeGraph.Proofs.Builder.Completeness
import ComputeGraph.Proofs.Builder.Names

/-!
# Names that callers give

A builder looks for a fresh name among the names of the nodes that are there. The constants that it
makes for the literal operands of a call are there before the node of the call, so one of them may
get the very name that the call gives, and then the call is refused for a name that no node had
before.

* `Call.withName` — a call under another name;
* **`Settings.add_eq_nameInUse`** — a request is refused for its name iff it has one that is in use,
  and would be granted without;
* **`Settings.hasName_of_resolveAll`** — the names in use once operands are nodes;
* **`nameInUse_iff_generated`** — the calls that are refused for a name that was free.
-/

namespace ComputeGraph

/-! ### Other names -/

/-- A request under another name, or without one. -/
def Request.withName (name : Option String) (request : Request) : Request :=
  { request with name }

/-- A call under another name, or without one. -/
def Call.withName (name : Option String) : Call → Call
  | .declare declaration _ => .declare declaration name
  | .unary operator x _ => .unary operator x name
  | .binary operator left right _ => .binary operator left right name
  | .ternary operator first second third _ => .ternary operator first second third name
  | .add request => .add (request.withName name)

theorem Call.operands_withName (name : Option String) (call : Call) :
    (call.withName name).operands = call.operands := by
  cases call <;> rfl

theorem Call.refusal?_withName (name : Option String) (call : Call) :
    (call.withName name).refusal? = call.refusal? := by
  cases call <;> rfl

theorem Settings.foldedCall?_withName (settings : Settings) (name : Option String) (call : Call) :
    settings.foldedCall? (call.withName name) = settings.foldedCall? call := by
  cases call <;> rfl

section Requests

variable (strict : Bool) (graph : Graph) (name name' : Option String)

theorem Declaration.request_withName (declaration : Declaration) :
    (declaration.request graph name').result =
      (declaration.request graph name).result.map (Request.withName name') := by
  cases declaration with
  | input | sparseInput | inputForSamples =>
    simp only [Declaration.request, requestInput, Attempt.result_bind, except_map_bind]
    rfl
  | dynamicAxis => rfl
  | parameter spec =>
    unfold Declaration.request requestParameter
    dsimp only
    split
    · rfl
    · simp only [requestUninitialised_eq]
      rfl
    · simp only [Attempt.result_bind, except_map_bind]
      split
      · rfl
      · simp only [requestInitialised, Attempt.result_bind, except_map_bind]
        rfl

theorem UnaryOperator.request_withName (operator : UnaryOperator) (x : NodeId) :
    (operator.request strict graph x name').result =
      (operator.request strict graph x name).result.map (Request.withName name') := by
  cases operator with
  | reshape target =>
    simp only [request, requestReshape, Attempt.result_bind, except_map_bind]
    rfl
  | transpose axis1 axis2 =>
    simp only [request, requestTranspose, Attempt.result_bind, except_map_bind]
    rfl
  | slice start stop axis =>
    simp only [request, requestSlice, Attempt.result_bind, except_map_bind]
    rfl
  | _ => rfl

theorem BinaryOperator.request_withName (operator : BinaryOperator) (left right : NodeId) :
    (operator.request strict graph left right name').result =
      (operator.request strict graph left right name).result.map (Request.withName name') := by
  cases operator with
  | combine combination => rfl
  | times outputRank =>
    simp only [request, requestTimes, Attempt.result_bind, except_map_bind]
    rfl

/-- **The request of a call** under another name is the same but for the name. -/
theorem Call.request_withName (call : Call) (ids : List NodeId) :
    ((call.withName name).request strict graph ids).result =
      (call.request strict graph ids).result.map (Request.withName name) := by
  cases call with
  | declare declaration name' => exact declaration.request_withName graph name' name
  | add request => rfl
  | unary operator x name' =>
    match ids with
    | [] => rfl
    | [i] => exact operator.request_withName strict graph name' name i
    | _ :: _ :: _ => rfl
  | binary operator left right name' =>
    match ids with
    | [] => rfl
    | [_] => rfl
    | [i, j] => exact operator.request_withName strict graph name' name i j
    | _ :: _ :: _ :: _ => rfl
  | ternary operator first second third name' =>
    match ids with
    | [] => rfl
    | [_] => rfl
    | [_, _] => rfl
    | [_, _, _] => rfl
    | _ :: _ :: _ :: _ :: _ => rfl

end Requests

/-! ### Requests that are refused for their names -/

namespace Registry

variable {registry : Registry} {strict : Bool} {graph : Graph} {request : Request}

/-- Whether a request is granted depends on its name only as far as the name has to be free. -/
theorem append_withName {name name' : Option String} {r : NodeId × Graph}
    (h : (registry.append strict graph (request.withName name)).result = .ok r)
    (hfree : graph.IsFree name') :
    ∃ r', (registry.append strict graph (request.withName name')).result = .ok r' := by
  obtain ⟨id, after⟩ := r
  obtain ⟨operator, shapes, shape, hoperator, hvalid, hshapes, hshape, -, -, -⟩ := append_eq_ok.1 h
  exact ⟨_, append_eq_ok.2
    ⟨operator, shapes, shape, hoperator, hvalid, hshapes, hshape, hfree, rfl, rfl⟩⟩

/-- A request is refused for its name iff the name is in use and all else is in order. -/
theorem append_eq_nameInUse {used : String} :
    (registry.append strict graph request).result = .error (.nameInUse used) ↔
      request.name = some used ∧ graph.hasName used = true ∧
        ∃ r, (registry.append strict graph (request.withName none)).result = .ok r := by
  constructor
  · intro h
    rcases Attempt.bind_eq_error.1 h with h | ⟨operator, hoperator, h⟩
    · cases (get_eq_error.1 h).2
    rcases Attempt.bind_eq_error.1 h with h | ⟨⟨⟩, hvalid, h⟩
    · rcases Operator.validate_eq_error.1 h with ⟨-, h⟩ | ⟨-, ⟨-, h⟩ | ⟨-, key, -, h⟩⟩ <;> cases h
    rcases Attempt.bind_eq_error.1 h with h | ⟨shapes, hshapes, h⟩
    · obtain ⟨id, -, h⟩ := Graph.hostShapes_eq_error.1 h
      cases h
    rw [Attempt.result_lift] at hshapes
    rcases Attempt.bind_eq_error.1 h with h | ⟨shape, hshape, h⟩
    · obtain ⟨left, right, h⟩ :=
        Operator.inferShape_eq_error (Attempt.shapeOrUnknown_eq_error.1 h).1
      cases h
    rcases Attempt.bind_eq_error.1 h with h | ⟨pushed, -, h⟩
    · obtain ⟨name, hname, hused, h⟩ :=
        (Graph.push_eq_error rfl (Graph.lt_size_of_hostShapes hshapes)).1 h
      cases h
      have hfree := graph.isFree_none
      exact ⟨hname, hused, _, append_eq_ok.2 ⟨operator, shapes, shape, get_eq_ok.1 hoperator,
        hvalid, hshapes, Attempt.shapeOrUnknown_eq_ok.1 hshape, hfree, rfl, rfl⟩⟩
    · rw [Attempt.result_record_bind] at h
      cases h
  · intro h
    obtain ⟨hname, hused, ⟨id, after⟩, h⟩ := h
    obtain ⟨operator, shapes, shape, hoperator, hvalid, hshapes, hshape, -, -, -⟩ :=
      append_eq_ok.1 h
    have hpush : graph.push (request.toNode graph shape) = .error (.nameInUse used) :=
      (Graph.push_eq_error rfl (Graph.lt_size_of_hostShapes hshapes)).2 ⟨used, hname, hused, rfl⟩
    refine Attempt.bind_eq_error.2 (.inr ⟨operator, get_eq_ok.2 hoperator, ?_⟩)
    refine Attempt.bind_eq_error.2 (.inr ⟨(), hvalid, ?_⟩)
    refine Attempt.bind_eq_error.2 (.inr ⟨shapes, hshapes, ?_⟩)
    refine Attempt.bind_eq_error.2 (.inr ⟨shape, Attempt.shapeOrUnknown_eq_ok.2 hshape, ?_⟩)
    exact Attempt.bind_eq_error.2 (.inl hpush)

end Registry

namespace Settings

variable {settings : Settings} {graph mid after : Graph} {used : String}

theorem add_result (settings : Settings) (request : Request) (graph : Graph) :
    (settings.add request graph).result =
      (settings.registry.append settings.options.validateShapes graph
        (request.named settings.options graph)).result.map Prod.fst := by
  show (Build.change _ graph).result = _
  unfold Build.change
  cases (settings.registry.append settings.options.validateShapes graph
    (request.named settings.options graph)).result <;> rfl

/-- A request without a name is granted whether it gets a name or not. -/
theorem add_unnamed_eq_ok {request : Request} :
    (∃ id, (settings.add (request.withName none) graph).result = .ok id) ↔
      ∃ r, (settings.registry.append settings.options.validateShapes graph
        (request.withName none)).result = .ok r := by
  let name := ((request.withName none).named settings.options graph).name
  have hfree : graph.IsFree name := graph.isFree_named rfl settings.options
  have hnamed : (request.withName none).named settings.options graph = request.withName name :=
    Request.named_eq _ _ _
  rw [add_result, hnamed]
  constructor
  · intro h
    obtain ⟨id, h⟩ := h
    obtain ⟨r, h, -⟩ := except_map_eq_ok.1 h
    exact Registry.append_withName h fun _ h => nomatch h
  · intro h
    obtain ⟨r, h⟩ := h
    obtain ⟨r', h⟩ := Registry.append_withName h hfree
    exact ⟨r'.1, except_map_eq_ok.2 ⟨r', h, rfl⟩⟩

/-- **A request is refused for its name** iff it has one that is in use, and would be granted
without. -/
theorem add_eq_nameInUse {request : Request} :
    (settings.add request graph).result = .error (.nameInUse used) ↔
      request.name = some used ∧ graph.hasName used = true ∧
        ∃ id, (settings.add (request.withName none) graph).result = .ok id := by
  rw [add_result, except_map_eq_error, Registry.append_eq_nameInUse, add_unnamed_eq_ok]
  cases hname : request.name with
  | none =>
    constructor
    · intro h
      obtain ⟨hname', hused, -⟩ := h
      rw [graph.isFree_named hname settings.options used hname'] at hused
      cases hused
    · intro h
      cases h.1
  | some name => rw [Request.named_of_name hname, hname]

/-! ### Names of constants -/

/-- A constant without a name gets the fresh one, if names begin with something. -/
theorem constant_unnamed_yields {value : Tensor} {id : NodeId}
    (h : (settings.constant value none).Yields graph id after) :
    ∃ node, node.name = settings.options.namePrefix.map graph.freshName ∧
      after = graph.snoc node := by
  obtain ⟨request, mid, hquery, hadd⟩ := Build.yields_bind.1 h
  obtain ⟨hrequest, rfl⟩ := Build.yields_query.1 hquery
  obtain ⟨-, hname, -⟩ := declaration_says hrequest
  obtain ⟨node, hgrants, -, rfl⟩ := add_yields_iff.1 hadd
  obtain ⟨operator, shapes, shape, -, -, -, -, rfl⟩ := eq_toNode_of_grants hgrants
  refine ⟨_, ?_, rfl⟩
  show (request.named settings.options graph).name = _
  unfold Request.named
  rw [hname]
  cases settings.options.namePrefix with
  | none => exact hname
  | some stem => rfl

/-- **The names in use once operands are nodes** are those that were in use, and those that are
generated for the tensors among them. -/
theorem hasName_of_resolveAll {operands : List Operand} {ids : List NodeId}
    (h : (settings.resolveAll operands).Yields graph ids after) (name : String) :
    after.hasName name = true ↔ graph.hasName name = true ∨
      ∃ stem, settings.options.namePrefix = some stem ∧
        graph.Generates stem (operands.filterMap Operand.literal?).length name := by
  induction operands generalizing graph ids with
  | nil =>
    obtain ⟨-, rfl⟩ := h
    refine ⟨.inl, fun h => h.elim id fun h => ?_⟩
    obtain ⟨stem, -, m, -, -, hcount⟩ := h
    exact absurd hcount (Nat.not_lt_zero _)
  | cons x operands ih =>
    obtain ⟨id, mid, hx, h⟩ := Build.yields_bind.1 h
    obtain ⟨rest, mid', hrest, h⟩ := Build.yields_bind.1 h
    obtain ⟨-, rfl⟩ := h
    cases x with
    | node i =>
      obtain ⟨-, rfl⟩ := Build.yields_query.1 hx
      exact ih hrest
    | literal value =>
      obtain ⟨node, hnode, rfl⟩ := constant_unnamed_yields hx
      rw [ih hrest, Graph.hasName_snoc, Bool.or_eq_true, decide_eq_true_iff, hnode]
      show _ ↔ _ ∨ ∃ stem, _ ∧ graph.Generates stem ((operands.filterMap _).length + 1) name
      cases hstem : settings.options.namePrefix with
      | none => simp
      | some stem =>
        rw [hstem] at hnode
        simp only [Option.map_some, Option.some.injEq, exists_eq_left',
          Graph.generates_succ hnode]
        rw [eq_comm, or_assoc, or_left_comm]

/-! ### Calls -/

theorem ask_of_ok {f : Graph → Attempt Request} {request : Request}
    (h : (f graph).result = .ok request) :
    (settings.ask f graph).result = (settings.add request graph).result :=
  (Build.bind_of_ok (x := Build.query f) (f := settings.add) h).1

theorem ask_of_error {f : Graph → Attempt Request} {e : Error} (h : (f graph).result = .error e) :
    (settings.ask f graph).result = .error e :=
  (Build.bind_of_error (x := Build.query f) (f := settings.add) h).1

/-- A call whose operands are nodes is refused for its name iff that is in use, and the call would
succeed without. -/
theorem ask_eq_nameInUse (call : Call) (ids : List NodeId) :
    (settings.ask (fun graph => call.request settings.options.validateShapes graph ids)
        graph).result = .error (.nameInUse used) ↔
      call.name = some used ∧ graph.hasName used = true ∧
        ∃ id, (settings.ask (fun graph => (call.withName none).request
          settings.options.validateShapes graph ids) graph).result = .ok id := by
  have hunnamed := call.request_withName settings.options.validateShapes graph none ids
  cases hrequest : (call.request settings.options.validateShapes graph ids).result with
  | error e =>
    rw [hrequest] at hunnamed
    rw [ask_of_error hrequest, ask_of_error hunnamed]
    constructor
    · intro h
      cases h
      exact absurd trivial (call.request_fails _ _ _ _ hrequest).1
    · intro h
      obtain ⟨-, -, id, h⟩ := h
      cases h
  | ok request =>
    rw [hrequest] at hunnamed
    obtain ⟨-, hname, -⟩ := Call.request_says hrequest
    rw [ask_of_ok hrequest, ask_of_ok hunnamed, ← hname]
    exact add_eq_nameInUse

theorem constant_refused {value : Tensor} {name : Option String}
    (h : (settings.constant value name graph).result = .error (.nameInUse used)) :
    name = some used ∧ graph.hasName used = true := by
  obtain ⟨hname, hin, -⟩ :=
    (ask_eq_nameInUse (.declare (.parameter (.constant value)) name) []).1 h
  exact ⟨hname, hin⟩

theorem resolveAll_of_performStages {call : Call} {id : NodeId}
    (h : (settings.performStages call).Yields graph id after) :
    ∃ ids, (settings.resolveAll call.operands).Yields graph ids
      (settings.resolveAll call.operands graph).graph := by
  unfold performStages at h
  split at h
  · cases h.1
  · obtain ⟨ids, mid, ⟨hids, -⟩, -⟩ := Build.yields_bind.1 h
    exact ⟨ids, hids, rfl⟩

/-- **A call that is not folded** is refused for its name iff that is in use once its operands are
nodes, and the call would succeed without. -/
theorem performStages_eq_nameInUse (call : Call) :
    (settings.performStages call graph).result = .error (.nameInUse used) ↔
      call.name = some used ∧
        (settings.resolveAll call.operands graph).graph.hasName used = true ∧
        ∃ id, (settings.performStages (call.withName none) graph).result = .ok id := by
  unfold performStages
  rw [call.refusal?_withName, call.operands_withName]
  cases hrefusal : call.refusal? with
  | some e =>
    obtain ⟨kind, rfl⟩ := Call.exists_of_refusal?_eq_some hrefusal
    constructor
    · intro h
      cases h
    · intro h
      obtain ⟨-, -, id, h⟩ := h
      cases h
  | none =>
    dsimp only
    cases hids : ((settings.resolveAll call.operands) graph).result with
    | error e =>
      rw [(Build.bind_of_error hids).1, (Build.bind_of_error hids).1]
      constructor
      · intro h
        cases h
        rcases resolveAll_error ⟨hids, rfl⟩ with ⟨i, h⟩ | ⟨value, mid, h⟩
        · cases h
        · cases (constant_refused h.1).1
      · intro h
        obtain ⟨-, -, id, h⟩ := h
        cases h
    | ok ids =>
      rw [(Build.bind_of_ok hids).1, (Build.bind_of_ok hids).1]
      exact ask_eq_nameInUse call ids

end Settings

/-- **Names that callers give.** A call that gives a name that no node has is refused for a name in
use iff a prefix for names is set and the name is one of those that are generated for the literal
operands of the call, and the call would succeed without a name. A call that is folded makes no
constants but its own node, and is never refused for a free name. -/
theorem nameInUse_iff_generated {builder : Builder} (hreachable : builder.graph.Reachable)
    {call : Call} {name : String} (hname : call.name = some name)
    (hfree : ∀ node ∈ builder.graph.nodes, node.name ≠ some name) (used : String) :
    (builder.outcome call).result = .error (.nameInUse used) ↔
      used = name ∧ builder.foldedCall? call = none ∧
        (∃ stem, builder.options.namePrefix = some stem ∧
          builder.graph.Generates stem call.literals.length name) ∧
        builder.Succeeds (call.withName none) := by
  have hnew : builder.graph.hasName name = false :=
    hreachable.wellFormed.hasName_eq_false.2 hfree
  unfold Builder.Succeeds Builder.outcome
  cases hfold : builder.foldedCall? call with
  | some folded =>
    rw [(Settings.perform_of_folded hfold builder.graph).2]
    constructor
    · intro h
      obtain ⟨hused, hin⟩ := Settings.constant_refused h
      rw [← Option.some.inj (hname.symm.trans hused), hnew] at hin
      cases hin
    · intro h
      cases h.2.1
  | none =>
    have hunnamed : builder.foldedCall? (call.withName none) = none :=
      (builder.foldedCall?_withName none call).trans hfold
    rw [Settings.perform_of_unfolded hfold, Settings.perform_of_unfolded hunnamed,
      Settings.performStages_eq_nameInUse]
    constructor
    · intro h
      obtain ⟨hused, hin, id, hid⟩ := h
      obtain rfl := Option.some.inj (hname.symm.trans hused)
      obtain ⟨ids, hids⟩ := Settings.resolveAll_of_performStages ⟨hid, rfl⟩
      rw [call.operands_withName] at hids
      rcases (Settings.hasName_of_resolveAll hids name).1 hin with hin | hgenerated
      · rw [hnew] at hin
        cases hin
      · exact ⟨rfl, rfl, hgenerated, id, hid⟩
    · intro h
      obtain ⟨rfl, -, hgenerated, id, hid⟩ := h
      obtain ⟨ids, hids⟩ := Settings.resolveAll_of_performStages ⟨hid, rfl⟩
      rw [call.operands_withName] at hids
      exact ⟨hname, (Settings.hasName_of_resolveAll hids used).2 (.inr hgenerated), id, hid⟩

/-- With a node named `n2`, the constants of a sum of two literals are named `n1` and `n3`. So the
name `n3` is refused for the sum, and the name `n4` is not. -/
theorem nameInUse_iff_generated_sum :
    let builder := Builder.runAll { options := { namePrefix := some "n" } }
      [.declare (.input (.dims [2]) none) (some "n2")]
    let sum (name : String) : Call :=
      .binary (.combine .plus) (.literal (.fill [2] 1)) (.literal (.fill [2] 2)) (some name)
    (∀ node ∈ builder.graph.nodes, node.name ≠ some "n3" ∧ node.name ≠ some "n4") ∧
      (builder.outcome (sum "n3")).result = .error (.nameInUse "n3") ∧
      ∀ used, (builder.outcome (sum "n4")).result ≠ .error (.nameInUse used) := by
  intro builder sum
  have hreachable : builder.graph.Reachable := Builder.reachable_runAll .empty _
  have hfree : ∀ node ∈ builder.graph.nodes, node.name ≠ some "n3" ∧ node.name ≠ some "n4" := by
    decide +kernel
  refine ⟨hfree, ?_, fun used h => ?_⟩
  · refine (nameInUse_iff_generated hreachable rfl (fun node hnode => (hfree node hnode).1) "n3").2
      ⟨rfl, rfl, ⟨"n", rfl, 3, ?_⟩, ?_⟩
    · decide +kernel
    · decide +kernel
  · obtain ⟨-, -, ⟨stem, hstem, m, hm, -, hcount⟩, -⟩ := (nameInUse_iff_generated hreachable rfl
      (fun node hnode => (hfree node hnode).2) used).1 h
    obtain rfl : "n" = stem := Option.some.inj hstem
    have hm : numbered "n" 4 = numbered "n" m := hm
    obtain rfl := numbered_inj.1 hm
    exact absurd hcount (by decide +kernel)

/-- The name `n0` is free, and refused for a function of a literal: the constant has it by then. -/
theorem free_name_refused :
    let builder : Builder := { options := { namePrefix := some "n" } }
    let call : Call := .unary (.apply .relu) (.literal (.fill [1] 1)) (some "n0")
    builder.graph.Reachable ∧ call.name = some "n0" ∧
      (∀ node ∈ builder.graph.nodes, node.name ≠ some "n0") ∧
      (builder.outcome call).result = .error (.nameInUse "n0") ∧
      (builder.run call).graph.nodes.map Node.name = [some "n0"] := by
  intro builder call
  have hnone : ∀ node ∈ builder.graph.nodes, node.name ≠ some "n0" := fun _ h => nomatch h
  have hconstant : (builder.resolveAll call.operands builder.graph).graph.hasName "n0" = true := by
    decide +kernel
  have hgranted : builder.Succeeds (call.withName none) := by decide +kernel
  have hrefused : (builder.outcome call).result = .error (.nameInUse "n0") :=
    (Settings.performStages_eq_nameInUse call).2 ⟨rfl, hconstant, hgranted⟩
  exact ⟨.empty, rfl, hnone, hrefused, by decide +kernel⟩

end ComputeGraph
