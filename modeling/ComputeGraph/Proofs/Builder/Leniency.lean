import ComputeGraph.Proofs.Builder.Effect
import ComputeGraph.Proofs.Graph.WellFormed

/-!
# Strict and lenient builders

A lenient builder leaves the shape of a node open where a strict one refuses the node because the
shapes of its operands do not fit. This is all that the two differ in: what the strict builder does,
the lenient one does too, and where the strict one alone fails, the lenient one has one more node,
whose shape is unknown.

* `Outcome.Forgets` — how the outcome of a call under lenient options follows from the strict one;
* `Kind.MayStayOpen` — the kinds of nodes that a lenient builder leaves open;
* `Call.request_forgets`, `Registry.append_forgets` — the two places where shapes are refused;
* **`Settings.perform_forgets`** — every call;
* **`lenient_forgets`** — every call, and every run in which the strict builder succeeds.
-/

namespace ComputeGraph

namespace Options

/-- The standard operators under options that are strict or lenient about shapes. -/
def settings (options : Options) (strict : Bool) : Settings :=
  { options := { options with validateShapes := strict } }

/-- A builder with the standard operators that is strict or lenient about shapes. -/
def builder (options : Options) (strict : Bool) (graph : Graph) : Builder :=
  { toSettings := options.settings strict, graph }

end Options

/-! ### Shapes that do not fit -/

/-- The shape of a node of the kind is the common shape of its operands. -/
def Kind.Broadcasts (kind : Kind) : Prop :=
  (Registry.standard.find? kind).map Operator.rule = some .broadcast

/-- The shape of a node of the kind may not exist for given operands. -/
def Kind.MayStayOpen (kind : Kind) : Prop :=
  kind = .times ∨ kind = .reshape ∨ kind.Broadcasts

/-- A shape is found whatever the operands, unless it is their common shape. -/
theorem Operator.inferShape_ne_error {operator : Operator} {request : Request}
    (h : request.hostShape = none → operator.rule ≠ .broadcast) (shapes : List (Option Extents))
    (e : Error) : operator.inferShape request shapes ≠ .error e := by
  intro herror
  cases hshape : request.hostShape with
  | some shape =>
    rw [inferShape_of_eq_some hshape] at herror
    cases herror
  | none =>
    rw [inferShape_of_eq_none hshape] at herror
    have hrule := h hshape
    cases hr : operator.rule with
    | broadcast => exact hrule hr
    | _ =>
      rw [hr] at herror
      cases herror

/-! ### Attempts -/

/-- A strict attempt and a lenient one. They have the same result, or the strict one refuses a shape
and what the lenient one makes, if it makes something, leaves that shape open. -/
def Attempt.Forgets {α : Type} (leavesOpen : α → Prop) (strict lenient : Attempt α) : Prop :=
  strict.result = lenient.result ∨
    ∃ e, strict.result = .error e ∧ e.category = .validation ∧
      ∀ a, lenient.result = .ok a → leavesOpen a

namespace Attempt.Forgets

variable {α β : Type} {leavesOpen : β → Prop}

theorem refl (x : Attempt β) : Forgets leavesOpen x x :=
  .inl rfl

/-- What is done before is the same for both. -/
theorem bind {x : Attempt α} {strict lenient : α → Attempt β}
    (h : ∀ a, x.result = .ok a → Forgets leavesOpen (strict a) (lenient a)) :
    Forgets leavesOpen (x >>= strict) (x >>= lenient) := by
  unfold Forgets
  rw [result_bind, result_bind]
  cases hx : x.result with
  | error e => exact .inl rfl
  | ok a => exact h a hx

/-- A shape that cannot be found is refused or left open. -/
theorem shapeOrUnknown {output : String} {found : Except Error (Option Extents)}
    {f : Option Extents → Attempt β} (hfound : ∀ e, found = .error e → e.category = .validation)
    (hnone : ∀ e, found = .error e → ∀ b, (f none).result = .ok b → leavesOpen b) :
    Forgets leavesOpen (Attempt.shapeOrUnknown true output found >>= f)
      (Attempt.shapeOrUnknown false output found >>= f) := by
  cases hshape : found with
  | ok shape => exact refl _
  | error e => exact .inr ⟨e, rfl, hfound e hshape, hnone e hshape⟩

end Attempt.Forgets

/-! ### Requests -/

/-- A request that leaves open a shape that only a request can say. -/
def Request.LeavesOpen (request : Request) : Prop :=
  request.hostShape = none ∧ (request.kind = .times ∨ request.kind = .reshape)

theorem requestReshape_forgets (graph : Graph) (target : Shape) (x : NodeId)
    (name : Option String) :
    Attempt.Forgets Request.LeavesOpen (requestReshape true graph target x name)
      (requestReshape false graph target x name) := by
  refine .bind fun node _ =>
    .shapeOrUnknown (fun e he => (Extents.reshape_eq_error he).category_eq) ?_
  intro e _ request hrequest
  cases hrequest
  exact ⟨rfl, .inr rfl⟩

theorem requestTimes_forgets (graph : Graph) (outputRank : Nat) (left right : NodeId)
    (name : Option String) :
    Attempt.Forgets Request.LeavesOpen (requestTimes true graph outputRank left right name)
      (requestTimes false graph outputRank left right name) := by
  refine .bind fun leftShape _ => .bind fun engineRank _ => .bind fun rightNode _ => ?_
  refine .shapeOrUnknown (fun e he => (productShape_eq_error he).category_eq) ?_
  intro e _ request hrequest
  cases hrequest
  exact ⟨rfl, .inl rfl⟩

/-- **Requests.** A request that is made under strict options is made under lenient ones. One that
is made under lenient ones only leaves the shape of a product or of a reshape open. -/
theorem Call.request_forgets (call : Call) (graph : Graph) (ids : List NodeId) :
    Attempt.Forgets Request.LeavesOpen (call.request true graph ids)
      (call.request false graph ids) := by
  unfold Call.request
  split
  · exact .refl _
  · rename_i operator _ name x
    cases operator with
    | reshape target => exact requestReshape_forgets graph target x name
    | _ => exact .refl _
  · rename_i operator _ _ name left right
    cases operator with
    | combine combination => exact .refl _
    | times outputRank => exact requestTimes_forgets graph outputRank left right name
  · exact .refl _
  · exact .refl _
  · exact .refl _

/-! ### Nodes -/

/-- The result is a node that is appended to the graph, of a kind that may stay open, whose shape is
unknown. -/
def Graph.LeavesOpen (graph : Graph) (id : NodeId) (after : Graph) : Prop :=
  ∃ node, node.id = id ∧ after = graph.snoc node ∧ node.kind.MayStayOpen ∧ node.hostShape = none

/-- A request whose shape cannot be refused is treated in the same way under all options. -/
theorem Registry.append_strict_eq {request : Request}
    (h : request.hostShape = none → ¬ request.kind.Broadcasts) (graph : Graph) :
    Registry.standard.append true graph request = Registry.standard.append false graph request := by
  refine Attempt.bind_congr fun operator hoperator => Attempt.bind_congr fun _ _ =>
    Attempt.bind_congr fun shapes _ => ?_
  have hrule : request.hostShape = none → operator.rule ≠ .broadcast := by
    intro hnone hrule
    refine h hnone ?_
    unfold Kind.Broadcasts
    rw [get_eq_ok.1 hoperator, Option.map_some, hrule]
  cases hshape : operator.inferShape request shapes with
  | ok shape => rfl
  | error e => exact absurd hshape (Operator.inferShape_ne_error hrule shapes e)

/-- **Nodes.** A request that is granted under strict options is granted under lenient ones. One
that is granted under lenient ones only makes a node whose shape is unknown. -/
theorem Registry.append_forgets (graph : Graph) (request : Request) :
    Attempt.Forgets (fun r : NodeId × Graph => graph.LeavesOpen r.1 r.2)
      (Registry.standard.append true graph request)
      (Registry.standard.append false graph request) := by
  refine .bind fun operator hoperator => .bind fun _ hvalid => .bind fun shapes _ => ?_
  refine .shapeOrUnknown ?_ ?_
  · intro e he
    obtain ⟨left, right, rfl⟩ := Operator.inferShape_eq_error he
    rfl
  · intro e he r hr
    obtain ⟨after, hpush, hr⟩ := Attempt.bind_eq_ok.1 hr
    rw [Attempt.result_record_bind] at hr
    obtain ⟨-, -, -, rfl⟩ := Graph.push_eq_ok.1 hpush
    cases hr
    refine ⟨request.toNode graph none, rfl, rfl, .inr (.inr ?_), rfl⟩
    show request.kind.Broadcasts
    -- only a common shape is refused
    by_contra hnot
    refine Operator.inferShape_ne_error (fun _ hrule => hnot ?_) shapes e he
    unfold Kind.Broadcasts
    rw [get_eq_ok.1 hoperator, Option.map_some, hrule]

/-! ### Calls -/

/-- A strict outcome and a lenient one. They are the same, or the strict one refuses a shape and the
lenient one fails with the same graph or has one more node, which leaves that shape open. -/
def Outcome.Forgets (strict lenient : Outcome NodeId) : Prop :=
  (strict.result = lenient.result ∧ strict.graph = lenient.graph) ∨
    ∃ e, strict.result = .error e ∧ e.category = .validation ∧
      match lenient.result with
      | .ok id => strict.graph.LeavesOpen id lenient.graph
      | .error _ => lenient.graph = strict.graph

/-- What is done before is the same for both. -/
theorem Outcome.Forgets.bind {α : Type} {x : Build α} {strict lenient : α → Build NodeId}
    {graph : Graph} (h : ∀ a, (x graph).result = .ok a →
      Forgets (strict a (x graph).graph) (lenient a (x graph).graph)) :
    Forgets ((x >>= strict) graph) ((x >>= lenient) graph) := by
  cases hx : (x graph).result with
  | error e =>
    obtain ⟨h1, h2⟩ := Build.bind_of_error (f := strict) hx
    obtain ⟨h3, h4⟩ := Build.bind_of_error (f := lenient) hx
    exact .inl ⟨h1.trans h3.symm, h2.trans h4.symm⟩
  | ok a =>
    obtain ⟨h1, h2⟩ := Build.bind_of_ok (f := strict) hx
    obtain ⟨h3, h4⟩ := Build.bind_of_ok (f := lenient) hx
    unfold Forgets
    rw [h1, h2, h3, h4]
    exact h a hx

namespace Settings

variable (options : Options)

/-- A request whose shape cannot be refused has the same effect under all options. -/
theorem add_strict_eq {request : Request}
    (h : request.hostShape = none → ¬ request.kind.Broadcasts) (graph : Graph) :
    (options.settings true).add request graph = (options.settings false).add request graph := by
  have hnamed : (request.named options graph).hostShape = none →
      ¬ (request.named options graph).kind.Broadcasts := by
    rw [Request.named_eq]
    exact h
  exact Build.change_congr (Registry.append_strict_eq hnamed graph)

theorem constant_strict_eq (value : Tensor) (name : Option String) :
    (options.settings true).constant value name = (options.settings false).constant value name := by
  refine Build.bind_congr fun graph request hrequest => ?_
  have hrequest : ((Declaration.parameter (.constant value)).request graph name).result =
      .ok request := hrequest
  obtain ⟨literal, -, rfl⟩ := constant_request_eq_ok.1 hrequest
  refine add_strict_eq options (fun hnone => ?_) _
  cases hnone

theorem resolveAll_strict_eq (operands : List Operand) :
    (options.settings true).resolveAll operands = (options.settings false).resolveAll operands := by
  have hresolve : ∀ x, (options.settings true).resolve x = (options.settings false).resolve x := by
    intro x
    cases x with
    | node id => rfl
    | literal value => exact constant_strict_eq options value none
  induction operands with
  | nil => rfl
  | cons x operands ih => simp only [resolveAll, hresolve, ih]

/-- A request that is granted, whose shape only it could say and that leaves it open. -/
theorem leavesOpen_of_grants {settings : Settings} (hstandard : settings.registry = .standard)
    {graph : Graph} {request : Request} {node : Node} (h : settings.Grants graph request node)
    (hopen : request.LeavesOpen) : graph.LeavesOpen node.id (graph.snoc node) := by
  obtain ⟨hnone, hkind⟩ := hopen
  obtain ⟨operator, shapes, shape, hoperator, -, -, hshape, hnode⟩ := eq_toNode_of_grants h
  rw [hstandard] at hoperator
  have hdeclared : operator.rule = .declared := by
    rcases hkind with hkind | hkind
    · rw [hkind] at hoperator
      cases hoperator
      rfl
    · rw [hkind] at hoperator
      cases hoperator
      rfl
  rw [Operator.inferShape_of_eq_none hnone, hdeclared] at hshape
  have hshape : shape = none := by
    rcases hshape with hshape | ⟨⟨e, hshape⟩, -⟩
    · exact (Except.ok.inj hshape).symm
    · cases hshape
  have hmay : request.kind.MayStayOpen := hkind.elim .inl fun hreshape => .inr (.inl hreshape)
  subst hnode hshape
  exact ⟨_, rfl, rfl, hmay, rfl⟩

/-- The node of a request is appended under strict options and under lenient ones. -/
theorem add_forgets (request : Request) (graph : Graph) :
    Outcome.Forgets ((options.settings true).add request graph)
      ((options.settings false).add request graph) := by
  have yields : ∀ strict id after, (Registry.standard.append strict graph
      (request.named options graph)).result = .ok (id, after) →
      ((options.settings strict).add request).Yields graph id after :=
    fun strict id after h => Build.yields_change.2 h
  have fails : ∀ strict e, (Registry.standard.append strict graph
      (request.named options graph)).result = .error e →
      ((options.settings strict).add request).Fails graph e graph :=
    fun strict e h => Build.fails_change.2 ⟨h, rfl⟩
  rcases Registry.append_forgets graph (request.named options graph) with
    hsame | ⟨e, hstrict, hcategory, hopen⟩
  · cases hstrict : (Registry.standard.append true graph (request.named options graph)).result with
    | ok made =>
      obtain ⟨h1, h2⟩ := yields true made.1 made.2 hstrict
      obtain ⟨h3, h4⟩ := yields false made.1 made.2 (hsame ▸ hstrict)
      exact .inl ⟨h1.trans h3.symm, h2.trans h4.symm⟩
    | error e =>
      obtain ⟨h1, h2⟩ := fails true e hstrict
      obtain ⟨h3, h4⟩ := fails false e (hsame ▸ hstrict)
      exact .inl ⟨h1.trans h3.symm, h2.trans h4.symm⟩
  · obtain ⟨h1, h2⟩ := fails true e hstrict
    refine .inr ⟨e, h1, hcategory, ?_⟩
    rw [h2]
    cases hlenient : (Registry.standard.append false graph
        (request.named options graph)).result with
    | ok made =>
      obtain ⟨h3, h4⟩ := yields false made.1 made.2 hlenient
      rw [h3, h4]
      exact hopen made hlenient
    | error e' =>
      obtain ⟨h3, h4⟩ := fails false e' hlenient
      rw [h3, h4]

/-- A request is made and granted under strict options and under lenient ones. -/
theorem ask_forgets {strict lenient : Graph → Attempt Request} {graph : Graph}
    (h : Attempt.Forgets Request.LeavesOpen (strict graph) (lenient graph)) :
    Outcome.Forgets ((options.settings true).ask strict graph)
      ((options.settings false).ask lenient graph) := by
  have fails : ∀ (settings : Settings) (f : Graph → Attempt Request) e,
      (f graph).result = .error e → (settings.ask f).Fails graph e graph :=
    fun settings f e he => Build.fails_bind.2 (.inl ⟨he, rfl⟩)
  rcases h with hsame | ⟨e, hstrict, hcategory, hopen⟩
  · cases hstrict : (strict graph).result with
    | ok request =>
      have hquery : (Build.query strict graph).result = .ok request := hstrict
      have hquery' : (Build.query lenient graph).result = .ok request :=
        hsame.symm.trans hstrict
      obtain ⟨h1, h2⟩ := Build.bind_of_ok (f := (options.settings true).add) hquery
      obtain ⟨h3, h4⟩ := Build.bind_of_ok (f := (options.settings false).add) hquery'
      unfold ask Outcome.Forgets
      rw [h1, h2, h3, h4]
      exact add_forgets options request graph
    | error e =>
      obtain ⟨h1, h2⟩ := fails (options.settings true) strict e hstrict
      obtain ⟨h3, h4⟩ := fails (options.settings false) lenient e (hsame ▸ hstrict)
      exact .inl ⟨h1.trans h3.symm, h2.trans h4.symm⟩
  · obtain ⟨h1, h2⟩ := fails (options.settings true) strict e hstrict
    refine .inr ⟨e, h1, hcategory, ?_⟩
    rw [h2]
    cases hlenient : ((options.settings false).ask lenient graph).result with
    | ok id =>
      obtain ⟨request, node, hrequest, hgrants, rfl, hafter⟩ := ask_yields ⟨hlenient, rfl⟩
      rw [hafter]
      exact leavesOpen_of_grants rfl hgrants (hopen request hrequest)
    | error e' => exact (ask_fails ⟨hlenient, rfl⟩).symm

/-- **A call that is not folded**, under strict options and under lenient ones. -/
theorem performStages_forgets (call : Call) (graph : Graph) :
    Outcome.Forgets ((options.settings true).performStages call graph)
      ((options.settings false).performStages call graph) := by
  unfold performStages
  cases call.refusal? with
  | some error => exact .inl ⟨rfl, rfl⟩
  | none =>
    dsimp only
    rw [resolveAll_strict_eq]
    exact .bind fun ids _ => ask_forgets options (call.request_forgets _ ids)

/-- **Every call**, under strict options and under lenient ones. -/
theorem perform_forgets (call : Call) (graph : Graph) :
    Outcome.Forgets ((options.settings true).perform call graph)
      ((options.settings false).perform call graph) := by
  cases hfold : (options.settings true).foldedCall? call with
  | none =>
    have hfold' : (options.settings false).foldedCall? call = none := hfold
    rw [perform_of_unfolded hfold, perform_of_unfolded hfold']
    exact performStages_forgets options call graph
  | some folded =>
    have hfold' : (options.settings false).foldedCall? call = some folded := hfold
    obtain ⟨h1, h2⟩ := perform_of_folded hfold graph
    obtain ⟨h3, h4⟩ := perform_of_folded hfold' graph
    rw [constant_strict_eq] at h1 h2
    exact .inl ⟨h2.trans h4.symm, h1.trans h3.symm⟩

end Settings

/-! ### Runs -/

/-- **Runs in which the strict builder succeeds.** The lenient one builds the same graph. -/
theorem runAll_lenient_eq (options : Options) {calls : List Call} {graph : Graph}
    (h : (options.builder true graph).Throughout Builder.Succeeds calls) :
    ((options.builder false graph).runAll calls).graph =
      ((options.builder true graph).runAll calls).graph := by
  induction calls generalizing graph with
  | nil => rfl
  | cons call calls ih =>
    obtain ⟨⟨id, hid⟩, hcalls⟩ := h
    have hgraph : ((options.settings true).perform call graph).graph =
        ((options.settings false).perform call graph).graph := by
      rcases Settings.perform_forgets options call graph with ⟨-, hgraph⟩ | ⟨e, herror, -⟩
      · exact hgraph
      · cases hid.symm.trans herror
    have hrun : (options.builder false graph).run call =
        options.builder false ((options.settings true).perform call graph).graph := by
      rw [hgraph]
      rfl
    show (((options.builder false graph).run call).runAll calls).graph = _
    rw [hrun]
    exact ih hcalls

/-- **Lenient builders only forget shapes.** Where the strict builder succeeds, the lenient one gets
the same node and the same graph; so where the lenient one fails, the strict one does too. Where the
strict one alone fails, it does so with a validation error, and the lenient one has the graph that
the strict one leaves and one more node, of a kind that may stay open, whose shape is unknown. In a
run in which the strict builder always succeeds, both build the same graph. -/
theorem lenient_forgets (options : Options) (graph : Graph) (call : Call) :
    let strict := (options.builder true graph).outcome call
    let lenient := (options.builder false graph).outcome call
    (∀ id, strict.result = .ok id → lenient.result = .ok id ∧ lenient.graph = strict.graph) ∧
      (∀ e, lenient.result = .error e → ∃ e', strict.result = .error e') ∧
      (∀ e id, strict.result = .error e → lenient.result = .ok id →
        e.category = .validation ∧ ∃ node, node.id = id ∧
          lenient.graph = strict.graph.snoc node ∧ node.kind.MayStayOpen ∧
          node.hostShape = none) ∧
      ∀ calls, (options.builder true graph).Throughout Builder.Succeeds calls →
        ((options.builder false graph).runAll calls).graph =
          ((options.builder true graph).runAll calls).graph := by
  intro strict lenient
  have hforgets : strict.Forgets lenient := Settings.perform_forgets options call graph
  refine ⟨?_, ?_, ?_, fun calls => runAll_lenient_eq options⟩
  · intro id hid
    rcases hforgets with ⟨hresult, hgraph⟩ | ⟨e, herror, -⟩
    · exact ⟨hresult ▸ hid, hgraph.symm⟩
    · cases hid.symm.trans herror
  · intro e he
    rcases hforgets with ⟨hresult, -⟩ | ⟨e', herror, -⟩
    · exact ⟨e, hresult.trans he⟩
    · exact ⟨e', herror⟩
  · intro e id he hid
    rcases hforgets with ⟨hresult, -⟩ | ⟨e', herror, hcategory, hopen⟩
    · cases he.symm.trans (hresult.trans hid)
    · cases he.symm.trans herror
      rw [hid] at hopen
      exact ⟨hcategory, hopen⟩

/-- A sum of shapes that do not fit, which the strict builder refuses and the lenient one makes. -/
theorem lenient_forgets_sum :
    let options : Options := {}
    let graph := (Builder.runAll {}
      [.declare (.input (.dims [2]) none) none, .declare (.input (.dims [3]) none) none]).graph
    let call : Call := .binary (.combine .plus) (.node 0) (.node 1) none
    let strict := (options.builder true graph).outcome call
    let lenient := (options.builder false graph).outcome call
    strict.result = .error (.cannotBroadcast [2] [3]) ∧ lenient.result = .ok 2 ∧
      ∃ node, node.id = 2 ∧ lenient.graph = strict.graph.snoc node ∧ node.kind.MayStayOpen ∧
        node.hostShape = none := by
  intro options graph call strict lenient
  have hstrict : strict.result = .error (.cannotBroadcast [2] [3]) := rfl
  have hlenient : lenient.result = .ok 2 := rfl
  exact ⟨hstrict, hlenient, ((lenient_forgets options graph call).2.2.1 _ _ hstrict hlenient).2⟩

end ComputeGraph
