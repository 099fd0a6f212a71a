import ComputeGraph.Proofs.Builder.Lockstep

/-!
# Folding functions of literals

A builder that folds functions of literals does the same as one that does not, up to the numbers of
nodes: every call of a script succeeds with both or fails with both. Where a function is applied to
a literal, the folding builder has the constant of the values in place of the constant and the node
that the function is applied by. No other call is treated differently.

* `Correspondence.Makes` — what the two builders have to show for a call;
* `Correspondence.folded_carries` — a function of a literal;
* **`Correspondence.perform_carries`** — every call;
* `Correspondence.Sessions`, **`Correspondence.Sessions.perform`** — every step of a script;
* **`folding_simulates`** — every script.
-/

namespace ComputeGraph

/-! ### Requests that only a name in use can stop -/

/-- The operator of its kind accepts the request, and its node has the shape. -/
def Request.IsAdmitted (graph : Graph) (request : Request) (shape : Option Extents) : Prop :=
  ∃ operator shapes, Registry.standard.find? request.kind = some operator ∧
    operator.validate request = .ok () ∧ graph.hostShapes request.inputs = .ok shapes ∧
    operator.inferShape request shapes = .ok shape

namespace Settings

variable {options : Options} {graph : Graph} {request : Request}
  {shape : Option Extents}

theorem append_of_isAdmitted (h : request.IsAdmitted graph shape) (strict : Bool) :
    (Registry.standard.append strict graph request).result =
      (graph.push (request.toNode graph shape)).map fun after => (graph.size, after) := by
  obtain ⟨operator, shapes, hoperator, hvalid, hshapes, hshape⟩ := h
  unfold Registry.append
  simp only [Attempt.result_bind, Attempt.result_lift, Registry.get_eq_ok.2 hoperator, hvalid,
    hshapes, hshape, Except.bind, Attempt.shapeOrUnknown, Attempt.result_pure,
    Attempt.result_record]
  cases graph.push (request.toNode graph shape) <;> rfl

/-- A node is appended if the name that it has or gets is free. -/
theorem add_yields_of_named (fold : Bool)
    (h : (request.named options graph).IsAdmitted graph shape)
    (hfree : graph.IsFree (request.named options graph).name) :
    ((options.foldingSettings fold).add request).Yields graph graph.size
      (graph.snoc ((request.named options graph).toNode graph shape)) := by
  have happend := append_of_isAdmitted h options.validateShapes
  obtain ⟨operator, shapes, -, -, hshapes, -⟩ := h
  have hpush : graph.push ((request.named options graph).toNode graph shape) =
      .ok (graph.snoc ((request.named options graph).toNode graph shape)) :=
    Graph.push_eq_ok.2 ⟨rfl, Graph.lt_size_of_hostShapes hshapes, hfree, rfl⟩
  rw [hpush] at happend
  exact Build.yields_change.2 happend

/-- A node whose name is free is appended. -/
theorem add_yields_of_free (hstem : options.namePrefix = none) (fold : Bool)
    (h : request.IsAdmitted graph shape) (hfree : graph.IsFree request.name) :
    ((options.foldingSettings fold).add request).Yields graph graph.size
      (graph.snoc (request.toNode graph shape)) := by
  have hnamed : request.named options graph = request := Request.named_eq_self hstem request graph
  rw [← hnamed] at h hfree
  have hadd := add_yields_of_named fold h hfree
  rwa [hnamed] at hadd

/-- A node whose name is in use is refused. -/
theorem add_fails_of_used (hstem : options.namePrefix = none) (fold : Bool)
    (h : request.IsAdmitted graph shape) {name : String} (hname : request.name = some name)
    (hused : graph.hasName name = true) :
    ((options.foldingSettings fold).add request).Fails graph (.nameInUse name) graph := by
  have happend := append_of_isAdmitted h options.validateShapes
  obtain ⟨operator, shapes, -, -, hshapes, -⟩ := h
  have hpush : graph.push (request.toNode graph shape) = .error (.nameInUse name) :=
    (Graph.push_eq_error rfl (Graph.lt_size_of_hostShapes hshapes)).2 ⟨name, hname, hused, rfl⟩
  rw [hpush] at happend
  unfold Build.Fails
  rw [add_eq_change hstem]
  exact Build.fails_change.2 ⟨happend, rfl⟩

/-! ### Constants -/

/-- The request for a constant that can be written. -/
theorem constant_request {value : Tensor} {literal : MatrixLiteral}
    (h : value.literal = .ok literal) (name : Option String) (graph : Graph) :
    (Build.query fun graph => (Declaration.parameter (.constant value)).request graph name).Yields
      graph { kind := .parameter, name, attributes := constantAttributes literal
              hostShape := some value.extents } graph := by
  refine ⟨?_, rfl⟩
  show ((Declaration.parameter (.constant value)).request graph name).result = _
  exact constant_request_eq_ok.2 ⟨literal, h, rfl⟩

/-- A constant needs nothing but a free name. -/
theorem constant_isAdmitted (literal : MatrixLiteral) (name : Option String) (extents : Extents)
    (graph : Graph) :
    Request.IsAdmitted graph
      { kind := .parameter, name, attributes := constantAttributes literal
        hostShape := some extents } (some extents) := by
  refine ⟨_, [], rfl, ?_, rfl, rfl⟩
  refine Operator.validate_eq_ok.2 ⟨rfl, rfl, ?_⟩
  simp [Operator.missing?, constantAttributes, Attributes.ofList]

/-- A tensor without elements cannot be a constant. -/
theorem constant_fails_of_empty {value : Tensor} (h : 0 ∈ value.extents) (settings : Settings)
    (name : Option String) (graph : Graph) :
    (settings.constant value name).Fails graph (.emptyValue value.extents) graph := by
  have hliteral := Tensor.literal_of_mem h
  have hrequest : ((Declaration.parameter (.constant value)).request graph name).result =
      .error (.emptyValue value.extents) :=
    Attempt.bind_eq_error.2 (.inr ⟨(), rfl, Attempt.bind_eq_error.2 (.inl hliteral)⟩)
  exact Build.fails_bind.2 (.inl ⟨hrequest, rfl⟩)

/-- A tensor with elements becomes a constant if its name is free. -/
theorem constant_yields_of_free (hstem : options.namePrefix = none) (fold : Bool) {value : Tensor}
    (h : 0 ∉ value.extents) {name : Option String} (hfree : graph.IsFree name) :
    ∃ node, node.IsConstant value ∧ node.name = name ∧
      ((options.foldingSettings fold).constant value name).Yields graph graph.size
        (graph.snoc node) := by
  obtain ⟨literal, hliteral⟩ := Tensor.exists_literal h
  have hadd := add_yields_of_free hstem fold
    (constant_isAdmitted literal name value.extents graph) hfree
  exact ⟨_, ⟨rfl, rfl, ⟨literal, hliteral, rfl⟩, rfl⟩, rfl,
    Build.yields_bind.2 ⟨_, graph, constant_request hliteral name graph, hadd⟩⟩

theorem constant_fails_of_used (hstem : options.namePrefix = none) (fold : Bool) {value : Tensor}
    (h : 0 ∉ value.extents) {name : String} (hused : graph.hasName name = true) :
    ((options.foldingSettings fold).constant value (some name)).Fails graph (.nameInUse name)
      graph := by
  obtain ⟨literal, hliteral⟩ := Tensor.exists_literal h
  have hadd := add_fails_of_used hstem fold
    (constant_isAdmitted literal (some name) value.extents graph) rfl hused
  exact Build.fails_bind.2
    (.inr ⟨_, graph, constant_request hliteral (some name) graph, hadd⟩)

/-! ### Functions of literals -/

/-- A function of a node needs nothing but a free name. -/
theorem apply_isAdmitted (f : Elementwise) {c : NodeId} {node : Node}
    (h : graph.node? c = some node) (name : Option String) :
    Request.IsAdmitted graph { kind := f.kind, inputs := [c], name } node.hostShape := by
  have hoperator : Registry.standard.find? f.kind =
      some { kind := f.kind, arity := 1, rule := .preserve } := by
    cases f <;> rfl
  exact ⟨_, [node.hostShape], hoperator, Operator.validate_eq_ok.2 ⟨rfl, rfl, rfl⟩,
    Graph.hostShapes_eq_ok.2 (.cons ⟨node, h, rfl⟩ .nil), rfl⟩

/-- The literal becomes a constant first. -/
theorem performUnary_apply (settings : Settings) (f : Elementwise) (value : Tensor)
    (name : Option String) :
    settings.performUnary (.apply f) (.literal value) name =
      settings.constant value none >>= fun c =>
        (Build.query fun _ => pure { kind := f.kind, inputs := [c], name }) >>= settings.add :=
  rfl

theorem isFree_snoc {c : Node} (hc : c.name = none) {name : Option String}
    (hfree : graph.IsFree name) : (graph.snoc c).IsFree name := by
  intro n hn
  rw [Graph.hasName_snoc, hc, hfree n hn]
  rfl

theorem apply_fails_of_empty (settings : Settings) (f : Elementwise) {value : Tensor}
    (h : 0 ∈ value.extents) (name : Option String) (graph : Graph) :
    (settings.performUnary (.apply f) (.literal value) name).Fails graph
      (.emptyValue value.extents) graph := by
  rw [performUnary_apply]
  exact Build.fails_bind.2 (.inl (constant_fails_of_empty h settings none graph))

/-- A builder that does not fold makes a constant and a node if the name of the node is free. -/
theorem apply_yields_of_free (hstem : options.namePrefix = none) (f : Elementwise) {value : Tensor}
    (h : 0 ∉ value.extents) {name : Option String} (hfree : graph.IsFree name) :
    ∃ c p, c.IsConstant value ∧ c.name = none ∧
      p = Request.toNode { kind := f.kind, inputs := [graph.size], name } (graph.snoc c)
        (some value.extents) ∧
      ((options.foldingSettings false).performUnary (.apply f) (.literal value) name).Yields graph
        (graph.snoc c).size ((graph.snoc c).snoc p) := by
  have hunnamed := graph.isFree_none
  obtain ⟨c, hc, hname, hmade⟩ := constant_yields_of_free hstem false h hunnamed
  have hadmitted := apply_isAdmitted f (Graph.node?_snoc_size graph c) name
  rw [hc.hostShape_eq] at hadmitted
  have hadd := add_yields_of_free hstem false hadmitted (isFree_snoc hname hfree)
  refine ⟨c, _, hc, hname, rfl, ?_⟩
  rw [performUnary_apply]
  exact Build.yields_bind.2 ⟨_, _, hmade, Build.yields_bind.2 ⟨_, _, ⟨rfl, rfl⟩, hadd⟩⟩

/-- If the name is in use, the constant is left behind. -/
theorem apply_fails_of_used (hstem : options.namePrefix = none) (f : Elementwise) {value : Tensor}
    (h : 0 ∉ value.extents) {name : String} (hused : graph.hasName name = true) :
    ∃ c, c.IsConstant value ∧ c.name = none ∧
      ((options.foldingSettings false).performUnary (.apply f) (.literal value) (some name)).Fails
        graph (.nameInUse name) (graph.snoc c) := by
  have hunnamed := graph.isFree_none
  obtain ⟨c, hc, hname, hmade⟩ := constant_yields_of_free hstem false h hunnamed
  have hadmitted := apply_isAdmitted f (Graph.node?_snoc_size graph c) (some name)
  have hused' : (graph.snoc c).hasName name = true := by
    rw [Graph.hasName_snoc, hused, Bool.or_true]
  have hadd := add_fails_of_used hstem false hadmitted rfl hused'
  refine ⟨c, hc, hname, ?_⟩
  rw [performUnary_apply]
  exact Build.fails_bind.2 (.inr ⟨_, _, hmade, Build.fails_bind.2 (.inr ⟨_, _, ⟨rfl, rfl⟩, hadd⟩)⟩)

end Settings

/-! ### Every call -/

namespace Correspondence

/-- What the nodes that the two builders make for a call have to be: the constant of the values in
place of a function of a literal, and otherwise the same up to the numbers of nodes. -/
def Makes {refers : String → Bool} {policy : DomainPolicy} (world : Correspondence refers policy)
    (call : Call) (i j : NodeId) : Prop :=
  match call.foldable? with
  | some (f, value) => world.Folded f value call.name i j
  | none => world.Alike i j

variable {refers : String → Bool} {options : Options}
  {world : Correspondence refers options.domainPolicy}

/-- **A function of a literal.** The plain builder makes a constant and a node that applies the
function, the folding one the constant of the values. Both fail if the literal is empty, or if the
name is in use; then the plain builder has made the constant all the same. -/
theorem folded_carries (hstem : options.namePrefix = none) (f : Elementwise) (value : Tensor)
    (name : Option String) :
    world.Carries (fun after => after.Folded f value name)
      ((options.foldingSettings false).performUnary (.apply f) (.literal value) name world.plain)
      ((options.foldingSettings true).constant (f.fold options.domainPolicy value) name
        world.folding) := by
  by_cases hempty : 0 ∈ value.extents
  · -- the values have the shape of the literal
    have hempty' : 0 ∈ (f.fold options.domainPolicy value).extents := hempty
    exact carries_of_fails (.refl world)
      (Settings.apply_fails_of_empty (options.foldingSettings false) f hempty name world.plain)
      (Settings.constant_fails_of_empty hempty' (options.foldingSettings true) name world.folding)
      rfl
  have hempty' : 0 ∉ (f.fold options.domainPolicy value).extents := hempty
  rcases world.plain.isFree_or_used name with hfree | ⟨n, rfl, hused⟩
  · obtain ⟨c, p, hc, hname, hp, hplain⟩ := Settings.apply_yields_of_free hstem f hempty hfree
    obtain ⟨q, hq, hqname, hfolding⟩ :=
      Settings.constant_yields_of_free hstem true hempty' ((world.isFree_iff name).1 hfree)
    have hskip : world.Extends (world.skip c hname ⟨value, hc⟩) := extends_skip hname ⟨value, hc⟩
    have hfolded : Node.IsFolded options.domainPolicy (world.plain.snoc c) world.counterparts f
        value p q := by
      subst hp
      exact {
        kind_eq := rfl
        operand := ⟨world.plain.size, c, rfl, Graph.node?_snoc_size _ c, hc,
          fun hmem => Nat.lt_irrefl _ (lt_size hmem)⟩
        constant := hq
        name_eq := hqname.symm
        hostShape_eq := hq.hostShape_eq.symm }
    have hmatch : p.Matches refers options.domainPolicy (world.plain.snoc c) world.counterparts q :=
      .inr ⟨f, value, hfolded⟩
    have hsnoc : (world.skip c hname ⟨value, hc⟩).Extends
        ((world.skip c hname ⟨value, hc⟩).snoc p q hmatch) := extends_snoc hmatch
    exact carries_of_yields (hskip.trans hsnoc) hplain hfolding
      ⟨p, q, Graph.node?_snoc_size _ p, Graph.node?_snoc_size _ q, at_snoc hmatch, hqname,
        hfolded.mono hsnoc.plain hsnoc.fresh⟩
  · obtain ⟨c, hc, hname, hplain⟩ := Settings.apply_fails_of_used hstem f hempty hused
    have hfolding := Settings.constant_fails_of_used hstem true hempty'
      ((world.hasName_eq n).symm.trans hused)
    have hskip : world.Extends (world.skip c hname ⟨value, hc⟩) := extends_skip hname ⟨value, hc⟩
    exact carries_of_fails hskip hplain hfolding rfl

/-- **Every call** that refers to corresponding nodes: both builders make corresponding nodes, or
both fail with errors of the same category. -/
theorem perform_carries (hstem : options.namePrefix = none) (hrefers : refers "dynamicAxis" = true)
    {f g : NodeId → NodeId} {call : Call} (h : ∀ i ∈ call.references refers, world.At (f i) (g i)) :
    world.Carries (fun after => after.Makes call)
      ((options.foldingSettings false).perform (call.rename refers f) world.plain)
      ((options.foldingSettings true).perform (call.rename refers g) world.folding) := by
  cases hfold : call.foldable? with
  | none =>
    have hplain : (options.foldingSettings false).foldedCall? (call.rename refers f) = none := by
      rw [Settings.foldedCall?_eq]
      rfl
    have hfolding : (options.foldingSettings true).foldedCall? (call.rename refers g) = none := by
      rw [Settings.foldedCall?_eq, Call.foldable?_rename, hfold]
      rfl
    rw [Settings.perform_of_unfolded hplain, Settings.perform_of_unfolded hfolding]
    refine (performStages_carries hstem hrefers h).imp fun after i j halike => ?_
    unfold Makes
    rw [hfold]
    exact halike
  | some folded =>
    obtain ⟨function, value⟩ := folded
    obtain ⟨name, rfl⟩ := Call.exists_of_foldable?_eq_some hfold
    have hfolding : (options.foldingSettings true).foldedCall?
        (.unary (.apply function) (.literal value) name) = some (function, value) := rfl
    obtain ⟨hgraph, hresult⟩ := Settings.perform_of_folded hfolding world.folding
    obtain ⟨after, hextends, hplain', hfolding', hagree⟩ :=
      folded_carries hstem function value name
    refine ⟨after, hextends, hplain', hfolding'.trans hgraph.symm, ?_⟩
    have hresult' := hresult.symm ▸ hagree
    exact hresult'

end Correspondence

/-! ### Scripts -/

/-- A builder with the standard operators and no calls performed yet. -/
def Session.start (options : Options) (fold : Bool) : Session :=
  { builder := { toSettings := options.foldingSettings fold } }

namespace Correspondence

section Steps

variable {refers : String → Bool} {policy : DomainPolicy}
  {world after : Correspondence refers policy}

theorem Extends.makes (h : world.Extends after) {call : Call} {i j : NodeId}
    (hmakes : world.Makes call i j) : after.Makes call i j := by
  unfold Makes at hmakes ⊢
  split
  · rename_i f value hfold
    rw [hfold] at hmakes
    exact h.folded hmakes
  · rename_i hfold
    rw [hfold] at hmakes
    exact h.alike hmakes

theorem at_of_makes {call : Call} {i j : NodeId} (h : world.Makes call i j) : world.At i j := by
  unfold Makes at h
  split at h
  · obtain ⟨p, q, -, -, hat, -⟩ := h
    exact hat
  · obtain ⟨p, q, -, -, hat, -⟩ := h
    exact hat

/-- Steps with the same call, which agree in their results. -/
def SameStep (world : Correspondence refers policy) (s t : Step) : Prop :=
  s.call = t.call ∧ Agree (world.Makes s.call) s.result t.result

theorem Extends.sameStep (h : world.Extends after) {s t : Step} (hsame : world.SameStep s t) :
    after.SameStep s t :=
  ⟨hsame.1, hsame.2.imp fun _ _ => h.makes⟩

end Steps

variable {refers : String → Bool} {options : Options}
  {world : Correspondence refers options.domainPolicy} {plain folding : Session}

/-- A session of the plain builder and one of the folding builder that have come to graphs that
correspond, in steps that agree. -/
structure Sessions (world : Correspondence refers options.domainPolicy) (plain folding : Session) :
    Prop where
  plain_eq : plain.builder = ⟨options.foldingSettings false, world.plain⟩
  folding_eq : folding.builder = ⟨options.foldingSettings true, world.folding⟩
  steps : List.Forall₂ world.SameStep plain.steps folding.steps

/-- A place of one list has a related one in the other. -/
theorem exists_getElem?_of_forall₂ {α β : Type} {r : α → β → Prop} {xs : List α} {ys : List β}
    (h : List.Forall₂ r xs ys) {n : Nat} {x : α} (hx : xs[n]? = some x) :
    ∃ y, ys[n]? = some y ∧ r x y := by
  obtain ⟨hlength, hget⟩ := List.forall₂_iff_get.1 h
  obtain ⟨hn, rfl⟩ := List.getElem?_eq_some_iff.1 hx
  have hn' : n < ys.length := hlength ▸ hn
  exact ⟨ys[n], List.getElem?_eq_getElem hn', hget n hn hn'⟩

/-- The results that a call of a script refers to correspond. -/
theorem Sessions.exists_node? (h : world.Sessions plain folding) {n : Nat} {i : NodeId}
    (hi : plain.node? n = some i) : ∃ j, folding.node? n = some j ∧ world.At i j := by
  unfold Session.node? at hi
  split at hi
  · rename_i call id hstep
    cases hi
    obtain ⟨step, hstep', -, hagree⟩ := exists_getElem?_of_forall₂ h.steps hstep
    obtain ⟨call', result⟩ := step
    cases result with
    | ok j =>
      refine ⟨j, ?_, at_of_makes hagree⟩
      unfold Session.node?
      rw [hstep']
    | error e => exact hagree.elim
  · cases hi

/-- **Steps.** A call that the session of the plain builder can perform can be performed by the
other too, and both come to graphs that correspond again. -/
theorem Sessions.perform (hstem : options.namePrefix = none)
    (hrefers : refers "dynamicAxis" = true) (h : world.Sessions plain folding) {call : Call}
    {next : Session} (hnext : plain.perform refers call = some next) :
    ∃ next' after, world.Extends after ∧ folding.perform refers call = some next' ∧
      after.Sessions next next' := by
  unfold Session.perform at hnext
  split at hnext
  · rename_i hresults
    cases hnext
    have hat : ∀ n ∈ call.references refers, (folding.node? n).isSome ∧
        world.At ((plain.node? n).getD 0) ((folding.node? n).getD 0) := by
      intro n hn
      obtain ⟨i, hi⟩ := Option.isSome_iff_exists.1 (hresults n hn)
      obtain ⟨j, hj, hij⟩ := h.exists_node? hi
      rw [hi, hj]
      exact ⟨rfl, hij⟩
    obtain ⟨after, hextends, hplain, hfolding, hagree⟩ :=
      perform_carries hstem hrefers fun n hn => (hat n hn).2
    refine ⟨_, after, hextends, if_pos fun n hn => (hat n hn).1, ?_, ?_, ?_⟩
    · show plain.builder.run (plain.actual refers call) = _
      rw [h.plain_eq, hplain]
      rfl
    · show folding.builder.run (folding.actual refers call) = _
      rw [h.folding_eq, hfolding]
      rfl
    · refine List.rel_append (h.steps.imp fun _ _ => hextends.sameStep) (.cons ⟨rfl, ?_⟩ .nil)
      show Agree _ (plain.builder.outcome (plain.actual refers call)).result
        (folding.builder.outcome (folding.actual refers call)).result
      rw [h.plain_eq, h.folding_eq]
      exact hagree
  · cases hnext

/-- **Scripts.** -/
theorem Sessions.play (hstem : options.namePrefix = none) (hrefers : refers "dynamicAxis" = true)
    (h : world.Sessions plain folding) {script : List Call} {last : Session}
    (hlast : plain.play refers script = some last) :
    ∃ last' after, world.Extends after ∧ folding.play refers script = some last' ∧
      after.Sessions last last' := by
  induction script generalizing world plain folding with
  | nil =>
    cases hlast
    exact ⟨folding, world, .refl world, rfl, h⟩
  | cons call script ih =>
    obtain ⟨next, hnext, hlast⟩ := Option.bind_eq_some_iff.1 hlast
    obtain ⟨next', mid, hmid, hnext', hsessions⟩ := h.perform hstem hrefers hnext
    obtain ⟨last', after, hafter, hlast', hsessions'⟩ := ih hsessions hlast
    exact ⟨last', after, hmid.trans hafter, Option.bind_eq_some_iff.2 ⟨next', hnext', hlast'⟩,
      hsessions'⟩

end Correspondence

end ComputeGraph
