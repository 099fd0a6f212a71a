import ComputeGraph.Proofs.Builder.Agreement
import ComputeGraph.Proofs.Builder.Effect

/-!
# Where unknown shapes come from

A strict builder leaves the shape of a node unknown only where it has to: the node is a dynamic
axis, which has no shape, or the shape of one of its operands is unknown. So where no operand is a
dynamic axis, the shapes of all other nodes are known, and no call lacks the rank of an operand.

* `Node.IsExplained` — a shape that is unknown, if it is, for a reason;
* `Request.IsExplained`, `OutputRule.none_mem_of_infer` — the two ways a shape stays unknown;
* **`Settings.isExplained_of_answers`** — the nodes of declarations and operators;
* `FailsUnnamed` — work that is not refused for a name, and that lacks a rank only where the shape
  of one of some nodes is unknown;
* **`Call.request_fails`** — requests lack no rank but those of their operands;
* **`Settings.perform_complete`** — a call without dynamic axes keeps all shapes known;
* **`shapes_explained_and_complete`** — every run of declarations and operators.
-/

namespace ComputeGraph

/-! ### Unknown shapes -/

/-- The node with an id is there, and its shape is unknown. -/
def Graph.IsUnknown (graph : Graph) (id : NodeId) : Prop :=
  ∃ node, graph.node? id = some node ∧ node.hostShape = none

/-- If the shape of the node is unknown, it is a dynamic axis or the shape of an operand is
unknown. -/
def Node.IsExplained (graph : Graph) (node : Node) : Prop :=
  node.hostShape = none →
    node.kind = .dynamicAxis ∨ ∃ input ∈ node.inputs, graph.IsUnknown input

/-- A request of which alone the shape can be taken leaves it open only for such a reason. -/
def Request.IsExplained (graph : Graph) (request : Request) : Prop :=
  request.kind.IsDeclared → (request.toNode graph request.hostShape).IsExplained graph

/-- The shapes of all nodes but dynamic axes are known. -/
def Graph.IsComplete (graph : Graph) : Prop :=
  ∀ node ∈ graph.nodes, node.hostShape = none → node.kind = .dynamicAxis

theorem Graph.IsUnknown.of_extends {graph after : Graph} (h : graph.nodes <+: after.nodes)
    {id : NodeId} (hunknown : graph.IsUnknown id) : after.IsUnknown id := by
  obtain ⟨node, hnode, hshape⟩ := hunknown
  exact ⟨node, node?_of_extends h hnode, hshape⟩

theorem Node.IsExplained.mono {graph after : Graph} {node : Node}
    (h : graph.nodes <+: after.nodes) (hnode : node.IsExplained graph) :
    node.IsExplained after := by
  intro hnone
  refine (hnode hnone).imp_right fun hinput => ?_
  obtain ⟨input, hmem, hunknown⟩ := hinput
  exact ⟨input, hmem, hunknown.of_extends h⟩

/-! ### Requests -/

section Requests

variable {graph : Graph} {request : Request}

theorem Request.isExplained_of_some {shape : Extents} (h : request.hostShape = some shape) :
    request.IsExplained graph := by
  intro _ hnone
  have hnone : request.hostShape = none := hnone
  rw [h] at hnone
  cases hnone

theorem Request.isExplained_of_not_declared (h : ¬ request.kind.IsDeclared) :
    request.IsExplained graph :=
  fun hdeclared => absurd hdeclared h

theorem declaration_isExplained {declaration : Declaration} {name : Option String}
    (h : (declaration.request graph name).result = .ok request) : request.IsExplained graph := by
  cases declaration with
  | input shape axis =>
    obtain ⟨entries, -, rfl⟩ := requestInput_eq_ok.1 h
    exact Request.isExplained_of_some rfl
  | sparseInput shape axis =>
    obtain ⟨entries, -, rfl⟩ := requestInput_eq_ok.1 h
    exact Request.isExplained_of_some rfl
  | inputForSamples samples axis =>
    obtain ⟨shape, -, h⟩ := Attempt.bind_eq_ok.1 h
    obtain ⟨entries, -, rfl⟩ := requestInput_eq_ok.1 h
    exact Request.isExplained_of_some rfl
  | dynamicAxis =>
    cases h
    exact fun _ _ => .inl rfl
  | parameter spec =>
    rcases requestParameter_eq_ok.1 h with ⟨-, shape, -, h⟩ | ⟨value, -, -, -, h⟩
    · rw [requestUninitialised_eq, Except.ok.injEq] at h
      subst h
      exact Request.isExplained_of_some rfl
    · obtain ⟨literal, -, rfl⟩ := requestInitialised_eq_ok.1 h
      exact Request.isExplained_of_some rfl

/-- A shape that is to be inferred is unknown only if the shape before is. -/
theorem Extents.eq_none_of_reshape {input : Option Extents} {target : Extents}
    (h : Extents.reshape input target = .ok none) : input = none := by
  cases input with
  | none => rfl
  | some input =>
    unfold Extents.reshape at h
    split at h
    · cases h
    · obtain ⟨shape, -, h⟩ := except_map_eq_ok.1 h
      cases h

theorem eq_none_of_productShape {left : Extents} {right : Option Extents} {outputRank : Nat}
    (h : productShape left right outputRank = .ok none) : right = none := by
  cases right with
  | none => rfl
  | some right =>
    obtain ⟨shape, -, h⟩ := except_map_eq_ok.1 h
    cases h

theorem requestReshape_isExplained {target : Shape} {x : NodeId} {name : Option String}
    (h : (requestReshape true graph target x name).result = .ok request) :
    request.IsExplained graph := by
  obtain ⟨node, shape, hnode, hshape, rfl⟩ := requestReshape_eq_ok.1 h
  rcases hshape with hshape | ⟨-, hstrict, -⟩
  · intro _ hnone
    have hnone : shape = none := hnone
    rw [hnone] at hshape
    exact .inr ⟨x, List.mem_singleton_self x, node, hnode, Extents.eq_none_of_reshape hshape⟩
  · cases hstrict

theorem requestTimes_isExplained {outputRank : Nat} {left right : NodeId} {name : Option String}
    (h : (requestTimes true graph outputRank left right name).result = .ok request) :
    request.IsExplained graph := by
  obtain ⟨leftShape, engineRank, node, shape, -, -, hnode, hshape, rfl⟩ := requestTimes_eq_ok.1 h
  rcases hshape with hshape | ⟨-, hstrict, -⟩
  · intro _ hnone
    have hnone : shape = none := hnone
    rw [hnone] at hshape
    exact .inr ⟨right, List.mem_cons_self, node, hnode, eq_none_of_productShape hshape⟩
  · cases hstrict

theorem unary_isExplained {operator : UnaryOperator} {x : NodeId} {name : Option String}
    (h : (operator.request true graph x name).result = .ok request) :
    request.IsExplained graph := by
  cases operator with
  | apply f =>
    cases h
    exact Request.isExplained_of_not_declared f.not_isDeclared
  | softmax =>
    cases h
    have hrule : ¬ Kind.softmax.IsDeclared := by decide
    exact Request.isExplained_of_not_declared hrule
  | dropout =>
    cases h
    have hrule : ¬ Kind.dropout.IsDeclared := by decide
    exact Request.isExplained_of_not_declared hrule
  | delayed direction dims timeStep outside =>
    rw [UnaryOperator.request, requestDelayed_eq, Except.ok.injEq] at h
    subst h
    exact Request.isExplained_of_not_declared direction.not_isDeclared
  | reshape target => exact requestReshape_isExplained h
  | transpose axis1 axis2 =>
    obtain ⟨shape, engineAxis1, engineAxis2, -, -, -, rfl⟩ := requestTranspose_eq_ok.1 h
    exact Request.isExplained_of_some rfl
  | slice start stop axis =>
    obtain ⟨shape, engineAxis, -, -, -, -, -, rfl⟩ := requestSlice_eq_ok.1 h
    exact Request.isExplained_of_some rfl

theorem binary_isExplained {operator : BinaryOperator} {left right : NodeId} {name : Option String}
    (h : (operator.request true graph left right name).result = .ok request) :
    request.IsExplained graph := by
  cases operator with
  | combine combination =>
    cases h
    exact Request.isExplained_of_not_declared combination.not_isDeclared
  | times outputRank => exact requestTimes_isExplained h

end Requests

/-! ### Nodes -/

/-- A rule that gives shapes leaves one unknown only where the shape of an operand is. -/
theorem OutputRule.none_mem_of_infer {rule : OutputRule} {shapes : List (Option Extents)}
    (hdeclared : rule ≠ .declared) (hoperand : rule = .preserve → shapes ≠ [])
    (h : rule.infer shapes = .ok none) : none ∈ shapes := by
  cases rule with
  | preserve =>
    obtain ⟨first, rest, rfl⟩ := List.exists_cons_of_ne_nil (hoperand rfl)
    have hfirst : first = none := Except.ok.inj h
    exact hfirst ▸ List.mem_cons_self
  | broadcast => exact none_mem_of_broadcastAll h
  | scalar => cases h
  | declared => exact absurd rfl hdeclared

theorem Graph.isUnknown_of_none_mem {graph : Graph} {ids : List NodeId}
    {shapes : List (Option Extents)} (hshapes : graph.hostShapes ids = .ok shapes)
    (hnone : none ∈ shapes) : ∃ id ∈ ids, graph.IsUnknown id := by
  have hall := hostShapes_eq_ok.1 hshapes
  clear hshapes
  induction hall with
  | nil => cases hnone
  | @cons id shape ids shapes hhead _ ih =>
    obtain ⟨node, hnode, hshape⟩ := hhead
    rcases List.mem_cons.1 hnone with hnone | hnone
    · exact ⟨id, List.mem_cons_self, node, hnode, hshape.trans hnone.symm⟩
    · obtain ⟨id', hmem, hunknown⟩ := ih hnone
      exact ⟨id', List.mem_cons_of_mem _ hmem, hunknown⟩

namespace Settings

variable {settings : Settings} {graph : Graph} {node : Node}

/-- A strict builder that is granted a request with a reason has a node with a reason. -/
theorem isExplained_of_grants (hstandard : settings.registry = .standard)
    (hstrict : settings.options.validateShapes = true) {request : Request}
    (h : settings.Grants graph request node) (hrequest : request.IsExplained graph) :
    node.IsExplained graph := by
  obtain ⟨operator, shapes, shape, hoperator, hvalid, hshapes, hshape, hnode⟩ :=
    eq_toNode_of_grants h
  rw [hstandard] at hoperator
  subst hnode
  intro hnone
  have hnone : shape = none := hnone
  rw [hstrict, hnone] at hshape
  have hfound : operator.inferShape request shapes = .ok none :=
    hshape.elim id fun hopen => nomatch hopen.2.1
  cases hknown : request.hostShape with
  | some known =>
    rw [Operator.inferShape_of_eq_some hknown] at hfound
    cases hfound
  | none =>
    rw [Operator.inferShape_of_eq_none hknown] at hfound
    by_cases hdeclared : operator.rule = .declared
    · exact hrequest ((Kind.isDeclared_iff hoperator).2 hdeclared) hknown
    · refine .inr (Graph.isUnknown_of_none_mem hshapes
        (OutputRule.none_mem_of_infer hdeclared (fun hpreserve hnil => ?_) hfound))
      have hpos := Registry.arity_pos_of_preserve hoperator hpreserve
      obtain ⟨-, harity, -⟩ := Operator.validate_eq_ok.1 hvalid
      have hlength := (Graph.hostShapes_eq_ok.1 hshapes).length_eq
      rw [harity, hnil] at hlength
      exact absurd hlength (Nat.ne_of_gt hpos)

/-- **Answers to declarations and operators** leave shapes unknown only for a reason. -/
theorem isExplained_of_answers (hstandard : settings.registry = .standard)
    (hstrict : settings.options.validateShapes = true) (h : settings.Answers graph node) :
    node.IsExplained graph := by
  obtain ⟨request, hasks, hgrants⟩ := h
  refine isExplained_of_grants hstandard hstrict hgrants ?_
  cases hasks with
  | declare h => exact declaration_isExplained h
  | unary h => exact unary_isExplained (hstrict ▸ h)
  | binary h => exact binary_isExplained (hstrict ▸ h)
  | ternary operator first second third name =>
    exact Request.isExplained_of_not_declared operator.not_isDeclared

end Settings

/-! ### Ranks -/

/-- A rank is needed that is not known. -/
def Error.IsRankUnknown : Error → Prop
  | .rankUnknown .. => True
  | _ => False

/-- A name is in use. -/
def Error.IsNameInUse : Error → Prop
  | .nameInUse _ => True
  | _ => False

/-- Work that gives no names is not refused for one, and if a rank is needed that is not known, it
is that of one of some nodes, whose shape is unknown. -/
def FailsUnnamed {α : Type} (graph : Graph) (ids : List NodeId) (result : Except Error α) : Prop :=
  ∀ e, result = .error e →
    ¬ e.IsNameInUse ∧ (e.IsRankUnknown → ∃ id ∈ ids, graph.IsUnknown id)

namespace FailsUnnamed

variable {α β : Type} {graph : Graph} {ids : List NodeId}

theorem ok (a : α) : FailsUnnamed graph ids (.ok a) := by
  intro e h
  cases h

theorem error {e : Error} (hname : ¬ e.IsNameInUse) (hrank : ¬ e.IsRankUnknown) :
    FailsUnnamed graph ids (.error e : Except Error α) := by
  intro e' he
  cases he
  exact ⟨hname, fun h => absurd h hrank⟩

theorem bind {x : Except Error α} {f : α → Except Error β} (hx : FailsUnnamed graph ids x)
    (hf : ∀ a, FailsUnnamed graph ids (f a)) : FailsUnnamed graph ids (x.bind f) := by
  intro e h
  rcases except_bind_eq_error.1 h with h | ⟨a, -, h⟩
  · exact hx e h
  · exact hf a e h

theorem andThen {x : Attempt α} {f : α → Attempt β} (hx : FailsUnnamed graph ids x.result)
    (hf : ∀ a, FailsUnnamed graph ids (f a).result) : FailsUnnamed graph ids (x >>= f).result := by
  rw [Attempt.result_bind]
  exact bind hx hf

theorem get (id : NodeId) : FailsUnnamed graph ids (graph.get id) := by
  intro e h
  obtain ⟨-, rfl⟩ := Graph.get_eq_error.1 h
  exact ⟨fun hname => hname, False.elim⟩

/-- A shape that is needed is unknown, or the node is missing. -/
theorem knownShape {id : NodeId} (hid : id ∈ ids) (kind : Kind) :
    FailsUnnamed graph ids (graph.knownShape id kind) := by
  intro e h
  rcases except_bind_eq_error.1 h with h | ⟨node, hnode, h⟩
  · exact get id e h
  · cases hshape : node.hostShape with
    | none =>
      rw [hshape] at h
      cases h
      have hunknown : graph.IsUnknown id := ⟨node, Graph.get_eq_ok.1 hnode, hshape⟩
      exact ⟨fun hname => hname, fun _ => ⟨id, hid, hunknown⟩⟩
    | some shape =>
      rw [hshape] at h
      cases h

theorem ofHost (axis : Int) (rank : Nat) :
    FailsUnnamed graph ids (EngineAxis.ofHost axis rank) := by
  unfold EngineAxis.ofHost
  split
  · exact ok _
  · exact error id id

theorem markAxis (shape : Extents) (axis : Int) :
    FailsUnnamed graph ids (ComputeGraph.markAxis shape axis).result :=
  andThen (bind (ofHost axis _) fun _ => ok _) fun _ => andThen (ok _) fun _ => ok _

theorem shapeOrUnknown {strict : Bool} {output : String}
    {found : Except Error (Option Extents)} (h : ∀ e, found = .error e → e.IsMisfit) :
    FailsUnnamed graph ids (Attempt.shapeOrUnknown strict output found).result := by
  intro e he
  obtain ⟨he, -⟩ := Attempt.shapeOrUnknown_eq_error.1 he
  have hmisfit := h e he
  cases e <;> first | exact hmisfit.elim | exact ⟨fun hname => hname, False.elim⟩

theorem axisAttribute (axis : Option NodeId) :
    FailsUnnamed graph ids (graph.axisAttribute axis) := by
  cases axis with
  | none => exact ok _
  | some axis =>
    refine bind (bind (get axis) fun node => ?_) fun _ => ok _
    split
    · exact ok _
    · exact error id id

theorem requestInput (kind : Kind) (shape : Shape) (axis : Option NodeId) (name : Option String) :
    FailsUnnamed graph ids (ComputeGraph.requestInput graph kind shape axis name).result := by
  unfold ComputeGraph.requestInput
  rw [Attempt.result_toEngine_bind]
  exact andThen (axisAttribute axis) fun _ => ok _

theorem requireShapeOf (value : Tensor) (shape : Option Shape) :
    FailsUnnamed graph ids (ComputeGraph.requireShapeOf value shape) := by
  cases shape with
  | none => exact ok _
  | some shape =>
    show FailsUnnamed graph ids (if _ then _ else _)
    split
    · exact ok _
    · exact error id id

theorem literal (value : Tensor) : FailsUnnamed graph ids value.literal := by
  unfold Tensor.literal
  split
  · exact error id id
  · split
    · exact error id id
    · exact ok _

theorem requestParameter (spec : Parameter) (name : Option String) :
    FailsUnnamed graph ids (ComputeGraph.requestParameter spec name).result := by
  unfold ComputeGraph.requestParameter
  split
  · exact error id id
  · rw [requestUninitialised_eq]
    exact ok _
  · refine andThen (requireShapeOf _ _) fun _ => ?_
    split
    · exact error id id
    · exact andThen (literal _) fun _ => andThen (ok _) fun _ => ok _

theorem sampleShape (samples : Tensor) (axis : Option NodeId) :
    FailsUnnamed graph ids (samples.sampleShape axis) := by
  unfold Tensor.sampleShape
  split
  · exact error id id
  · exact ok _

theorem declaration (declaration : Declaration) (name : Option String) :
    FailsUnnamed graph ids (declaration.request graph name).result := by
  cases declaration with
  | input shape axis => exact requestInput .input shape axis name
  | sparseInput shape axis => exact requestInput .sparseInput shape axis name
  | inputForSamples samples axis =>
    exact andThen (sampleShape samples axis) fun shape => requestInput .input shape axis name
  | dynamicAxis => exact ok _
  | parameter spec => exact requestParameter spec name

theorem requireRange (start stop axis extent : Int) :
    FailsUnnamed graph ids (ComputeGraph.requireRange start stop axis extent) := by
  unfold ComputeGraph.requireRange
  split
  · exact error id id
  · exact ok _

theorem engineOutputRank (leftRank outputRank : Nat) :
    FailsUnnamed graph ids (ComputeGraph.engineOutputRank leftRank outputRank) := by
  unfold ComputeGraph.engineOutputRank
  split
  · exact error id id
  · exact ok _

theorem unary (strict : Bool) (operator : UnaryOperator) {x : NodeId} (hx : x ∈ ids)
    (name : Option String) :
    FailsUnnamed graph ids (operator.request strict graph x name).result := by
  cases operator with
  | delayed direction dims timeStep outside =>
    rw [UnaryOperator.request, requestDelayed_eq]
    exact ok _
  | reshape target =>
    exact andThen (get x) fun _ =>
      andThen (shapeOrUnknown fun _ => Extents.reshape_eq_error) fun _ => ok _
  | transpose axis1 axis2 =>
    exact andThen (knownShape hx _) fun _ => andThen (markAxis _ axis1) fun _ =>
      andThen (ofHost axis2 _) fun _ => ok _
  | slice start stop axis =>
    exact andThen (knownShape hx _) fun _ => andThen (markAxis _ axis) fun _ =>
      andThen (requireRange start stop axis _) fun _ => ok _
  | _ => exact ok _

theorem binary (strict : Bool) (operator : BinaryOperator) {left right : NodeId}
    (hleft : left ∈ ids) (name : Option String) :
    FailsUnnamed graph ids (operator.request strict graph left right name).result := by
  cases operator with
  | combine combination => exact ok _
  | times outputRank =>
    exact andThen (knownShape hleft _) fun _ => andThen (engineOutputRank _ outputRank) fun _ =>
      andThen (get right) fun _ =>
        andThen (shapeOrUnknown fun _ => productShape_eq_error) fun _ => ok _

end FailsUnnamed

/-- **Requests** are not refused for names, and lack no rank but those of their operands. -/
theorem Call.request_fails (call : Call) (strict : Bool) (graph : Graph) (ids : List NodeId) :
    FailsUnnamed graph ids (call.request strict graph ids).result := by
  unfold Call.request
  split
  · exact .declaration _ _
  · exact .unary _ _ List.mem_cons_self _
  · exact .binary _ _ List.mem_cons_self _
  · exact .ok _
  · exact .ok _
  · exact .error id id

theorem Registry.not_isRankUnknown {registry : Registry} {strict : Bool} {graph : Graph}
    {request : Request} {e : Error}
    (h : (registry.append strict graph request).result = .error e) : ¬ e.IsRankUnknown := by
  have hrefusal := isRefusal h
  intro hrank
  cases e <;> first | exact hrank.elim | exact hrefusal.elim

/-! ### Calls -/

/-- The kind of the node that an operand is. -/
def Operand.kind? (graph : Graph) : Operand → Option Kind
  | .node id => (graph.node? id).map Node.kind
  | .literal _ => none

/-- No operand of the call is a dynamic axis of the graph. -/
def Call.AvoidsAxes (graph : Graph) (call : Call) : Prop :=
  ∀ x ∈ call.operands, x.kind? graph ≠ some .dynamicAxis

instance (graph : Graph) (call : Call) : Decidable (call.AvoidsAxes graph) :=
  inferInstanceAs (Decidable (∀ x ∈ call.operands, x.kind? graph ≠ some .dynamicAxis))

/-- The operands of a call are nodes that it is given, or new ones. -/
theorem mem_operandIds {next id : NodeId} {operands : List Operand}
    (h : id ∈ operandIds next operands) : .node id ∈ operands ∨ next ≤ id := by
  induction operands generalizing next with
  | nil => cases h
  | cons x operands ih =>
    cases x with
    | node i =>
      rcases List.mem_cons.1 h with rfl | h
      · exact .inl List.mem_cons_self
      · exact (ih h).imp_left (List.mem_cons_of_mem _)
    | literal value =>
      rcases List.mem_cons.1 h with rfl | h
      · exact .inr (Nat.le_refl _)
      · refine (ih h).imp (List.mem_cons_of_mem _) fun hle => ?_
        exact Nat.le_of_succ_le hle

theorem Node.IsConstant.hostShape_ne_none {value : Tensor} {node : Node}
    (h : node.IsConstant value) : node.hostShape ≠ none := by
  rw [h.hostShape_eq]
  exact Option.some_ne_none _

theorem hostShape_ne_none_of_constants {values : List Tensor} {constants : List Node}
    (h : List.Forall₂ Node.IsConstant values constants) :
    ∀ node ∈ constants, node.hostShape ≠ none := by
  induction h with
  | nil => simp
  | cons hhead _ ih => exact List.forall_mem_cons.2 ⟨hhead.hostShape_ne_none, ih⟩

/-- Constants keep the shapes known. -/
theorem Graph.IsComplete.constants {graph after : Graph} {values : List Tensor}
    {constants : List Node} (h : graph.IsComplete) (happends : graph.Appends constants after)
    (hall : List.Forall₂ Node.IsConstant values constants) : after.IsComplete := by
  intro node hnode hnone
  rw [happends.nodes_eq, List.mem_append] at hnode
  rcases hnode with hnode | hnode
  · exact h node hnode hnone
  · exact absurd hnone (hostShape_ne_none_of_constants hall node hnode)

/-- The operands of a call that avoids dynamic axes have known shapes. -/
theorem Graph.IsComplete.not_isUnknown {graph mid : Graph} {call : Call} {values : List Tensor}
    {constants : List Node} (h : graph.IsComplete) (havoids : call.AvoidsAxes graph)
    (happends : graph.Appends constants mid)
    (hall : List.Forall₂ Node.IsConstant values constants) :
    ∀ id ∈ operandIds graph.size call.operands, ¬ mid.IsUnknown id := by
  intro id hid hunknown
  obtain ⟨node, hnode, hnone⟩ := hunknown
  have hnew : id < graph.size ∨ node ∈ constants := by
    unfold node? at hnode
    rw [happends.nodes_eq, List.getElem?_append] at hnode
    split at hnode
    · rename_i hlt
      exact .inl hlt
    · exact .inr (List.mem_of_getElem? hnode)
  rcases hnew with hlt | hmem
  · rcases mem_operandIds hid with hgiven | hle
    · have hold : graph.node? id = some node := by
        unfold node? at hnode ⊢
        rw [happends.nodes_eq, List.getElem?_append_left hlt] at hnode
        exact hnode
      refine havoids _ hgiven ?_
      rw [Operand.kind?, hold, Option.map_some, h node (List.mem_of_getElem? hold) hnone]
    · exact absurd hlt (Nat.not_lt.2 hle)
  · exact hostShape_ne_none_of_constants hall node hmem hnone

theorem Call.mem_of_mem_inputs {call : Call} (htyped : call.IsTyped) {ids : List NodeId}
    {id : NodeId} (h : id ∈ call.inputs ids) : id ∈ ids := by
  cases call with
  | declare declaration name => cases h
  | unary operator x name => exact h
  | binary operator left right name =>
    cases operator with
    | combine combination => exact h
    | times outputRank => exact List.mem_reverse.1 h
  | ternary operator first second third name => exact h
  | add request => exact htyped.elim

namespace Settings

variable {settings : Settings} {graph after : Graph} {call : Call} {id : NodeId} {e : Error}

/-- The request of a call is one of those that declarations and operators make. -/
theorem asks_of_request (htyped : call.IsTyped) {ids : List NodeId} {request : Request}
    (h : (call.request settings.options.validateShapes graph ids).result = .ok request) :
    settings.Asks graph request := by
  unfold Call.request at h
  split at h
  · exact .declare h
  · exact .unary h
  · exact .binary h
  · cases h
    exact .ternary _ _ _ _ _
  · exact htyped.elim
  · cases h

theorem constant_complete {value : Tensor} {name : Option String} (h : graph.IsComplete) :
    (settings.constant value name graph).graph.IsComplete := by
  cases hresult : (settings.constant value name graph).result with
  | ok id =>
    obtain ⟨node, hconstant, -, -, happends⟩ := constant_yields ⟨hresult, rfl⟩
    exact h.constants happends (.cons hconstant .nil)
  | error e =>
    rw [← constant_fails ⟨hresult, rfl⟩]
    exact h

/-- A constant is never refused for lack of a rank. -/
theorem constant_needs {value : Tensor} {name : Option String}
    (h : (settings.constant value name).Fails graph e after) : ¬ e.IsRankUnknown := by
  rcases Build.fails_bind.1 h with h | ⟨request, mid, -, hadd⟩
  · intro hrank
    have hfails : FailsUnnamed graph [] _ := .declaration (.parameter (.constant value)) name
    obtain ⟨id, hid, -⟩ := (hfails e h.1).2 hrank
    cases hid
  · exact Registry.not_isRankUnknown (Build.fails_change.1 hadd).1

theorem resolveAll_needs {operands : List Operand}
    (h : (settings.resolveAll operands).Fails graph e after) : ¬ e.IsRankUnknown := by
  rcases resolveAll_error h with ⟨id, rfl⟩ | ⟨value, mid, hconstant⟩
  · exact fun hrank => hrank
  · exact constant_needs hconstant

/-- **A call that is not folded** and avoids dynamic axes keeps all shapes known. -/
theorem performStages_complete (hstandard : settings.registry = .standard)
    (hstrict : settings.options.validateShapes = true) (htyped : call.IsTyped)
    (h : graph.IsComplete) (havoids : call.AvoidsAxes graph) :
    (settings.performStages call graph).graph.IsComplete := by
  cases hresult : (settings.performStages call graph).result with
  | ok id =>
    obtain ⟨constants, mid, request, node, happends, hall, hrequest, hgrants, -, hafter⟩ :=
      performStages_yields ⟨hresult, rfl⟩
    have hmid := h.constants happends hall
    have hinputs := h.not_isUnknown havoids happends hall
    have hexplained : node.IsExplained mid :=
      isExplained_of_answers hstandard hstrict ⟨request, asks_of_request htyped hrequest, hgrants⟩
    obtain ⟨-, -, hsays⟩ := Call.request_says hrequest
    obtain ⟨-, -, htakes, -⟩ := takes_over_of_grants hgrants
    rw [hafter]
    intro node' hnode' hnone
    rcases List.mem_append.1 hnode' with hnode' | hnode'
    · exact hmid node' hnode' hnone
    · rw [List.mem_singleton.1 hnode'] at hnone ⊢
      rcases hexplained hnone with haxis | ⟨input, hinput, hunknown⟩
      · exact haxis
      · rw [htakes, hsays] at hinput
        exact absurd hunknown (hinputs input (Call.mem_of_mem_inputs htyped hinput))
  | error e =>
    obtain ⟨k, constants, happends, hall, -⟩ := performStages_fails ⟨hresult, rfl⟩
    exact h.constants happends hall

theorem performStages_needs (h : graph.IsComplete) (havoids : call.AvoidsAxes graph)
    (hfails : (settings.performStages call).Fails graph e after) : ¬ e.IsRankUnknown := by
  unfold performStages at hfails
  split at hfails
  · rename_i error hrefusal
    cases hfails.1
    obtain ⟨kind, rfl⟩ := Call.exists_of_refusal?_eq_some hrefusal
    exact fun hrank => hrank
  · rcases Build.fails_bind.1 hfails with hfails | ⟨ids, mid, hids, hfails⟩
    · exact resolveAll_needs hfails
    · obtain ⟨constants, happends, hall, rfl⟩ := resolveAll_yields hids
      rcases Build.fails_bind.1 hfails with hfails | ⟨request, mid', -, hadd⟩
      · intro hrank
        obtain ⟨id, hid, hunknown⟩ := (call.request_fails _ _ _ e hfails.1).2 hrank
        exact h.not_isUnknown havoids happends hall id hid hunknown
      · exact Registry.not_isRankUnknown (Build.fails_change.1 hadd).1

/-- **Every call** that avoids dynamic axes keeps all shapes known, and lacks no rank. -/
theorem perform_complete (hstandard : settings.registry = .standard)
    (hstrict : settings.options.validateShapes = true) (htyped : call.IsTyped)
    (h : graph.IsComplete) (havoids : call.AvoidsAxes graph) :
    (settings.perform call graph).graph.IsComplete ∧
      ∀ e, (settings.perform call graph).result = .error e → ¬ e.IsRankUnknown := by
  cases hfold : settings.foldedCall? call with
  | some folded =>
    obtain ⟨hgraph, hresult⟩ := perform_of_folded hfold graph
    rw [hgraph, hresult]
    exact ⟨constant_complete h, fun e he => constant_needs ⟨he, rfl⟩⟩
  | none =>
    rw [perform_of_unfolded hfold]
    exact ⟨performStages_complete hstandard hstrict htyped h havoids,
      fun e he => performStages_needs h havoids ⟨he, rfl⟩⟩

end Settings

/-! ### Runs -/

/-- Every node of a run leaves its shape unknown only for a reason. -/
theorem Builder.isExplained_runAll {builder : Builder} {calls : List Call}
    (hstandard : builder.registry = .standard) (hstrict : builder.options.validateShapes = true)
    (htyped : ∀ call ∈ calls, call.IsTyped)
    (h : ∀ node ∈ builder.graph.nodes, node.IsExplained builder.graph) :
    ∀ node ∈ (builder.runAll calls).graph.nodes,
      node.IsExplained (builder.runAll calls).graph := by
  have hgrows : Graph.Grows builder.toSettings.Answers builder.graph (builder.runAll calls).graph :=
    Builder.runAll_grows htyped
  exact (hgrows.mono fun _ _ h => Settings.isExplained_of_answers hstandard hstrict h).forall_mem
    Node.IsExplained.mono h

/-- The call does not fail for lack of a rank. -/
def Builder.FindsRanks (builder : Builder) (call : Call) : Prop :=
  ∀ e, (builder.outcome call).result = .error e → ¬ e.IsRankUnknown

/-- No operand of the call is a dynamic axis of the graph of the builder. -/
def Builder.AvoidsAxes (builder : Builder) (call : Call) : Prop :=
  call.AvoidsAxes builder.graph

/-- A run whose calls avoid dynamic axes keeps all shapes known, and its calls lack no rank. -/
theorem Builder.complete_runAll {builder : Builder} {calls : List Call}
    (hstandard : builder.registry = .standard) (hstrict : builder.options.validateShapes = true)
    (htyped : ∀ call ∈ calls, call.IsTyped) (h : builder.graph.IsComplete)
    (havoids : builder.Throughout AvoidsAxes calls) :
    (builder.runAll calls).graph.IsComplete ∧ builder.Throughout FindsRanks calls := by
  induction calls generalizing builder with
  | nil => exact ⟨h, trivial⟩
  | cons call calls ih =>
    obtain ⟨hcall, hcalls⟩ := List.forall_mem_cons.1 htyped
    obtain ⟨havoid, havoids⟩ := havoids
    obtain ⟨hcomplete, hfinds⟩ :=
      Settings.perform_complete hstandard hstrict hcall h havoid
    obtain ⟨hfinal, hrest⟩ :=
      @ih (builder.run call) hstandard hstrict hcalls hcomplete havoids
    exact ⟨hfinal, hfinds, hrest⟩

/-- **Strict builders.** In every run of declarations and operators, the shape of a node is unknown
only if it is a dynamic axis or the shape of one of its operands is unknown. If no call has a
dynamic axis as operand, so that no node has one behind it either, then the shape of every node but
the dynamic axes is known, and no call fails for lack of a rank. -/
theorem shapes_explained_and_complete (options : Options) (calls : List Call)
    (hstrict : options.validateShapes = true) (htyped : ∀ call ∈ calls, call.IsTyped) :
    (∀ node ∈ (Builder.runAll { options } calls).graph.nodes,
        node.IsExplained (Builder.runAll { options } calls).graph) ∧
      (Builder.Throughout Builder.AvoidsAxes { options } calls →
        (Builder.runAll { options } calls).graph.IsComplete ∧
          Builder.Throughout Builder.FindsRanks { options } calls) := by
  refine ⟨Builder.isExplained_runAll rfl hstrict htyped ?_, fun havoids =>
    Builder.complete_runAll rfl hstrict htyped ?_ havoids⟩
  · intro node hnode
    cases hnode
  · intro node hnode
    cases hnode

/-- A product of an input along a dynamic axis and its transposition. -/
theorem shapes_explained_and_complete_product :
    let calls : List Call :=
      [.declare .dynamicAxis (some "axis"),
        .declare (.input (.dims [2, 3]) (some 0)) (some "x"),
        .unary (.transpose 0 1) (.node 1) none, .binary (.times 1) (.node 1) (.node 2) none]
    (∀ call ∈ calls, call.IsTyped) ∧ Builder.Throughout Builder.AvoidsAxes {} calls ∧
      (Builder.runAll {} calls).graph.nodes.map Node.hostShape =
        [none, some [2, 3], some [3, 2], some [2, 2]] ∧
      (Builder.runAll {} calls).graph.IsComplete ∧
      Builder.Throughout Builder.FindsRanks {} calls := by
  intro calls
  have htyped : ∀ call ∈ calls, call.IsTyped := by simp [calls, Call.IsTyped]
  have havoids : Builder.Throughout Builder.AvoidsAxes {} calls := by
    unfold Builder.AvoidsAxes
    exact ⟨by decide +kernel, by decide +kernel, by decide +kernel, by decide +kernel, trivial⟩
  have hshapes : (Builder.runAll {} calls).graph.nodes.map Node.hostShape =
      [none, some [2, 3], some [3, 2], some [2, 2]] := by decide +kernel
  exact ⟨htyped, havoids, hshapes, (shapes_explained_and_complete {} calls rfl htyped).2 havoids⟩

end ComputeGraph
