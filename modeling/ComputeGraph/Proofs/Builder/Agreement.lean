import ComputeGraph.Proofs.Builder.Fits
import ComputeGraph.Proofs.Builder.Growth
import ComputeGraph.Proofs.Builder.Requests
import ComputeGraph.Proofs.Graph.WellFormed
import ComputeGraph.Proofs.Shape.Broadcast

/-!
# The nodes of declarations and operators fit

Every node that a declaration or an operator appends fits its attributes and operands, also the
constants for literal operands and the nodes that a failing call leaves behind, and it stays so
whatever is called afterwards.

* `Request.Declares`, `Request.Defers` — whether a request or the rule of its kind says the shape;
* `declaration_declares`, `unary_declares_or_defers`, `binary_declares_or_defers` — which of the two
  the requests of each call do;
* `OutputRule.fits_of_infer` — shapes that a rule gives;
* `Settings.fits_of_rule`, `Settings.fits_of_declaration` — the two ways to get a shape;
* **`Settings.fits_of_answers`** — the answers to requests of declarations and operators;
* **`appended_fits`** — the nodes of a run.
-/

namespace ComputeGraph

/-! ### Who says the shape -/

/-- Whether only a request can say the shape of a node of a kind. -/
def Kind.IsDeclared (kind : Kind) : Prop :=
  (Registry.standard.find? kind).map Operator.rule = some .declared

instance : DecidablePred Kind.IsDeclared :=
  fun _ => inferInstanceAs (Decidable (_ = _))

theorem Kind.isDeclared_iff {kind : Kind} {operator : Operator}
    (h : Registry.standard.find? kind = some operator) :
    kind.IsDeclared ↔ operator.rule = .declared := by
  unfold IsDeclared
  rw [h, Option.map_some, Option.some.injEq]

/-- A request says the shape of its node, and that shape belongs to its attributes. -/
def Request.Declares (graph : Graph) (request : Request) : Prop :=
  request.kind.IsDeclared ∧ (request.toNode graph request.hostShape).FitsDeclaration graph ∧
    (request.toNode graph request.hostShape).FitsAxis graph

/-- A request leaves the shape of its node to the rule of its kind. -/
def Request.Defers (request : Request) : Prop :=
  ¬ request.kind.IsDeclared ∧ request.hostShape = none ∧
    request.attributes.find? "dynamicAxis" = none

theorem Elementwise.not_isDeclared (f : Elementwise) : ¬ f.kind.IsDeclared := by
  cases f <;> decide

theorem Direction.not_isDeclared (direction : Direction) : ¬ direction.kind.IsDeclared := by
  cases direction <;> decide

theorem Combination.not_isDeclared (combination : Combination) :
    ¬ combination.kind.IsDeclared := by
  cases combination <;> decide

theorem TernaryOperator.not_isDeclared (operator : TernaryOperator) :
    ¬ operator.kind.IsDeclared := by
  cases operator <;> decide

/-! ### Requests -/

section Requests

variable {graph : Graph} {name : Option String} {request : Request}

theorem Node.fitsAxis_of_find?_eq_none {node : Node}
    (h : node.attributes.find? "dynamicAxis" = none) : node.FitsAxis graph := by
  intro value hvalue
  rw [h] at hvalue
  cases hvalue

theorem requestInput_declares {kind : Kind} {shape : Shape} {axis : Option NodeId}
    (hkind : kind = .input ∨ kind = .sparseInput)
    (h : (requestInput graph kind shape axis name).result = .ok request) :
    request.Declares graph := by
  obtain ⟨entries, hentries, rfl⟩ := requestInput_eq_ok.1 h
  have hshape : (Attributes.ofList ([("shape", .shape shape.toEngine)] ++ entries)).find? "shape" =
      some (.shape shape.toEngine) := by
    rcases Graph.axisAttribute_eq_ok.1 hentries with ⟨-, rfl⟩ | ⟨id, node, -, -, -, rfl⟩
    · simp [Attributes.ofList]
    · simp [Attributes.ofList]
  have haxis : ∀ value, (Attributes.ofList ([("shape", .shape shape.toEngine)] ++ entries)).find?
      "dynamicAxis" = some value → ∃ id target, value = .node id ∧ id < graph.size ∧
        graph.node? id = some target ∧ target.kind = .dynamicAxis := by
    intro value hvalue
    rcases Graph.axisAttribute_eq_ok.1 hentries with ⟨-, rfl⟩ | ⟨id, target, -, htarget, htag, rfl⟩
    · simp [Attributes.ofList] at hvalue
    · have hnode : Attribute.node id = value := by simpa [Attributes.ofList] using hvalue
      exact ⟨id, target, hnode.symm, Graph.lt_size_of_node? htarget, htarget, htag⟩
  have hextents : some shape.extents = some shape.toEngine.toHost.extents := by
    rw [Shape.toHost_toEngine]
  rcases hkind with rfl | rfl
  · exact ⟨rfl, ⟨rfl, shape.toEngine, hshape, hextents⟩, haxis⟩
  · exact ⟨rfl, ⟨rfl, shape.toEngine, hshape, hextents⟩, haxis⟩

theorem requestParameter_declares {spec : Parameter}
    (h : (requestParameter spec name).result = .ok request) : request.Declares graph := by
  rcases requestParameter_eq_ok.1 h with ⟨-, shape, -, h⟩ | ⟨value, -, -, -, h⟩
  · rw [requestUninitialised_eq, Except.ok.injEq] at h
    subst h
    refine ⟨rfl, ⟨rfl, shape.toEngine, ?_, ?_⟩, Node.fitsAxis_of_find?_eq_none ?_⟩
    · cases spec.file <;> simp [Request.toNode, Attributes.ofList, initialisationOf]
    · rw [Shape.toHost_toEngine]
      rfl
    · cases spec.file <;> simp [Request.toNode, Attributes.ofList, initialisationOf]
  · obtain ⟨literal, hliteral, rfl⟩ := requestInitialised_eq_ok.1 h
    obtain ⟨-, hshape, -⟩ := Tensor.literal_eq_ok.1 hliteral
    refine ⟨rfl, ⟨rfl, literal.shape, ?_, ?_⟩, Node.fitsAxis_of_find?_eq_none ?_⟩
    · simp [Request.toNode, Attributes.ofList]
    · rw [hshape, Shape.toHost_toEngine]
      rfl
    · simp [Request.toNode, Attributes.ofList]

theorem declaration_declares {declaration : Declaration}
    (h : (declaration.request graph name).result = .ok request) : request.Declares graph := by
  cases declaration with
  | input shape axis => exact requestInput_declares (.inl rfl) h
  | sparseInput shape axis => exact requestInput_declares (.inr rfl) h
  | inputForSamples samples axis =>
    obtain ⟨shape, -, h⟩ := Attempt.bind_eq_ok.1 h
    exact requestInput_declares (.inl rfl) h
  | dynamicAxis =>
    cases h
    exact ⟨rfl, ⟨rfl, rfl⟩, Node.fitsAxis_of_find?_eq_none rfl⟩
  | parameter spec => exact requestParameter_declares h

theorem requestReshape_declares {strict : Bool} {target : Shape} {x : NodeId}
    (h : (requestReshape strict graph target x name).result = .ok request) :
    request.Declares graph := by
  obtain ⟨operand, shape, hoperand, hshape, rfl⟩ := requestReshape_eq_ok.1 h
  refine ⟨rfl, ⟨x, operand, target.forEngine .target, rfl, hoperand, ?_, ?_⟩,
    Node.fitsAxis_of_find?_eq_none ?_⟩
  · simp [Request.toNode, Attributes.ofList]
  · intro known hknown
    -- a target is passed to the engine as it is
    have htarget : (target.forEngine .target).extents = target.extents := by
      cases target <;> rfl
    rw [htarget]
    rcases hshape with hshape | ⟨-, -, hnone⟩
    · have hknown : shape = some known := hknown
      rw [hknown] at hshape
      exact Extents.reshape_eq_some hshape
    · have hknown : shape = some known := hknown
      rw [hnone] at hknown
      cases hknown
  · simp [Request.toNode, Attributes.ofList]

theorem requestTranspose_declares {axis1 axis2 : Int} {x : NodeId}
    (h : (requestTranspose graph axis1 axis2 x name).result = .ok request) :
    request.Declares graph := by
  obtain ⟨shape, engineAxis1, engineAxis2, hshape, haxis1, haxis2, rfl⟩ :=
    requestTranspose_eq_ok.1 h
  obtain ⟨hhost1, hlt1⟩ := EngineAxis.toHost_of_ofHost haxis1
  obtain ⟨hhost2, hlt2⟩ := EngineAxis.toHost_of_ofHost haxis2
  rw [← hhost1] at hlt1 ⊢
  rw [← hhost2] at hlt2 ⊢
  refine ⟨rfl, ⟨x, shape, engineAxis1, engineAxis2, rfl, hshape, ?_, ?_, hlt1, hlt2, rfl⟩,
    Node.fitsAxis_of_find?_eq_none ?_⟩
  · simp [Request.toNode, Attributes.ofList]
  · simp [Request.toNode, Attributes.ofList]
  · simp [Request.toNode, Attributes.ofList]

theorem requestSlice_declares {start stop axis : Int} {x : NodeId}
    (h : (requestSlice graph start stop axis x name).result = .ok request) :
    request.Declares graph := by
  obtain ⟨shape, engineAxis, hshape, haxis, hstart, hstop, hextent, rfl⟩ := requestSlice_eq_ok.1 h
  obtain ⟨hhost, hlt⟩ := EngineAxis.toHost_of_ofHost haxis
  have hold : shape[axis.toNat]? = some (shape.getD axis.toNat 0) := by
    rw [List.getD_eq_getElem?_getD, List.getElem?_eq_getElem hlt]
    rfl
  have hwithin : stop ≤ (shape.getD axis.toNat 0).toNat := Int.le_trans hextent (signedWord_le _)
  have hnew := toNat_rangeLength hstart hstop hextent
  rw [← hhost] at hold hwithin ⊢
  refine ⟨rfl, ⟨x, shape, start, stop, engineAxis, _, _, rfl, hshape, ?_, ?_, ?_, hold, hstart,
    hstop, hwithin, hnew, rfl⟩, Node.fitsAxis_of_find?_eq_none ?_⟩
  · simp [Request.toNode, Attributes.ofList]
  · simp [Request.toNode, Attributes.ofList]
  · simp [Request.toNode, Attributes.ofList]
  · simp [Request.toNode, Attributes.ofList]

theorem requestTimes_declares {strict : Bool} {outputRank : Nat} {left right : NodeId}
    (h : (requestTimes strict graph outputRank left right name).result = .ok request) :
    request.Declares graph := by
  obtain ⟨leftShape, engineRank, rightNode, shape, hleft, hrank, hright, hshape, rfl⟩ :=
    requestTimes_eq_ok.1 h
  obtain ⟨hpos, hle, rfl⟩ := engineOutputRank_eq_ok.1 hrank
  refine ⟨rfl, ⟨right, left, leftShape, leftShape.length + 1 - outputRank, rfl, hleft, ?_, ?_, ?_,
    ?_⟩, Node.fitsAxis_of_find?_eq_none ?_⟩
  · simp [Request.toNode, Attributes.ofList]
  · omega
  · omega
  · intro known hknown
    have hback : leftShape.length + 1 - (leftShape.length + 1 - outputRank) = outputRank := by
      omega
    rw [hback]
    have hknown : shape = some known := hknown
    rcases hshape with hshape | ⟨-, -, hnone⟩
    · rw [hknown] at hshape
      unfold productShape at hshape
      cases hrightShape : rightNode.hostShape with
      | none =>
        rw [hrightShape] at hshape
        cases hshape
      | some rightShape =>
        rw [hrightShape] at hshape
        obtain ⟨found, hproduct, hfound⟩ := except_map_eq_ok.1 hshape
        cases hfound
        exact ⟨rightShape, ⟨rightNode, hright, hrightShape⟩, hproduct⟩
    · rw [hnone] at hknown
      cases hknown
  · simp [Request.toNode, Attributes.ofList]

theorem unary_declares_or_defers {strict : Bool} {operator : UnaryOperator} {x : NodeId}
    (h : (operator.request strict graph x name).result = .ok request) :
    request.Declares graph ∨ request.Defers := by
  cases operator with
  | apply f =>
    cases h
    exact .inr ⟨f.not_isDeclared, rfl, rfl⟩
  | softmax =>
    cases h
    have hrule : ¬ Kind.softmax.IsDeclared := by decide
    exact .inr ⟨hrule, rfl, rfl⟩
  | dropout =>
    cases h
    have hrule : ¬ Kind.dropout.IsDeclared := by decide
    exact .inr ⟨hrule, rfl, rfl⟩
  | delayed direction dims timeStep outside =>
    rw [UnaryOperator.request, requestDelayed_eq, Except.ok.injEq] at h
    subst h
    exact .inr ⟨direction.not_isDeclared, rfl, by simp [Attributes.ofList]⟩
  | reshape target => exact .inl (requestReshape_declares h)
  | transpose axis1 axis2 => exact .inl (requestTranspose_declares h)
  | slice start stop axis => exact .inl (requestSlice_declares h)

theorem binary_declares_or_defers {strict : Bool} {operator : BinaryOperator}
    {left right : NodeId}
    (h : (operator.request strict graph left right name).result = .ok request) :
    request.Declares graph ∨ request.Defers := by
  cases operator with
  | combine combination =>
    cases h
    exact .inr ⟨combination.not_isDeclared, rfl, rfl⟩
  | times outputRank => exact .inl (requestTimes_declares h)

theorem ternary_defers (operator : TernaryOperator) (first second third : NodeId) :
    (operator.request first second third name).Defers :=
  ⟨operator.not_isDeclared, rfl, rfl⟩

end Requests

/-! ### The two ways to get a shape -/

/-- A shape that is inferred, or left open because it cannot be, is the one of the rule. -/
theorem OutputRule.fits_of_infer {graph : Graph} {node : Node} {rule : OutputRule}
    {shapes : List (Option Extents)} (hshapes : graph.hostShapes node.inputs = .ok shapes)
    (hdeclared : rule ≠ .declared) (hoperand : rule = .preserve → node.inputs ≠ [])
    (hshape : rule.infer shapes = .ok node.hostShape ∨
      (∃ e, rule.infer shapes = .error e) ∧ node.hostShape = none) : rule.Fits graph node := by
  have hall := Graph.hostShapes_eq_ok.1 hshapes
  cases rule with
  | preserve =>
    obtain ⟨first, rest, hinputs⟩ := List.exists_cons_of_ne_nil (hoperand rfl)
    rw [hinputs] at hall
    obtain ⟨shape, others, ⟨operand, hnode, hoperandShape⟩, -, rfl⟩ :=
      List.forall₂_cons_left_iff.1 hall
    rcases hshape with h | ⟨⟨e, h⟩, -⟩
    · exact ⟨first, rest, operand, hinputs, hnode, (Except.ok.inj h).symm.trans hoperandShape.symm⟩
    · cases h
  | broadcast =>
    intro shape hknown
    rcases hshape with h | ⟨-, h⟩
    · rw [hknown] at h
      obtain ⟨known, rfl, hfold⟩ := broadcastAll_eq_some.1 h
      rw [List.forall₂_map_right_iff] at hall
      exact ⟨known, hall, hfold⟩
    · rw [hknown] at h
      cases h
  | scalar =>
    rcases hshape with h | ⟨⟨e, h⟩, -⟩
    · exact (Except.ok.inj h).symm
    · cases h
  | declared => exact absurd rfl hdeclared

/-- Operators that keep the shape of their first operand have one. -/
theorem Registry.arity_pos_of_preserve {kind : Kind} {operator : Operator}
    (h : Registry.standard.find? kind = some operator) (hrule : operator.rule = .preserve) :
    0 < operator.arity := by
  have hall : ∀ operator ∈ standardOperators, operator.rule = .preserve → 0 < operator.arity := by
    decide
  exact hall operator (List.mem_of_find?_eq_some h) hrule

namespace Settings

variable {settings : Settings} {graph : Graph} {request : Request} {node : Node}

/-- A node whose shape is not declared fits by the rule of its kind. -/
theorem fits_of_rule (hstandard : settings.registry = .standard)
    (h : settings.Grants graph request node) (hdefers : request.Defers) : node.Fits graph := by
  obtain ⟨hrule, hnone, haxis⟩ := hdefers
  obtain ⟨operator, shapes, shape, hoperator, hvalid, hshapes, hshape, hnode⟩ :=
    eq_toNode_of_grants h
  rw [hstandard] at hoperator
  obtain ⟨-, harity, -⟩ := Operator.validate_eq_ok.1 hvalid
  rw [Kind.isDeclared_iff hoperator] at hrule
  rw [Operator.inferShape_of_eq_none hnone] at hshape
  subst hnode
  refine ⟨⟨operator, hoperator, harity, ?_⟩, Node.fitsAxis_of_find?_eq_none haxis⟩
  refine OutputRule.fits_of_infer hshapes hrule ?_ (hshape.imp id fun h => ⟨h.1, h.2.2⟩)
  intro hpreserve hnil
  have hpos := Registry.arity_pos_of_preserve hoperator hpreserve
  have hnil : request.inputs = [] := hnil
  rw [← harity, hnil] at hpos
  exact absurd hpos (Nat.lt_irrefl 0)

/-- A node whose request alone can say its shape fits if that shape belongs to its attributes. -/
theorem fits_of_declaration (hstandard : settings.registry = .standard)
    (h : settings.Grants graph request node) (hdeclares : request.Declares graph) :
    node.Fits graph := by
  obtain ⟨hrule, hdeclaration, haxis⟩ := hdeclares
  obtain ⟨operator, shapes, shape, hoperator, hvalid, hshapes, hshape, hnode⟩ :=
    eq_toNode_of_grants h
  rw [hstandard] at hoperator
  obtain ⟨-, harity, -⟩ := Operator.validate_eq_ok.1 hvalid
  rw [Kind.isDeclared_iff hoperator] at hrule
  have hinfer : operator.inferShape request shapes = .ok request.hostShape := by
    cases h : request.hostShape with
    | none =>
      rw [Operator.inferShape_of_eq_none h, hrule]
      rfl
    | some shape => rw [Operator.inferShape_of_eq_some h]
  have hfound : shape = request.hostShape := by
    rw [hinfer] at hshape
    rcases hshape with h | ⟨⟨e, h⟩, -⟩
    · exact (Except.ok.inj h).symm
    · cases h
  subst hnode hfound
  refine ⟨⟨operator, hoperator, harity, ?_⟩, haxis⟩
  rw [hrule]
  exact hdeclaration

theorem declares_or_defers_of_asks (h : settings.Asks graph request) :
    request.Declares graph ∨ request.Defers := by
  cases h with
  | declare h => exact .inl (declaration_declares h)
  | unary h => exact unary_declares_or_defers h
  | binary h => exact binary_declares_or_defers h
  | ternary operator first second third name =>
    exact .inr (ternary_defers operator first second third)

/-- **Answers to declarations and operators** fit. -/
theorem fits_of_answers (hstandard : settings.registry = .standard)
    (h : settings.Answers graph node) : node.Fits graph := by
  obtain ⟨request, hasks, hgrants⟩ := h
  rcases declares_or_defers_of_asks hasks with hdeclares | hdefers
  · exact fits_of_declaration hstandard hgrants hdeclares
  · exact fits_of_rule hstandard hgrants hdefers

end Settings

/-! ### Runs -/

/-- What every appended node is related by, and more nodes do not change, holds of all of them. -/
theorem Graph.Grows.of_mem_drop {related : Graph → Node → Prop} {graph after : Graph}
    (h : graph.Grows related after)
    (hmono : ∀ {graph after node}, graph.nodes <+: after.nodes → related graph node →
      related after node) :
    ∀ node ∈ after.nodes.drop graph.size, related after node := by
  induction h with
  | refl =>
    intro node hnode
    rw [Graph.size, List.drop_length] at hnode
    cases hnode
  | @snoc mid _ new grown hnew hpush ih =>
    obtain ⟨-, -, -, rfl⟩ := Graph.push_eq_ok.1 hpush
    intro node hnode
    have hextends : mid.nodes <+: (mid.snoc new).nodes := List.prefix_append _ _
    rw [Graph.snoc, List.drop_append_of_le_length grown.size_le, List.mem_append,
      List.mem_singleton] at hnode
    rcases hnode with hold | rfl
    · exact hmono hextends (ih node hold)
    · exact hmono hextends hnew

/-- It holds of all nodes if it does of those that were there. -/
theorem Graph.Grows.forall_mem {related : Graph → Node → Prop} {graph after : Graph}
    (h : graph.Grows related after)
    (hmono : ∀ {graph after node}, graph.nodes <+: after.nodes → related graph node →
      related after node)
    (hgraph : ∀ node ∈ graph.nodes, related graph node) :
    ∀ node ∈ after.nodes, related after node := by
  have hnew := h.of_mem_drop hmono
  obtain ⟨nodes, hnodes⟩ := h.nodes_extend
  intro node hnode
  rw [← hnodes, List.mem_append] at hnode
  rcases hnode with hold | hadded
  · exact hmono h.nodes_extend (hgraph node hold)
  · refine hnew node ?_
    rw [← hnodes, Graph.size, List.drop_left]
    exact hadded

/-- A run of declarations and operators only appends answers to the requests that they make. -/
theorem Builder.runAll_grows {builder : Builder} {calls : List Call}
    (htyped : ∀ call ∈ calls, call.IsTyped) :
    Graph.Grows builder.toSettings.Answers builder.graph (builder.runAll calls).graph := by
  induction calls generalizing builder with
  | nil => exact .refl
  | cons call calls ih =>
    obtain ⟨hcall, hcalls⟩ := List.forall_mem_cons.1 htyped
    have hfirst := builder.toSettings.perform_grows_typed hcall builder.graph
    have hrest := @ih (builder.run call) hcalls
    exact hfirst.trans hrest

/-- The nodes that a call appends, whether it succeeds or not. -/
def Builder.appended (builder : Builder) (call : Call) : List Node :=
  (builder.run call).graph.nodes.drop builder.graph.size

theorem Builder.settings_runAll (builder : Builder) (calls : List Call) :
    (builder.runAll calls).toSettings = builder.toSettings := by
  induction calls generalizing builder with
  | nil => rfl
  | cons call calls ih => exact ih (builder.run call)

theorem Builder.runAll_append (builder : Builder) (calls more : List Call) :
    builder.runAll (calls ++ more) = (builder.runAll calls).runAll more :=
  List.foldl_append

theorem Builder.nodes_extend_runAll (builder : Builder) (calls : List Call) :
    builder.graph.nodes <+: (builder.runAll calls).graph.nodes := by
  induction calls generalizing builder with
  | nil => exact List.prefix_refl _
  | cons call calls ih =>
    exact (builder.toSettings.perform_grows call builder.graph).nodes_extend.trans
      (ih (builder.run call))

/-- **The nodes of a run.** Under any options, every node that a declaration or an operator appends
is in the graph under its id after whatever calls follow, and fits there. -/
theorem appended_fits (options : Options) (before after : List Call) (call : Call)
    (htyped : call.IsTyped) {node : Node}
    (hnode : node ∈ (Builder.runAll { options } before).appended call) :
    (Builder.runAll { options } (before ++ call :: after)).graph.node? node.id = some node ∧
      node.Fits (Builder.runAll { options } (before ++ call :: after)).graph := by
  have hstandard : (Builder.runAll { options } before).registry = .standard :=
    congrArg Settings.registry (Builder.settings_runAll _ before)
  have hgrows := Settings.perform_grows_typed (Builder.runAll { options } before).toSettings htyped
    (Builder.runAll { options } before).graph
  have hfits := (hgrows.mono fun _ _ h => Settings.fits_of_answers hstandard h).of_mem_drop
    Node.Fits.mono node hnode
  have hmem := List.mem_of_mem_drop hnode
  have hreachable : ((Builder.runAll { options } before).run call).graph.Reachable :=
    .call (Builder.reachable_runAll .empty before) _ call
  have hextends := ((Builder.runAll { options } before).run call).nodes_extend_runAll after
  rw [Builder.runAll_append]
  exact ⟨Graph.node?_of_extends hextends (hreachable.wellFormed.node?_id hmem), hfits.mono hextends⟩

/-- A product after two inputs and a declaration that fails for its name. -/
theorem appended_fits_product :
    let before : List Call :=
      [.declare (.input (.dims [2, 3]) none) (some "x"),
        .declare (.input (.dims [3, 4]) none) (some "y"), .declare .dynamicAxis (some "x")]
    let product : Call := .binary (.times 1) (.node 0) (.node 1) none
    let after : List Call := [.unary .softmax (.node 2) none]
    ∃ node, node ∈ (Builder.runAll {} before).appended product ∧
      node.inputs = [1, 0] ∧ node.hostShape = some [2, 4] ∧
      node.Fits (Builder.runAll {} (before ++ product :: after)).graph := by
  intro before product after
  have hlt : 0 < ((Builder.runAll {} before).appended product).length := by decide
  have hnode := List.getElem_mem hlt
  exact ⟨_, hnode, rfl, rfl, (appended_fits {} before after product trivial hnode).2⟩

end ComputeGraph
