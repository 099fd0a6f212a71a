import ComputeGraph.Proofs.Builder.Alike
import ComputeGraph.Proofs.Builder.Effect

/-!
# Two builders side by side

Two builders perform the same calls on graphs of their own. A world is what is known of the two
graphs at some time, and says which nodes of the one stand for which nodes of the other. What holds
of two builders in this way needs to be known of single nodes alone: that nodes that stand for each
other have the same shapes, and that both builders append the node of a request or neither does. It
then holds of every call, because a call looks at nothing else of a graph.

* `Agree` — attempts that succeed with related results or fail with similar errors;
* `SideBySide` — pairs of graphs that grow, `SideBySide.Carries` — work that leads from one to
  another;
* **`SideBySide.carries_bind`** — work in sequence;
* `Comparison` — what has to be known of single nodes;
* **`Comparison.request_agree`** — calls make requests that are the same up to the numbers of nodes;
* **`Comparison.perform_carries`** — every call.
-/

namespace ComputeGraph

/-! ### Attempts -/

/-- Attempts that succeed with related results, or fail with errors of the same category. -/
def Agree {α β : Type} (related : α → β → Prop) : Except Error α → Except Error β → Prop
  | .ok a, .ok b => related a b
  | .error e, .error e' => e.category = e'.category
  | _, _ => False

/-- Errors of the same category. -/
def Error.Similar (e e' : Error) : Prop :=
  e.category = e'.category

theorem Error.Similar.refl (e : Error) : e.Similar e :=
  rfl

namespace Agree

variable {α β : Type} {related : α → β → Prop}

theorem iff_agreeUpTo {x : Except Error α} {y : Except Error β} :
    Agree related x y ↔ AgreeUpTo Error.Similar related x y := by
  cases x <;> cases y <;> rfl

theorem imp {more : α → β → Prop} {x : Except Error α} {y : Except Error β}
    (h : Agree related x y) (himp : ∀ a b, related a b → more a b) : Agree more x y :=
  iff_agreeUpTo.2 ((iff_agreeUpTo.1 h).imp fun a b _ => himp a b)

end Agree

/-! ### Work on two graphs -/

/-- Pairs of graphs side by side, of which some are later than others, and errors that count as the
same. -/
structure SideBySide (World : Type) where
  left : World → Graph
  right : World → Graph
  Extends : World → World → Prop
  refl : ∀ w, Extends w w
  trans : ∀ {w mid after}, Extends w mid → Extends mid after → Extends w after
  errors : Error → Error → Prop
  errors_refl : ∀ e, errors e e

namespace SideBySide

variable {World : Type} {s : SideBySide World} {w : World} {α α' β β' : Type}
  {related : World → α → β → Prop} {related' : World → α' → β' → Prop}

/-- What is done to the two graphs leads to a later pair, and agrees in its result. -/
def Carries (s : SideBySide World) (w : World) (related : World → α → β → Prop)
    (x : Outcome α) (y : Outcome β) : Prop :=
  ∃ after, s.Extends w after ∧ s.left after = x.graph ∧ s.right after = y.graph ∧
    AgreeUpTo s.errors (related after) x.result y.result

/-- What is known of the work on the left, besides. -/
theorem Carries.and_left {x : Build α} {y : Outcome β} (holds : Graph → α → Prop)
    (h : s.Carries w related (x (s.left w)) y)
    (hx : ∀ a after, x.Yields (s.left w) a after → holds after a) :
    s.Carries w (fun after a b => related after a b ∧ holds (s.left after) a)
      (x (s.left w)) y := by
  obtain ⟨after, hextends, hleft, hright, hagree⟩ := h
  exact ⟨after, hextends, hleft, hright,
    hagree.imp fun a b ha hab => ⟨hab, hx a _ ⟨ha, hleft.symm⟩⟩⟩

theorem Carries.imp {more : World → α → β → Prop} {x : Outcome α} {y : Outcome β}
    (h : s.Carries w related x y) (himp : ∀ after a b, related after a b → more after a b) :
    s.Carries w more x y := by
  obtain ⟨after, hextends, hleft, hright, hagree⟩ := h
  exact ⟨after, hextends, hleft, hright, hagree.imp fun a b _ => himp after a b⟩

/-- Only the graphs and the results matter. -/
theorem Carries.congr {x x' : Outcome α} {y y' : Outcome β} (h : s.Carries w related x y)
    (hx : x'.graph = x.graph ∧ x'.result = x.result)
    (hy : y'.graph = y.graph ∧ y'.result = y.result) : s.Carries w related x' y' := by
  obtain ⟨after, hextends, hleft, hright, hagree⟩ := h
  refine ⟨after, hextends, hleft.trans hx.1.symm, hright.trans hy.1.symm, ?_⟩
  rw [hx.2, hy.2]
  exact hagree

/-- Work that fails with both. -/
theorem carries_of_fails {after : World} {x : Build α} {y : Build β} {e e' : Error}
    (hextends : s.Extends w after) (hx : x.Fails (s.left w) e (s.left after))
    (hy : y.Fails (s.right w) e' (s.right after)) (h : s.errors e e') :
    s.Carries w related (x (s.left w)) (y (s.right w)) := by
  refine ⟨after, hextends, hx.2.symm, hy.2.symm, ?_⟩
  rw [hx.1, hy.1]
  exact .error h

/-- Work that succeeds with both. -/
theorem carries_of_yields {after : World} {x : Build α} {y : Build β} {a : α} {b : β}
    (hextends : s.Extends w after) (hx : x.Yields (s.left w) a (s.left after))
    (hy : y.Yields (s.right w) b (s.right after)) (h : related after a b) :
    s.Carries w related (x (s.left w)) (y (s.right w)) := by
  refine ⟨after, hextends, hx.2.symm, hy.2.symm, ?_⟩
  rw [hx.1, hy.1]
  exact .ok h

/-- **Work in sequence.** -/
theorem carries_bind {x : Build α} {y : Build β} {f : α → Build α'} {g : β → Build β'}
    (h : s.Carries w related (x (s.left w)) (y (s.right w)))
    (hf : ∀ after a b, s.Extends w after → related after a b →
      s.Carries after related' (f a (s.left after)) (g b (s.right after))) :
    s.Carries w related' ((x >>= f) (s.left w)) ((y >>= g) (s.right w)) := by
  obtain ⟨after, hextends, hleft, hright, hagree⟩ := h
  rcases hagree.cases with ⟨a, b, hx, hy, hab⟩ | ⟨e, e', hx, hy, he⟩
  · obtain ⟨last, hlast, hleft', hright', hagree'⟩ := hf after a b hextends hab
    obtain ⟨hresult, hgraph⟩ := Build.bind_of_ok (f := f) hx
    obtain ⟨hresult', hgraph'⟩ := Build.bind_of_ok (f := g) hy
    rw [hleft] at hleft' hagree'
    rw [hright] at hright' hagree'
    refine ⟨last, s.trans hextends hlast, hleft'.trans hgraph.symm,
      hright'.trans hgraph'.symm, ?_⟩
    rw [hresult, hresult']
    exact hagree'
  · exact carries_of_fails hextends (Build.fails_bind.2 (.inl ⟨hx, hleft.symm⟩))
      (Build.fails_bind.2 (.inl ⟨hy, hright.symm⟩)) he

theorem carries_query {f : Graph → Attempt α} {g : Graph → Attempt β}
    (h : AgreeUpTo s.errors (related w) (f (s.left w)).result (g (s.right w)).result) :
    s.Carries w related (Build.query f (s.left w)) (Build.query g (s.right w)) :=
  ⟨w, s.refl w, rfl, rfl, h⟩

/-- Changes of which both are made or none is. -/
theorem carries_change {f : Graph → Attempt (α × Graph)} {g : Graph → Attempt (β × Graph)}
    {made : α × Graph → β × Graph → Prop}
    (h : AgreeUpTo s.errors made (f (s.left w)).result (g (s.right w)).result)
    (hmade : ∀ a b, made a b → ∃ after, s.Extends w after ∧ s.left after = a.2 ∧
      s.right after = b.2 ∧ related after a.1 b.1) :
    s.Carries w related (Build.change f (s.left w)) (Build.change g (s.right w)) := by
  rcases h.cases with ⟨a, b, hx, hy, hab⟩ | ⟨e, e', hx, hy, he⟩
  · obtain ⟨after, hextends, hleft, hright, hrelated⟩ := hmade a b hab
    exact carries_of_yields hextends (Build.yields_change.2 (hleft ▸ hx))
      (Build.yields_change.2 (hright ▸ hy)) hrelated
  · exact carries_of_fails (s.refl w) (Build.fails_change.2 ⟨hx, rfl⟩)
      (Build.fails_change.2 ⟨hy, rfl⟩) he

end SideBySide

/-! ### Nodes of alike requests -/

section Nodes

variable {refers : String → Bool} {errors : Error → Error → Prop}
  {related : NodeId → NodeId → Prop} {graph graph' : Graph}

/-- Operands of the same shapes, if they exist. -/
theorem hostShapes_agree
    (hget : ∀ {i j}, related i j → AgreeUpTo errors (fun p q => p.hostShape = q.hostShape)
      (graph.get i) (graph'.get j))
    {ids ids' : List NodeId} (h : List.Forall₂ related ids ids') :
    AgreeUpTo errors Eq (graph.hostShapes ids) (graph'.hostShapes ids') := by
  unfold Graph.hostShapes
  induction h with
  | nil => exact .ok rfl
  | @cons i j ids ids' hij _ ih =>
    rw [List.mapM_cons, List.mapM_cons]
    have hhead : AgreeUpTo errors Eq ((graph.get i).map Node.hostShape)
        ((graph'.get j).map Node.hostShape) := (hget hij).map fun _ _ hpq => hpq
    refine hhead.bind fun shape shape' hshape => ih.bind fun shapes shapes' hshapes => ?_
    rw [hshape, hshapes]
    exact .ok rfl

theorem Operator.validate_eq_of_alike {r r' : Request} (h : r.Alike refers related r')
    (operator : Operator) : operator.validate r = operator.validate r' := by
  have hmissing : operator.missing? r = operator.missing? r' := by
    unfold missing?
    congr 1
    funext key
    have hrel := h.attributes key
    revert hrel
    cases r.attributes.find? key <;> cases r'.attributes.find? key <;> intro hrel
    · rfl
    · cases hrel
    · cases hrel
    · rfl
  unfold validate
  rw [h.kind_eq, h.inputs.length_eq, hmissing]

/-- Two names of which each is free in its graph, or each is in use. -/
def SameUse (errors : Error → Error → Prop) (graph graph' : Graph) (x y : Option String) : Prop :=
  (graph.IsFree x ∧ graph'.IsFree y) ∨
    ∃ n n', x = some n ∧ y = some n' ∧ graph.hasName n = true ∧ graph'.hasName n' = true ∧
      errors (.nameInUse n) (.nameInUse n')

/-- Nodes with operands that exist are both appended, or both refused for their names. -/
theorem Graph.push_agree {p q : Node} (hp : p.id = graph.size) (hq : q.id = graph'.size)
    (hinputs : ∀ input ∈ p.inputs, input < graph.size)
    (hinputs' : ∀ input ∈ q.inputs, input < graph'.size)
    (hnames : SameUse errors graph graph' p.name q.name) :
    AgreeUpTo errors (fun after after' => after = graph.snoc p ∧ after' = graph'.snoc q)
      (graph.push p) (graph'.push q) := by
  rcases hnames with ⟨hfree, hfree'⟩ | ⟨n, n', hn, hn', hused, hused', he⟩
  · rw [push_eq_ok.2 ⟨hp, hinputs, hfree, rfl⟩, push_eq_ok.2 ⟨hq, hinputs', hfree', rfl⟩]
    exact .ok ⟨rfl, rfl⟩
  · rw [(push_eq_error hp hinputs).2 ⟨n, hn, hused, rfl⟩,
      (push_eq_error hq hinputs').2 ⟨n', hn', hused', rfl⟩]
    exact .error he

/-- **Nodes.** Requests that an operator cannot tell apart are both granted or both refused. -/
theorem Registry.append_agree (hrefl : ∀ e, errors e e) {p q : Request} (hkind : p.kind = q.kind)
    (hvalid : ∀ operator : Operator, operator.validate p = operator.validate q)
    (hshape : p.hostShape = q.hostShape)
    (hshapes : AgreeUpTo errors Eq (graph.hostShapes p.inputs) (graph'.hostShapes q.inputs))
    (hnames : SameUse errors graph graph' p.name q.name) (registry : Registry) (strict : Bool) :
    AgreeUpTo errors (fun made made' => ∃ shape,
        made = (graph.size, graph.snoc (p.toNode graph shape)) ∧
          made' = (graph'.size, graph'.snoc (q.toNode graph' shape)))
      (registry.append strict graph p).result (registry.append strict graph' q).result := by
  unfold append
  rw [hkind]
  refine .andThen_same hrefl fun operator => ?_
  rw [hvalid]
  refine .andThen_same hrefl fun _ => ?_
  rcases hshapes.cases with ⟨shapes, _, hfound, hfound', rfl⟩ | ⟨e, e', hmissing, hmissing', he⟩
  · have hinfer : operator.inferShape p shapes = operator.inferShape q shapes := by
      unfold Operator.inferShape
      rw [hshape]
    rw [hfound, hfound']
    show AgreeUpTo errors _ (Attempt.shapeOrUnknown strict q.kind.engineName
        (operator.inferShape p shapes) >>= _ : Attempt _).result
      (Attempt.shapeOrUnknown strict q.kind.engineName
        (operator.inferShape q shapes) >>= _ : Attempt _).result
    rw [hinfer]
    refine .andThen_same hrefl fun shape => ?_
    have hpush : AgreeUpTo errors _ (graph.push (p.toNode graph shape))
        (graph'.push (q.toNode graph' shape)) :=
      Graph.push_agree rfl rfl (Graph.lt_size_of_hostShapes hfound)
        (Graph.lt_size_of_hostShapes hfound') hnames
    refine .andThen hpush fun after after' hafter => ?_
    obtain ⟨rfl, rfl⟩ := hafter
    exact .ok ⟨shape, rfl, rfl⟩
  · rw [hmissing, hmissing']
    exact .error he

end Nodes

/-- A constant has the shape of its tensor. -/
theorem Settings.hasShape_of_constant {settings : Settings} {value : Tensor} {name : Option String}
    {after : Graph} {id : NodeId} (h : (settings.constant value name).Yields graph id after) :
    after.HasShape id value.extents := by
  obtain ⟨node, hconstant, rfl, -, rfl, hids⟩ := constant_yields h
  have hid : node.id = graph.size := (List.cons.inj hids).1
  rw [hid, Graph.extend_singleton]
  exact ⟨node, Graph.node?_snoc_size _ _, hconstant.hostShape_eq⟩

/-! ### Comparisons -/

/-- What has to be known of two builders to compare them on every call: what they see of nodes that
stand for each other is the same, and they give the nodes of alike requests names that are both free
or both in use, by which they come to another pair. -/
structure Comparison (refers : String → Bool) (World : Type) extends SideBySide World where
  leftSettings : Settings
  rightSettings : Settings
  registry_eq : leftSettings.registry = rightSettings.registry
  strict_eq : leftSettings.options.validateShapes = rightSettings.options.validateShapes
  refers_axis : refers "dynamicAxis" = true
  /-- Nodes that a call may refer to. -/
  Ref : World → NodeId → NodeId → Prop
  /-- Nodes that operands may be. -/
  At : World → NodeId → NodeId → Prop
  /-- The nodes that a call makes. -/
  Made : World → NodeId → NodeId → Prop
  /-- The names that a call may give. -/
  Named : Option String → Prop
  ref_mono : ∀ {w after : World} {i j : NodeId}, Extends w after → Ref w i j → Ref after i j
  at_mono : ∀ {w after : World} {i j : NodeId}, Extends w after → At w i j → At after i j
  at_of_ref : ∀ {w : World} {i j : NodeId}, Ref w i j → At w i j
  at_of_made : ∀ {w : World} {i j : NodeId} {shape : Extents}, Made w i j →
    (left w).HasShape i shape → At w i j
  named_none : Named none
  get_agree : ∀ {w : World} {i j : NodeId}, At w i j →
    AgreeUpTo errors (fun p q => p.hostShape = q.hostShape) ((left w).get i) ((right w).get j)
  shape_agree : ∀ {w : World} {i j : NodeId}, At w i j → ∀ kind,
    AgreeUpTo errors Eq ((left w).knownShape i kind) ((right w).knownShape j kind)
  axis_agree : ∀ {w : World} {i j : NodeId}, Ref w i j →
    AgreeUpTo errors Eq ((left w).requireDynamicAxis i) ((right w).requireDynamicAxis j)
  names_agree : ∀ {w : World} {r r' : Request}, r.Alike refers (At w) r' → Named r.name →
    SameUse errors (left w) (right w) (r.named leftSettings.options (left w)).name
      (r'.named rightSettings.options (right w)).name
  grow : ∀ {w : World} {r r' : Request}, r.Alike refers (At w) r' → Named r.name → ∀ shape,
    ∃ after, Extends w after ∧
      left after = (left w).snoc
        ((r.named leftSettings.options (left w)).toNode (left w) shape) ∧
      right after = (right w).snoc
        ((r'.named rightSettings.options (right w)).toNode (right w) shape) ∧
      Made after (left w).size (right w).size

namespace Comparison

open SideBySide

variable {refers : String → Bool} {World : Type} {c : Comparison refers World} {w : World}
  {i j : NodeId} {f g : NodeId → NodeId}

/-! ### Requests -/

section Requests

/-- A request whose attributes refer to no nodes. -/
theorem alike_ofList {kind : Kind} {inputs inputs' : List NodeId}
    {entries : List (String × Attribute)} {name : Option String} {hostShape : Option Extents}
    (hinputs : List.Forall₂ (c.At w) inputs inputs') (hentries : ∀ e ∈ entries, e.2.node? = none) :
    Request.Alike refers (c.At w)
      { kind, inputs, attributes := .ofList entries, name, hostShape }
      { kind, inputs := inputs', attributes := .ofList entries, name, hostShape } :=
  ⟨rfl, hinputs, Attributes.alike_ofList (Attributes.entriesAlike_self hentries), rfl, rfl⟩

theorem axisAttribute_agree {axis : Option NodeId} (h : ∀ i ∈ axis.toList, c.Ref w (f i) (g i)) :
    AgreeUpTo c.errors (List.Forall₂ (Attributes.EntryAlike refers (c.At w)))
      ((c.left w).axisAttribute (axis.map f)) ((c.right w).axisAttribute (axis.map g)) := by
  cases axis with
  | none => exact .ok .nil
  | some axis =>
    have href := h axis List.mem_cons_self
    refine (c.axis_agree href).bind fun _ _ _ => .ok (.cons ⟨rfl, ?_⟩ .nil)
    show Attribute.AlikeAt refers (c.At w) "dynamicAxis" (.node (f axis)) (.node (g axis))
    unfold Attribute.AlikeAt
    rw [if_pos c.refers_axis]
    exact c.at_of_ref href

theorem requestInput_agree {axis : Option NodeId} (h : ∀ i ∈ axis.toList, c.Ref w (f i) (g i))
    (kind : Kind) (shape : Shape) (name : Option String) :
    AgreeUpTo c.errors (Request.Alike refers (c.At w))
      (requestInput (c.left w) kind shape (axis.map f) name).result
      (requestInput (c.right w) kind shape (axis.map g) name).result := by
  unfold requestInput
  rw [Attempt.result_toEngine_bind, Attempt.result_toEngine_bind]
  refine .andThen (axisAttribute_agree h) fun entries entries' hentries => ?_
  exact .ok ⟨rfl, .nil,
    Attributes.alike_ofList (.cons ⟨rfl, Attribute.alikeAt_self rfl _⟩ hentries), rfl, rfl⟩

/-- A parameter refers to no nodes. -/
theorem requestParameter_agree (spec : Parameter) (name : Option String) :
    AgreeUpTo c.errors (Request.Alike refers (c.At w)) (requestParameter spec name).result
      (requestParameter spec name).result := by
  refine (AgreeUpTo.same c.errors_refl _).imp fun request _ h heq => heq ▸ ?_
  rcases requestParameter_eq_ok.1 h with ⟨-, shape, -, h⟩ | ⟨value, -, -, -, h⟩
  · rw [requestUninitialised_eq, Except.ok.injEq] at h
    subst h
    refine alike_ofList .nil ?_
    cases spec.file <;> simp [initialisationOf, Attribute.node?]
  · obtain ⟨literal, -, rfl⟩ := requestInitialised_eq_ok.1 h
    exact alike_ofList .nil (by simp [Attribute.node?])

theorem declaration_agree {declaration : Declaration}
    (h : ∀ i ∈ declaration.axis?.toList, c.Ref w (f i) (g i)) (name : Option String) :
    AgreeUpTo c.errors (Request.Alike refers (c.At w))
      ((declaration.rename f).request (c.left w) name).result
      ((declaration.rename g).request (c.right w) name).result := by
  cases declaration with
  | input shape axis => exact requestInput_agree h .input shape name
  | sparseInput shape axis => exact requestInput_agree h .sparseInput shape name
  | inputForSamples samples axis =>
    have hsample : samples.sampleShape (axis.map f) = samples.sampleShape (axis.map g) := by
      cases axis <;> rfl
    show AgreeUpTo _ _ (liftM (samples.sampleShape (axis.map f)) >>= fun shape =>
      requestInput (c.left w) .input shape (axis.map f) name : Attempt Request).result
      (liftM (samples.sampleShape (axis.map g)) >>= fun shape =>
        requestInput (c.right w) .input shape (axis.map g) name : Attempt Request).result
    rw [hsample]
    exact .andThen_same c.errors_refl fun shape => requestInput_agree h .input shape name
  | dynamicAxis => exact .ok ⟨rfl, .nil, fun _ => .none, rfl, rfl⟩
  | parameter spec => exact requestParameter_agree spec name

theorem unary_agree (strict : Bool) (operator : UnaryOperator) (h : c.At w i j)
    (name : Option String) :
    AgreeUpTo c.errors (Request.Alike refers (c.At w))
      (operator.request strict (c.left w) i name).result
      (operator.request strict (c.right w) j name).result := by
  have hinputs : List.Forall₂ (c.At w) [i] [j] := .cons h .nil
  cases operator with
  | delayed direction dims timeStep outside =>
    rw [UnaryOperator.request, UnaryOperator.request, requestDelayed_eq, requestDelayed_eq]
    exact .ok (alike_ofList hinputs (by simp [Attribute.node?]))
  | reshape target =>
    refine .andThen (c.get_agree h) fun p q hpq => ?_
    rw [hpq]
    refine .andThen_same c.errors_refl fun shape => ?_
    exact .ok (alike_ofList hinputs (by simp [Attribute.node?]))
  | transpose axis1 axis2 =>
    refine .andThen (c.shape_agree h _) fun shape shape' hshape => ?_
    rw [hshape]
    refine .andThen_same c.errors_refl fun marked => ?_
    refine .andThen_same c.errors_refl fun axis => ?_
    exact .ok (alike_ofList hinputs (by simp [Attribute.node?]))
  | slice start stop axis =>
    refine .andThen (c.shape_agree h _) fun shape shape' hshape => ?_
    rw [hshape]
    refine .andThen_same c.errors_refl fun marked => ?_
    refine .andThen_same c.errors_refl fun _ => ?_
    exact .ok (alike_ofList hinputs (by simp [Attribute.node?]))
  | _ => exact .ok ⟨rfl, hinputs, fun _ => .none, rfl, rfl⟩

theorem binary_agree (strict : Bool) (operator : BinaryOperator) {left left' right right' : NodeId}
    (hleft : c.At w left left') (hright : c.At w right right') (name : Option String) :
    AgreeUpTo c.errors (Request.Alike refers (c.At w))
      (operator.request strict (c.left w) left right name).result
      (operator.request strict (c.right w) left' right' name).result := by
  cases operator with
  | combine combination =>
    exact .ok ⟨rfl, .cons hleft (.cons hright .nil), fun _ => .none, rfl, rfl⟩
  | times outputRank =>
    refine .andThen (c.shape_agree hleft _) fun shape shape' hshape => ?_
    rw [hshape]
    refine .andThen_same c.errors_refl fun rank => ?_
    refine .andThen (c.get_agree hright) fun p q hpq => ?_
    rw [hpq]
    refine .andThen_same c.errors_refl fun found => ?_
    exact .ok (alike_ofList (.cons hright (.cons hleft .nil)) (by simp [Attribute.node?]))

/-- **Requests.** A call that refers to nodes that stand for each other, and whose operands are such
nodes, makes requests that are the same up to the numbers of nodes. -/
theorem request_agree {call : Call} (h : ∀ i ∈ call.references refers, c.Ref w (f i) (g i))
    (strict : Bool) {ids ids' : List NodeId} (hids : List.Forall₂ (c.At w) ids ids') :
    AgreeUpTo c.errors (Request.Alike refers (c.At w))
      ((call.rename refers f).request strict (c.left w) ids).result
      ((call.rename refers g).request strict (c.right w) ids').result := by
  have hwrong : ∀ kind arity, c.errors (.wrongArity kind arity ids.length)
      (.wrongArity kind arity ids'.length) :=
    fun kind arity => hids.length_eq ▸ c.errors_refl _
  cases call with
  | declare declaration name => exact declaration_agree h name
  | add request => exact .ok (Request.alike_rename fun i hi => c.at_of_ref (h i hi))
  | unary operator x name =>
    rcases hids with _ | ⟨hx, _ | _⟩
    · exact .error (hwrong _ _)
    · exact unary_agree strict operator hx name
    · exact .error (hwrong _ _)
  | binary operator left right name =>
    rcases hids with _ | ⟨hleft, _ | ⟨hright, _ | _⟩⟩
    · exact .error (hwrong _ _)
    · exact .error (hwrong _ _)
    · exact binary_agree strict operator hleft hright name
    · exact .error (hwrong _ _)
  | ternary operator first second third name =>
    rcases hids with _ | ⟨hfirst, _ | ⟨hsecond, _ | ⟨hthird, _ | _⟩⟩⟩
    · exact .error (hwrong _ _)
    · exact .error (hwrong _ _)
    · exact .error (hwrong _ _)
    · exact .ok ⟨rfl, .cons hfirst (.cons hsecond (.cons hthird .nil)), fun _ => .none, rfl, rfl⟩
    · exact .error (hwrong _ _)

end Requests

/-! ### Calls -/

section Calls

/-- Requests that are the same up to the numbers of nodes. -/
theorem add_carries {r r' : Request} (h : r.Alike refers (c.At w) r') (hname : c.Named r.name) :
    c.Carries w c.Made (c.leftSettings.add r (c.left w)) (c.rightSettings.add r' (c.right w)) := by
  have hshapes : AgreeUpTo c.errors Eq ((c.left w).hostShapes r.inputs)
      ((c.right w).hostShapes r'.inputs) :=
    hostShapes_agree (fun hat => c.get_agree hat) h.inputs
  have hvalid : ∀ operator : Operator, operator.validate r = operator.validate r' :=
    fun operator => operator.validate_eq_of_alike h
  unfold Settings.add
  rw [← c.registry_eq, ← c.strict_eq]
  refine carries_change (Registry.append_agree c.errors_refl ?_ ?_ ?_ ?_ (c.names_agree h hname)
    c.leftSettings.registry c.leftSettings.options.validateShapes) ?_
  · rw [Request.kind_named, Request.kind_named, h.kind_eq]
  · intro operator
    rw [Request.validate_named, Request.validate_named, hvalid]
  · rw [Request.hostShape_named, Request.hostShape_named, h.hostShape_eq]
  · rw [Request.inputs_named, Request.inputs_named]
    exact hshapes
  · intro made made' hmade
    obtain ⟨shape, rfl, rfl⟩ := hmade
    exact c.grow h hname shape

theorem ask_carries {f g : Graph → Attempt Request}
    (h : AgreeUpTo c.errors (Request.Alike refers (c.At w)) (f (c.left w)).result
      (g (c.right w)).result)
    (hname : ∀ request, (f (c.left w)).result = .ok request → c.Named request.name) :
    c.Carries w c.Made (c.leftSettings.ask f (c.left w)) (c.rightSettings.ask g (c.right w)) := by
  have hquery : c.Carries w (fun after r r' => r.Alike refers (c.At after) r')
      (Build.query f (c.left w)) (Build.query g (c.right w)) := carries_query h
  have hnamed := hquery.and_left (fun _ request => c.Named request.name)
    fun request _ hrequest => hname request hrequest.1
  exact carries_bind hnamed fun after r r' _ hr => add_carries hr.1 hr.2

/-- Constants under the same name. -/
theorem constant_carries (value : Tensor) {name : Option String} (hname : c.Named name) :
    c.Carries w c.Made (c.leftSettings.constant value name (c.left w))
      (c.rightSettings.constant value name (c.right w)) := by
  refine ask_carries
    (f := fun graph => (Declaration.parameter (.constant value)).request graph name)
    (g := fun graph => (Declaration.parameter (.constant value)).request graph name)
    (requestParameter_agree (.constant value) name) fun request h => ?_
  obtain ⟨-, hrequest, -⟩ := declaration_says h
  exact hrequest ▸ hname

/-- An operand that refers to nodes that stand for each other becomes such nodes. -/
theorem resolve_carries {x : Operand} (h : ∀ i, x.node? = some i → c.Ref w (f i) (g i)) :
    c.Carries w c.At (c.leftSettings.resolve (x.rename f) (c.left w))
      (c.rightSettings.resolve (x.rename g) (c.right w)) := by
  cases x with
  | node i =>
    have hat := c.at_of_ref (h i rfl)
    refine carries_query ?_
    show AgreeUpTo c.errors (c.At w) (((c.left w).get (f i)).map fun _ => f i)
      (((c.right w).get (g i)).map fun _ => g i)
    exact (c.get_agree hat).map fun _ _ _ => hat
  | literal value =>
    have hmade := (constant_carries (c := c) (w := w) value c.named_none).and_left
      (fun after i => after.HasShape i value.extents)
      fun i after hyields => Settings.hasShape_of_constant hyields
    exact hmade.imp fun after i j h => c.at_of_made h.1 h.2

theorem resolveAll_carries {operands : List Operand}
    (h : ∀ i ∈ operands.filterMap Operand.node?, c.Ref w (f i) (g i)) :
    c.Carries w (fun after => List.Forall₂ (c.At after))
      (c.leftSettings.resolveAll (operands.map (Operand.rename f)) (c.left w))
      (c.rightSettings.resolveAll (operands.map (Operand.rename g)) (c.right w)) := by
  induction operands generalizing w with
  | nil => exact ⟨w, c.refl w, rfl, rfl, .ok .nil⟩
  | cons x operands ih =>
    have hx : ∀ i, x.node? = some i → c.Ref w (f i) (g i) := fun i hi =>
      h i (List.mem_filterMap.2 ⟨x, List.mem_cons_self, hi⟩)
    refine carries_bind (resolve_carries hx) fun mid i j hextends hat => ?_
    have hrest : ∀ i ∈ operands.filterMap Operand.node?, c.Ref mid (f i) (g i) := by
      intro i hi
      obtain ⟨y, hy, hnode⟩ := List.mem_filterMap.1 hi
      exact c.ref_mono hextends (h i (List.mem_filterMap.2 ⟨y, List.mem_cons_of_mem _ hy, hnode⟩))
    refine carries_bind (ih hrest) fun last ids ids' hlast hids => ?_
    exact ⟨last, c.refl last, rfl, rfl, .ok (.cons (c.at_mono hlast hat) hids)⟩

variable {call : Call}

/-- **A call that is not folded** and refers to nodes that stand for each other. -/
theorem performStages_carries (h : ∀ i ∈ call.references refers, c.Ref w (f i) (g i))
    (hname : c.Named call.name) :
    c.Carries w c.Made (c.leftSettings.performStages (call.rename refers f) (c.left w))
      (c.rightSettings.performStages (call.rename refers g) (c.right w)) := by
  unfold Settings.performStages
  rw [call.refusal?_rename, call.refusal?_rename, call.operands_rename, call.operands_rename]
  cases call.refusal? with
  | some error => exact carries_query (.error (c.errors_refl error))
  | none =>
    have hoperands := resolveAll_carries fun i hi => h i (Call.mem_references_of_operand hi)
    refine carries_bind hoperands fun mid ids ids' hextends hids => ask_carries ?_ ?_
    · rw [c.strict_eq]
      exact request_agree (fun i hi => c.ref_mono hextends (h i hi)) _ hids
    · intro request hrequest
      obtain ⟨-, hname', -⟩ := Call.request_says hrequest
      rw [hname', call.name_rename]
      exact hname

/-- **Every call** that refers to nodes that stand for each other, where both builders fold the same
calls: both make such nodes, or both fail with errors that count as the same. -/
theorem perform_carries
    (hfold : c.leftSettings.options.foldConstants = c.rightSettings.options.foldConstants)
    (hpolicy : c.leftSettings.options.domainPolicy = c.rightSettings.options.domainPolicy)
    (h : ∀ i ∈ call.references refers, c.Ref w (f i) (g i)) (hname : c.Named call.name) :
    c.Carries w c.Made (c.leftSettings.perform (call.rename refers f) (c.left w))
      (c.rightSettings.perform (call.rename refers g) (c.right w)) := by
  have hsame : c.leftSettings.foldedCall? (call.rename refers f) =
      c.rightSettings.foldedCall? (call.rename refers g) := by
    rw [Settings.foldedCall?_eq, Settings.foldedCall?_eq, call.foldable?_rename,
      call.foldable?_rename, hfold]
  cases hfolded : c.leftSettings.foldedCall? (call.rename refers f) with
  | none =>
    rw [Settings.perform_of_unfolded hfolded, Settings.perform_of_unfolded (hsame ▸ hfolded)]
    exact performStages_carries h hname
  | some folded =>
    obtain ⟨function, value⟩ := folded
    have hleft := Settings.perform_of_folded hfolded (c.left w)
    have hright := Settings.perform_of_folded (hsame ▸ hfolded) (c.right w)
    rw [call.name_rename] at hleft hright
    rw [← hpolicy] at hright
    exact (constant_carries _ hname).congr hleft hright

end Calls

end Comparison

end ComputeGraph
