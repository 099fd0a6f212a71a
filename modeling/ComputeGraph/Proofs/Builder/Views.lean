import ComputeGraph.Proofs.Builder.Folding
import ComputeGraph.Proofs.Builder.Names
import ComputeGraph.Proofs.Shape.Views

/-!
# Calls for views

A slice or a transposition of a node whose shape is known appends a node with the shape of the view,
if there is one and the name is free, and otherwise leaves the graph as it is. So views of views can
be worked out on shapes.

* `View.request_of_error`, `View.request_of_ok` — the request for a view;
* **`Settings.view_fails`**, **`Settings.view_yields`** — the outcome of a call for a view;
* **`slice_accepts_iff`** — which slices are accepted, and the errors of the others;
* `Build.Makes` — work that makes a node of a shape;
* **`Settings.performViews_makes`**, **`Settings.performViews_fails`** — views of views have the
  outcome that is worked out on shapes;
* **`view_laws`** — the laws of slices and transpositions.
-/

namespace ComputeGraph

/-! ### Requests -/

section Requests

variable {graph : Graph} {x : NodeId} {shape new : Extents} {e : Error}

/-- A view that a shape does not have is not asked for. -/
theorem View.request_of_error (hx : graph.HasShape x shape) {view : View}
    (h : view.apply shape = .error e) (strict : Bool) (name : Option String) :
    (view.operator.request strict graph x name).result = .error e := by
  cases view with
  | slice start stop axis =>
    refine Attempt.bind_eq_error.2 (.inr ⟨shape, Graph.knownShape_eq_ok.2 hx, ?_⟩)
    rcases except_bind_eq_error.1 h with h | ⟨engine, hengine, h⟩
    · exact Attempt.bind_eq_error.2 (.inl (markAxis_of_ofHost_eq_error h))
    · have hmarked := markAxis_of_ofHost_eq_ok hengine
      rcases except_bind_eq_error.1 h with h | ⟨⟨⟩, -, h⟩
      · exact Attempt.bind_eq_error.2 (.inr ⟨_, hmarked, Attempt.bind_eq_error.2 (.inl h)⟩)
      · cases h
  | transpose axis axis' =>
    refine Attempt.bind_eq_error.2 (.inr ⟨shape, Graph.knownShape_eq_ok.2 hx, ?_⟩)
    rcases except_bind_eq_error.1 h with h | ⟨engine, hengine, h⟩
    · exact Attempt.bind_eq_error.2 (.inl (markAxis_of_ofHost_eq_error h))
    · have hmarked := markAxis_of_ofHost_eq_ok hengine
      have hrank : (Shape.dims shape).toEngine.rank = shape.length := List.length_reverse
      rcases except_bind_eq_error.1 h with h | ⟨engine', -, h⟩
      · exact Attempt.bind_eq_error.2
          (.inr ⟨_, hmarked, Attempt.bind_eq_error.2 (.inl (hrank ▸ h))⟩)
      · cases h

/-- A view that a shape has is asked for with its shape, and nothing but its name can be in the way
of the request. -/
theorem View.request_of_ok (hx : graph.HasShape x shape) {view : View}
    (h : view.apply shape = .ok new) (strict : Bool) (name : Option String) :
    ∃ request, (view.operator.request strict graph x name).result = .ok request ∧
      request.name = name ∧
      ∀ name, Request.IsAdmitted graph { request with name } (some new) := by
  obtain ⟨node, hnode, hshape⟩ := hx
  have hoperands : graph.hostShapes [x] = .ok [some shape] :=
    Graph.hostShapes_eq_ok.2 (.cons ⟨node, hnode, hshape⟩ .nil)
  cases view with
  | slice start stop axis =>
    obtain ⟨haxis, hrange, rfl⟩ := View.slice_eq_ok.1 h
    obtain ⟨engine, hengine⟩ := View.exists_ofHost_iff.2 haxis
    obtain ⟨hstart, hstop, hextent⟩ :=
      requireRange_eq_ok.1 (View.requireRange_eq_ok_iff.2 hrange)
    refine ⟨_, requestSlice_eq_ok.2 ⟨shape, engine, ⟨node, hnode, hshape⟩, hengine, hstart, hstop,
      hextent, rfl⟩, rfl, fun name => ⟨_, _, rfl, ?_, hoperands, rfl⟩⟩
    refine Operator.validate_eq_ok.2 ⟨rfl, rfl, ?_⟩
    simp [Operator.missing?, Attributes.ofList]
  | transpose axis axis' =>
    obtain ⟨haxis, haxis', rfl⟩ := View.transpose_eq_ok.1 h
    obtain ⟨engine, hengine⟩ := View.exists_ofHost_iff.2 haxis
    obtain ⟨engine', hengine'⟩ := View.exists_ofHost_iff.2 haxis'
    refine ⟨_, requestTranspose_eq_ok.2 ⟨shape, engine, engine', ⟨node, hnode, hshape⟩, hengine,
      hengine', rfl⟩, rfl, fun name => ⟨_, _, rfl, ?_, hoperands, rfl⟩⟩
    refine Operator.validate_eq_ok.2 ⟨rfl, rfl, ?_⟩
    simp [Operator.missing?, Attributes.ofList]

end Requests

/-! ### Calls -/

namespace Settings

variable {graph : Graph} {x : NodeId} {shape new : Extents} {view : View} {e : Error}

/-- The node of an operand that is a node. -/
theorem resolve_node (settings : Settings) (hx : graph.HasShape x shape) :
    (settings.resolve (.node x)).Yields graph x graph := by
  obtain ⟨node, hnode, -⟩ := hx
  exact Build.yields_query.2 ⟨except_map_eq_ok.2 ⟨node, Graph.get_eq_ok.2 hnode, rfl⟩, rfl⟩

/-- A call for a view takes its operand as it is and asks for the view. -/
theorem perform_view (settings : Settings) (view : View) (x : NodeId) (name : Option String) :
    settings.perform (.unary view.operator (.node x) name) =
      settings.resolve (.node x) >>= fun y => settings.ask fun graph =>
        view.operator.request settings.options.validateShapes graph y name := by
  cases view with
  | slice start stop axis => rfl
  | transpose axis axis' => rfl

/-- **A view that the shape does not have** is refused, and nothing changes. -/
theorem view_fails (settings : Settings) (hx : graph.HasShape x shape)
    (h : view.apply shape = .error e) (name : Option String) :
    (settings.perform (.unary view.operator (.node x) name)).Fails graph e graph := by
  have hrequest := View.request_of_error hx h settings.options.validateShapes name
  rw [perform_view]
  exact Build.fails_bind.2 (.inr ⟨x, graph, settings.resolve_node hx,
    Build.fails_bind.2 (.inl ⟨hrequest, rfl⟩)⟩)

/-- **A view that the shape has** becomes a node with its shape if the name is free. -/
theorem view_yields (options : Options) (hx : graph.HasShape x shape) {name : Option String}
    (hname : graph.IsFree name) (h : view.apply shape = .ok new) :
    ∃ after, graph.nodes <+: after.nodes ∧ after.HasShape graph.size new ∧
      (({ options } : Settings).perform (.unary view.operator (.node x) name)).Yields graph
        graph.size after := by
  obtain ⟨request, hrequest, rfl, hadmitted⟩ :=
    View.request_of_ok hx h options.validateShapes name
  have hnamed := hadmitted (request.named options graph).name
  rw [← Request.named_eq] at hnamed
  have hadd := add_yields_of_named options.foldConstants hnamed (hname.named options)
  refine ⟨graph.snoc ((request.named options graph).toNode graph (some new)),
    graph.nodes_prefix_snoc _, ⟨_, graph.node?_snoc_size _, rfl⟩, ?_⟩
  rw [perform_view]
  exact Build.yields_bind.2 ⟨x, graph, resolve_node { options } hx,
    Build.yields_bind.2 ⟨request, graph, ⟨hrequest, rfl⟩, hadd⟩⟩

end Settings

/-- **Slices that are accepted.** A slice is accepted iff the tensor has the axis, the range is not
empty and lies within the extent of the axis, and that extent is below half of the range of words.
Otherwise it is refused for the axis or for the range, and nothing changes. -/
theorem slice_accepts_iff (options : Options) {graph : Graph} {x : NodeId} {shape : Extents}
    (hx : graph.HasShape x shape) {name : Option String} (hname : graph.IsFree name)
    (start stop axis : Int) :
    let slice := ({ options } : Settings).perform (.unary (.slice start stop axis) (.node x) name)
    ((∃ id after, slice.Yields graph id after) ↔
      shape.HasAxis axis ∧ 0 ≤ start ∧ start < stop ∧ stop ≤ (shape.along axis).toNat ∧
        (shape.along axis).toNat < 2 ^ 63) ∧
      (¬ shape.HasAxis axis → slice.Fails graph (.axisOutOfRange axis shape.length) graph) ∧
      (shape.HasAxis axis → (¬ ∃ id after, slice.Yields graph id after) →
        slice.Fails graph (.emptyRange start stop axis (signedWord (shape.along axis))) graph) := by
  intro slice
  have hyields : shape.HasAxis axis → View.Admits shape start stop axis →
      ∃ id after, slice.Yields graph id after := by
    intro haxis hrange
    obtain ⟨after, -, -, h⟩ := Settings.view_yields options hx hname
      (View.slice_eq_ok.2 ⟨haxis, hrange, rfl⟩)
    exact ⟨graph.size, after, h⟩
  have hnoAxis : ¬ shape.HasAxis axis →
      slice.Fails graph (.axisOutOfRange axis shape.length) graph := fun h =>
    Settings.view_fails { options } hx (View.slice_eq_error.2 (.inl ⟨h, rfl⟩)) name
  have hnoRange : shape.HasAxis axis → ¬ View.Admits shape start stop axis →
      slice.Fails graph (.emptyRange start stop axis (signedWord (shape.along axis))) graph :=
    fun haxis h =>
      Settings.view_fails { options } hx (View.slice_eq_error.2 (.inr ⟨haxis, h, rfl⟩)) name
  refine ⟨⟨?_, fun h => hyields h.1 h.2⟩, hnoAxis, fun haxis h => hnoRange haxis fun hrange =>
    h (hyields haxis hrange)⟩
  intro h
  obtain ⟨id, after, h⟩ := h
  have haxis : shape.HasAxis axis := by
    by_contra hno
    exact h.not_fails (hnoAxis hno)
  refine ⟨haxis, ?_⟩
  by_contra hno
  exact h.not_fails (hnoRange haxis hno)

/-- The last element of the longest axis that can be sliced. -/
theorem slice_accepts_iff_longest :
    let shape : Extents := [9223372036854775807]
    let graph := (Builder.runAll {} [.declare (.input (.dims shape) none) none]).graph
    let call : Call := .unary (.slice (2 ^ 63 - 2) (2 ^ 63 - 1) 0) (.node 0) none
    graph.HasShape 0 shape ∧ graph.IsFree none ∧
      ∃ id after, (({} : Settings).perform call).Yields graph id after := by
  intro shape graph call
  have hx : graph.HasShape 0 shape := ⟨_, rfl, rfl⟩
  have hrange : shape.HasAxis 0 ∧ View.Admits shape (2 ^ 63 - 2) (2 ^ 63 - 1) 0 := by
    unfold View.Admits
    decide
  exact ⟨hx, graph.isFree_none, (slice_accepts_iff {} hx graph.isFree_none _ _ 0).1.2 hrange⟩

/-- The first element of an axis of the greatest extent cannot be sliced: the check takes the extent
for a negative number. -/
theorem slice_of_greatest_extent :
    let shape : Extents := [18446744073709551615]
    let builder := Builder.runAll {} [.declare (.input (.dims shape) none) none]
    builder.graph.HasShape 0 shape ∧ builder.graph.IsFree none ∧ shape.HasAxis 0 ∧
      (shape.along 0).toNat = 2 ^ 64 - 1 ∧
      (builder.outcome (.unary (.slice 0 1 0) (.node 0) none)).result =
        .error (.emptyRange 0 1 0 (-1)) := by
  intro shape builder
  exact ⟨⟨_, rfl, rfl⟩, builder.graph.isFree_none, by decide, by decide, rfl⟩

/-! ### Views of views -/

/-- Work that succeeds with a node of the shape. -/
def Build.Makes (work : Build NodeId) (graph : Graph) (shape : Extents) : Prop :=
  ∃ id after, work.Yields graph id after ∧ after.HasShape id shape

/-- Both succeed with nodes of one shape, or both fail. -/
def Build.SameShape (work work' : Build NodeId) (graph : Graph) : Prop :=
  (∃ shape, work.Makes graph shape ∧ work'.Makes graph shape) ∨
    (∃ e after, work.Fails graph e after) ∧ ∃ e after, work'.Fails graph e after

theorem Build.Makes.unique {work : Build NodeId} {graph : Graph} {shape shape' : Extents}
    (h : work.Makes graph shape) (h' : work.Makes graph shape') : shape = shape' := by
  obtain ⟨id, after, hyields, hid⟩ := h
  obtain ⟨id', after', hyields', hid'⟩ := h'
  obtain ⟨rfl, rfl⟩ := hyields.unique hyields'
  exact hid.unique hid'

namespace Settings

/-- A view of a node, a view of that one and so on, all without names. The result is the node of the
last one. -/
def performViews (settings : Settings) : NodeId → List View → Build NodeId
  | x, [] => pure x
  | x, view :: views => do
    let y ← settings.perform (.unary view.operator (.node x) none)
    settings.performViews y views

variable (options : Options) {graph : Graph} {x : NodeId} {shape new : Extents}
  {views views' : List View} {e : Error}

/-- **Views of views** that the shape has are made with the shape of the last one. -/
theorem performViews_makes (hx : graph.HasShape x shape) (h : View.applyAll shape views = .ok new) :
    (({ options } : Settings).performViews x views).Makes graph new := by
  induction views generalizing graph x shape with
  | nil =>
    obtain rfl : shape = new := Except.ok.inj h
    exact ⟨x, graph, ⟨rfl, rfl⟩, hx⟩
  | cons view views ih =>
    obtain ⟨mid, hview, hviews⟩ := View.applyAll_cons_eq_ok.1 h
    obtain ⟨graph', -, hmid, hyields⟩ := view_yields options hx graph.isFree_none hview
    obtain ⟨id, after, hrest, hid⟩ := ih hmid hviews
    exact ⟨id, after, Build.yields_bind.2 ⟨graph.size, graph', hyields, hrest⟩, hid⟩

/-- **Views of views** that the shape does not have fail with the error of the first one that there
is not. The views in front of it stay. -/
theorem performViews_fails (hx : graph.HasShape x shape)
    (h : View.applyAll shape views = .error e) :
    ∃ after, (({ options } : Settings).performViews x views).Fails graph e after ∧
      graph.nodes <+: after.nodes := by
  induction views generalizing graph x shape with
  | nil => cases h
  | cons view views ih =>
    rcases except_bind_eq_error.1 h with hview | ⟨mid, hview, hviews⟩
    · have hfails := view_fails { options } hx hview none
      exact ⟨graph, Build.fails_bind.2 (.inl hfails), List.prefix_rfl⟩
    · obtain ⟨graph', hextends, hmid, hyields⟩ := view_yields options hx graph.isFree_none hview
      obtain ⟨after, hrest, hextends'⟩ := ih hmid hviews
      exact ⟨after, Build.fails_bind.2 (.inr ⟨graph.size, graph', hyields, hrest⟩),
        hextends.trans hextends'⟩

theorem performViews_makes_iff (hx : graph.HasShape x shape) :
    (({ options } : Settings).performViews x views).Makes graph new ↔
      View.applyAll shape views = .ok new := by
  refine ⟨fun h => ?_, performViews_makes options hx⟩
  cases hviews : View.applyAll shape views with
  | error e =>
    obtain ⟨id, after, hyields, -⟩ := h
    obtain ⟨after', hfails, -⟩ := performViews_fails options hx hviews
    exact (hyields.not_fails hfails).elim
  | ok found => exact congrArg Except.ok ((performViews_makes options hx hviews).unique h)

/-- A transposition fails for one of its axes, and nothing changes. -/
theorem transpose_fails (hx : graph.HasShape x shape) {axis axis' : Int} {after : Graph}
    (h : (({ options } : Settings).performViews x [.transpose axis axis']).Fails graph e after) :
    e.category = .axisOutOfRange ∧ after = graph := by
  cases hview : (View.transpose axis axis').apply shape with
  | ok new =>
    rw [← View.applyAll_singleton] at hview
    obtain ⟨id, after', hyields, -⟩ := performViews_makes options hx hview
    exact (hyields.not_fails h).elim
  | error e' =>
    have hfails := view_fails { options } hx hview none
    obtain ⟨rfl, rfl⟩ := h.unique (Build.fails_bind.2 (.inl hfails))
    exact ⟨View.category_of_transpose_eq_error hview, rfl⟩

/-- Views that make the same of a shape make the same of a node. -/
theorem performViews_sameShape (hx : graph.HasShape x shape)
    (h : ∀ new, View.applyAll shape views = .ok new ↔ View.applyAll shape views' = .ok new) :
    (({ options } : Settings).performViews x views).SameShape
      (({ options } : Settings).performViews x views') graph := by
  cases hviews : View.applyAll shape views with
  | ok new =>
    exact .inl ⟨new, performViews_makes options hx hviews,
      performViews_makes options hx ((h new).1 hviews)⟩
  | error e =>
    obtain ⟨e', hviews'⟩ : ∃ e', View.applyAll shape views' = .error e' := by
      cases hviews' : View.applyAll shape views' with
      | error e' => exact ⟨e', rfl⟩
      | ok new =>
        rw [(h new).2 hviews'] at hviews
        cases hviews
    obtain ⟨after, hfails, -⟩ := performViews_fails options hx hviews
    obtain ⟨after', hfails', -⟩ := performViews_fails options hx hviews'
    exact .inr ⟨⟨e, after, hfails⟩, e', after', hfails'⟩

end Settings

/-- **The laws of views.** Two slices along one axis are one slice, whose bounds are no greater than
the greatest signed word; slices along different axes can be exchanged; a transposition is undone
by itself and does not depend on the order of its axes; and a slice can be taken along with its
axis through a transposition. -/
theorem view_laws (options : Options) {graph : Graph} {x : NodeId} {shape : Extents}
    (hx : graph.HasShape x shape) :
    let views := ({ options } : Settings).performViews x
    (∀ start stop start' stop' axis new,
      (views [.slice start stop axis, .slice start' stop' axis]).Makes graph new →
        (views [.slice (start + start') (start + stop') axis]).Makes graph new ∧
          0 ≤ start + start' ∧ start + start' < start + stop' ∧ start + stop' < 2 ^ 63) ∧
      (∀ start stop axis start' stop' axis', axis ≠ axis' →
        (views [.slice start stop axis, .slice start' stop' axis']).SameShape
          (views [.slice start' stop' axis', .slice start stop axis]) graph) ∧
      (∀ axis axis' new, (views [.transpose axis axis']).Makes graph new →
        (views [.transpose axis axis', .transpose axis axis']).Makes graph shape) ∧
      (∀ axis axis',
        (views [.transpose axis axis']).SameShape (views [.transpose axis' axis]) graph ∧
          ∀ e after, (views [.transpose axis axis']).Fails graph e after →
            e.category = .axisOutOfRange ∧ after = graph) ∧
      ∀ start stop axis axis',
        (views [.slice start stop axis, .transpose axis axis']).SameShape
          (views [.transpose axis axis', .slice start stop axis']) graph := by
  intro views
  refine ⟨?_, ?_, ?_, ?_, ?_⟩
  · intro start stop start' stop' axis new h
    obtain ⟨hslice, hbounds⟩ := View.slice_slice ((Settings.performViews_makes_iff options hx).1 h)
    refine ⟨Settings.performViews_makes options hx ?_, hbounds⟩
    rwa [View.applyAll_singleton]
  · intro start stop axis start' stop' axis' hne
    exact Settings.performViews_sameShape options hx fun new => View.slice_comm hne
  · intro axis axis' new h
    have hnew := (Settings.performViews_makes_iff options hx).1 h
    rw [View.applyAll_singleton] at hnew
    have hback := View.transpose_transpose hnew
    exact Settings.performViews_makes options hx (View.applyAll_pair_eq_ok.2 ⟨new, hnew, hback⟩)
  · intro axis axis'
    refine ⟨Settings.performViews_sameShape options hx fun new => ?_, fun e after h => ?_⟩
    · rw [View.applyAll_singleton, View.applyAll_singleton]
      exact View.transpose_comm
    · exact Settings.transpose_fails options hx h
  · intro start stop axis axis'
    exact Settings.performViews_sameShape options hx fun new => View.slice_transpose

/-- The views of a matrix. -/
theorem view_laws_matrix :
    let shape : Extents := [6, 4]
    let graph := (Builder.runAll {} [.declare (.input (.dims shape) none) none]).graph
    let views := ({} : Settings).performViews 0
    graph.HasShape 0 shape ∧
      (views [.slice 1 5 0, .slice 2 4 0]).Makes graph [2, 4] ∧
      (views [.slice 3 5 0]).Makes graph [2, 4] ∧
      (views [.slice 1 5 0, .slice 0 3 1]).SameShape (views [.slice 0 3 1, .slice 1 5 0]) graph ∧
      (views [.transpose 0 1, .transpose 0 1]).Makes graph shape ∧
      (views [.slice 1 5 0, .transpose 0 1]).SameShape (views [.transpose 0 1, .slice 1 5 1])
        graph := by
  intro shape graph views
  have hx : graph.HasShape 0 shape := ⟨_, rfl, rfl⟩
  have hslices : (views [.slice 1 5 0, .slice 2 4 0]).Makes graph [2, 4] :=
    Settings.performViews_makes {} hx rfl
  have htranspose : (views [.transpose 0 1]).Makes graph [4, 6] :=
    Settings.performViews_makes {} hx rfl
  obtain ⟨hone, hexchange, hback, -, hthrough⟩ := view_laws {} hx
  exact ⟨hx, hslices, (hone 1 5 2 4 0 [2, 4] hslices).1, hexchange 1 5 0 0 3 1 (by decide),
    hback 0 1 [4, 6] htranspose, hthrough 1 5 0 1⟩

end ComputeGraph
