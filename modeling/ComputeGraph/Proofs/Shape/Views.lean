import ComputeGraph.Proofs.Builder.Requests
import ComputeGraph.Proofs.Shape.Places

/-!
# Views of tensors

A slice or a transposition gives another view of the elements of a tensor. The shape of the view, or
the reason why there is none, follows from the shape of the tensor alone.

* `View`, `View.apply` — slices and transpositions, and what they make of a shape;
* `View.slice_eq_ok`, `View.transpose_eq_ok` — when there is a view, and its shape;
* `View.slice_eq_error`, `View.transpose_eq_error` — why there is none;
* **`View.slice_slice`** — a slice of a slice along the same axis is a slice;
* **`View.slice_comm`** — slices along different axes can be exchanged;
* **`View.transpose_transpose`**, **`View.slice_transpose`** — transpositions are undone by
  themselves, and take a slice along with its axis.
-/

namespace ComputeGraph

/-- A slice or a transposition. -/
inductive View where
  /-- The elements from `start` to before `stop` along an axis. -/
  | slice (start stop axis : Int)
  /-- The same elements with two axes exchanged. -/
  | transpose (axis1 axis2 : Int)
deriving DecidableEq, Repr

/-- The shape has the axis, counted from zero. -/
def Extents.HasAxis (shape : Extents) (axis : Int) : Prop :=
  0 ≤ axis ∧ axis < shape.length

instance (shape : Extents) (axis : Int) : Decidable (shape.HasAxis axis) :=
  inferInstanceAs (Decidable (_ ∧ _))

/-- The extent along an axis. -/
def Extents.along (shape : Extents) (axis : Int) : UInt64 :=
  shape.getD axis.toNat 0

namespace View

/-- The operator of a view. -/
def operator : View → UnaryOperator
  | .slice start stop axis => .slice start stop axis
  | .transpose axis1 axis2 => .transpose axis1 axis2

/-- The shape of a view of a tensor. -/
def apply (shape : Extents) : View → Except Error Extents
  | .slice start stop axis => do
    let _ ← EngineAxis.ofHost axis shape.length
    requireRange start stop axis (signedWord (shape.along axis))
    return shape.set axis.toNat (UInt64.ofNat (stop - start).toNat)
  | .transpose axis1 axis2 => do
    let _ ← EngineAxis.ofHost axis1 shape.length
    let _ ← EngineAxis.ofHost axis2 shape.length
    return shape.swap axis1.toNat axis2.toNat

/-- The shape of a view of a view of a tensor, and so on. -/
def applyAll (shape : Extents) (views : List View) : Except Error Extents :=
  views.foldlM apply shape

variable {shape mid new : Extents} {start stop start' stop' axis axis' : Int} {e : Error}

/-! ### Axes and extents -/

theorem exists_ofHost_iff : (∃ engine, EngineAxis.ofHost axis shape.length = .ok engine) ↔
    shape.HasAxis axis := by
  unfold EngineAxis.ofHost Extents.HasAxis
  split <;> simp_all

theorem ofHost_eq_error : EngineAxis.ofHost axis shape.length = .error e ↔
    ¬ shape.HasAxis axis ∧ e = .axisOutOfRange axis shape.length := by
  unfold EngineAxis.ofHost Extents.HasAxis
  split <;> simp_all [eq_comm]

theorem toNat_lt_length (h : shape.HasAxis axis) : axis.toNat < shape.length := by
  unfold Extents.HasAxis at h
  omega

theorem hasAxis_congr (h : mid.length = shape.length) : mid.HasAxis axis ↔ shape.HasAxis axis := by
  unfold Extents.HasAxis
  rw [h]

theorem along_set_self (h : shape.HasAxis axis) (n : UInt64) :
    Extents.along (shape.set axis.toNat n) axis = n := by
  simp [Extents.along, toNat_lt_length h]

theorem along_set_ne (h : shape.HasAxis axis) (h' : shape.HasAxis axis') (hne : axis ≠ axis')
    (n : UInt64) : Extents.along (shape.set axis.toNat n) axis' = shape.along axis' := by
  have hplaces : axis.toNat ≠ axis'.toNat := by
    unfold Extents.HasAxis at h h'
    omega
  simp [Extents.along, List.getElem?_set_ne hplaces]

/-- An exchange takes the extent of the first axis to the second. -/
theorem along_swap (h : shape.HasAxis axis) (h' : shape.HasAxis axis') :
    Extents.along (shape.swap axis.toNat axis'.toNat) axis' = shape.along axis := by
  unfold Extents.along
  rw [List.getD_eq_getElem?_getD, Extents.getElem?_swap (toNat_lt_length h) (toNat_lt_length h'),
    if_pos rfl, List.getD_eq_getElem?_getD]

/-- The range is not empty and ends within the extent of the axis, and that extent is below half of
the range of words. -/
def Admits (shape : Extents) (start stop axis : Int) : Prop :=
  0 ≤ start ∧ start < stop ∧ stop ≤ (shape.along axis).toNat ∧ (shape.along axis).toNat < 2 ^ 63

theorem requireRange_eq_ok_iff :
    requireRange start stop axis (signedWord (shape.along axis)) = .ok () ↔
      Admits shape start stop axis := by
  rw [requireRange_eq_ok]
  unfold Admits
  constructor
  · intro h
    obtain ⟨hstart, hstop, hextent⟩ := h
    exact ⟨hstart, hstop, (le_signedWord_iff (by omega)).1 hextent⟩
  · intro h
    obtain ⟨hstart, hstop, hextent⟩ := h
    exact ⟨hstart, hstop, (le_signedWord_iff (by omega)).2 hextent⟩

theorem requireRange_eq_error {extent : Int} :
    requireRange start stop axis extent = .error e ↔
      ¬ requireRange start stop axis extent = .ok () ∧ e = .emptyRange start stop axis extent := by
  unfold requireRange
  split <;> simp [eq_comm]

/-! ### When there is a view -/

theorem slice_eq_ok : (slice start stop axis).apply shape = .ok new ↔
    shape.HasAxis axis ∧ Admits shape start stop axis ∧
      new = shape.set axis.toNat (UInt64.ofNat (stop - start).toNat) := by
  rw [← exists_ofHost_iff, ← requireRange_eq_ok_iff]
  constructor
  · intro h
    obtain ⟨engine, hengine, h⟩ := except_bind_eq_ok.1 h
    obtain ⟨⟨⟩, hrange, h⟩ := except_bind_eq_ok.1 h
    exact ⟨⟨engine, hengine⟩, hrange, (Except.ok.inj h).symm⟩
  · intro h
    obtain ⟨⟨engine, hengine⟩, hrange, rfl⟩ := h
    exact except_bind_eq_ok.2 ⟨engine, hengine, except_bind_eq_ok.2 ⟨(), hrange, rfl⟩⟩

theorem slice_eq_error : (slice start stop axis).apply shape = .error e ↔
    (¬ shape.HasAxis axis ∧ e = .axisOutOfRange axis shape.length) ∨
      (shape.HasAxis axis ∧ ¬ Admits shape start stop axis ∧
        e = .emptyRange start stop axis (signedWord (shape.along axis))) := by
  rw [← ofHost_eq_error, ← exists_ofHost_iff, ← requireRange_eq_ok_iff]
  constructor
  · intro h
    rcases except_bind_eq_error.1 h with h | ⟨engine, hengine, h⟩
    · exact .inl h
    · rcases except_bind_eq_error.1 h with h | ⟨⟨⟩, -, h⟩
      · exact .inr ⟨⟨engine, hengine⟩, requireRange_eq_error.1 h⟩
      · cases h
  · intro h
    rcases h with h | ⟨⟨engine, hengine⟩, h⟩
    · exact except_bind_eq_error.2 (.inl h)
    · have hrange := requireRange_eq_error.2 h
      exact except_bind_eq_error.2 (.inr ⟨engine, hengine, except_bind_eq_error.2 (.inl hrange)⟩)

theorem transpose_eq_ok : (transpose axis axis').apply shape = .ok new ↔
    shape.HasAxis axis ∧ shape.HasAxis axis' ∧ new = shape.swap axis.toNat axis'.toNat := by
  rw [← exists_ofHost_iff, ← exists_ofHost_iff]
  constructor
  · intro h
    obtain ⟨engine, hengine, h⟩ := except_bind_eq_ok.1 h
    obtain ⟨engine', hengine', h⟩ := except_bind_eq_ok.1 h
    exact ⟨⟨engine, hengine⟩, ⟨engine', hengine'⟩, (Except.ok.inj h).symm⟩
  · intro h
    obtain ⟨⟨engine, hengine⟩, ⟨engine', hengine'⟩, rfl⟩ := h
    exact except_bind_eq_ok.2 ⟨engine, hengine, except_bind_eq_ok.2 ⟨engine', hengine', rfl⟩⟩

/-- A transposition is refused only for an axis. -/
theorem category_of_transpose_eq_error (h : (transpose axis axis').apply shape = .error e) :
    e.category = .axisOutOfRange := by
  rcases except_bind_eq_error.1 h with h | ⟨engine, -, h⟩
  · obtain ⟨-, rfl⟩ := ofHost_eq_error.1 h
    rfl
  · rcases except_bind_eq_error.1 h with h | ⟨engine', -, h⟩
    · obtain ⟨-, rfl⟩ := ofHost_eq_error.1 h
      rfl
    · cases h

/-! ### Views of views -/

theorem applyAll_cons_eq_ok {view : View} {views : List View} :
    applyAll shape (view :: views) = .ok new ↔
      ∃ mid, view.apply shape = .ok mid ∧ applyAll mid views = .ok new :=
  except_bind_eq_ok

theorem applyAll_singleton (view : View) : applyAll shape [view] = view.apply shape := by
  unfold applyAll
  rw [List.foldlM_cons]
  cases view.apply shape <;> rfl

theorem applyAll_pair_eq_ok {first second : View} :
    applyAll shape [first, second] = .ok new ↔
      ∃ mid, first.apply shape = .ok mid ∧ second.apply mid = .ok new := by
  rw [applyAll_cons_eq_ok]
  simp only [applyAll_singleton]

/-- **A slice of a slice** along the same axis is a slice of the tensor, whose range lies within the
first one. -/
theorem slice_slice
    (h : applyAll shape [slice start stop axis, slice start' stop' axis] = .ok new) :
    (slice (start + start') (start + stop') axis).apply shape = .ok new ∧
      0 ≤ start + start' ∧ start + start' < start + stop' ∧ start + stop' < 2 ^ 63 := by
  obtain ⟨mid, hfirst, hsecond⟩ := applyAll_pair_eq_ok.1 h
  obtain ⟨haxis, ⟨hstart, hstop, hextent, hhalf⟩, rfl⟩ := slice_eq_ok.1 hfirst
  obtain ⟨-, ⟨hstart', hstop', hextent', -⟩, rfl⟩ := slice_eq_ok.1 hsecond
  have hlength : ((UInt64.ofNat (stop - start).toNat).toNat : Int) = stop - start :=
    toNat_rangeLength hstart hstop ((le_signedWord_iff (by omega)).2 ⟨hextent, hhalf⟩)
  rw [along_set_self haxis, hlength] at hextent'
  refine ⟨slice_eq_ok.2 ⟨haxis, ⟨by omega, by omega, by omega, hhalf⟩, ?_⟩, by omega, by omega,
    by omega⟩
  have hsame : start + stop' - (start + start') = stop' - start' := by omega
  rw [List.set_set, hsame]

/-- One half of `slice_comm`. -/
theorem slice_comm_of_ok (hne : axis ≠ axis')
    (h : applyAll shape [slice start stop axis, slice start' stop' axis'] = .ok new) :
    applyAll shape [slice start' stop' axis', slice start stop axis] = .ok new := by
  obtain ⟨mid, hfirst, hsecond⟩ := applyAll_pair_eq_ok.1 h
  obtain ⟨haxis, hadmits, rfl⟩ := slice_eq_ok.1 hfirst
  obtain ⟨haxis', hadmits', rfl⟩ := slice_eq_ok.1 hsecond
  rw [hasAxis_congr List.length_set] at haxis'
  have hplaces : axis.toNat ≠ axis'.toNat := by
    unfold Extents.HasAxis at haxis haxis'
    omega
  -- neither slice changes the extent that the other one is checked against
  unfold Admits at hadmits hadmits'
  rw [along_set_ne haxis haxis' hne] at hadmits'
  refine applyAll_pair_eq_ok.2
    ⟨_, slice_eq_ok.2 ⟨haxis', hadmits', rfl⟩, slice_eq_ok.2 ⟨?_, ?_, ?_⟩⟩
  · rwa [hasAxis_congr List.length_set]
  · unfold Admits
    rwa [along_set_ne haxis' haxis hne.symm]
  · exact List.set_comm _ _ hplaces

/-- **Slices along different axes** can be exchanged. -/
theorem slice_comm (hne : axis ≠ axis') :
    applyAll shape [slice start stop axis, slice start' stop' axis'] = .ok new ↔
      applyAll shape [slice start' stop' axis', slice start stop axis] = .ok new :=
  ⟨slice_comm_of_ok hne, slice_comm_of_ok hne.symm⟩

theorem transpose_comm : (transpose axis axis').apply shape = .ok new ↔
    (transpose axis' axis).apply shape = .ok new := by
  rw [transpose_eq_ok, transpose_eq_ok]
  constructor
  · intro h
    obtain ⟨haxis, haxis', rfl⟩ := h
    exact ⟨haxis', haxis, Extents.swap_comm (toNat_lt_length haxis) (toNat_lt_length haxis')⟩
  · intro h
    obtain ⟨haxis', haxis, rfl⟩ := h
    exact ⟨haxis, haxis', Extents.swap_comm (toNat_lt_length haxis') (toNat_lt_length haxis)⟩

/-- **A transposition** is undone by itself. -/
theorem transpose_transpose (h : (transpose axis axis').apply shape = .ok new) :
    (transpose axis axis').apply new = .ok shape := by
  obtain ⟨haxis, haxis', rfl⟩ := transpose_eq_ok.1 h
  have hlength : (shape.swap axis.toNat axis'.toNat).length = shape.length := Extents.length_swap
  refine transpose_eq_ok.2 ⟨(hasAxis_congr hlength).2 haxis, (hasAxis_congr hlength).2 haxis', ?_⟩
  exact (Extents.swap_swap (toNat_lt_length haxis) (toNat_lt_length haxis')).symm

/-- **A slice and a transposition.** Slicing an axis and then exchanging it for another is the same
as slicing the other one after the exchange. -/
theorem slice_transpose :
    applyAll shape [slice start stop axis, transpose axis axis'] = .ok new ↔
      applyAll shape [transpose axis axis', slice start stop axis'] = .ok new := by
  rw [applyAll_pair_eq_ok, applyAll_pair_eq_ok]
  have hlength : (shape.swap axis.toNat axis'.toNat).length = shape.length := Extents.length_swap
  constructor
  · intro h
    obtain ⟨mid, hfirst, hsecond⟩ := h
    obtain ⟨haxis, hadmits, rfl⟩ := slice_eq_ok.1 hfirst
    obtain ⟨-, haxis', rfl⟩ := transpose_eq_ok.1 hsecond
    rw [hasAxis_congr List.length_set] at haxis'
    refine ⟨_, transpose_eq_ok.2 ⟨haxis, haxis', rfl⟩,
      slice_eq_ok.2 ⟨(hasAxis_congr hlength).2 haxis', ?_, ?_⟩⟩
    · unfold Admits at hadmits ⊢
      rwa [along_swap haxis haxis']
    · exact Extents.swap_set (toNat_lt_length haxis) (toNat_lt_length haxis') _
  · intro h
    obtain ⟨mid, hfirst, hsecond⟩ := h
    obtain ⟨haxis, haxis', rfl⟩ := transpose_eq_ok.1 hfirst
    obtain ⟨-, hadmits, rfl⟩ := slice_eq_ok.1 hsecond
    unfold Admits at hadmits
    rw [along_swap haxis haxis'] at hadmits
    refine ⟨_, slice_eq_ok.2 ⟨haxis, hadmits, rfl⟩, transpose_eq_ok.2 ⟨?_, ?_, ?_⟩⟩
    · rwa [hasAxis_congr List.length_set]
    · rwa [hasAxis_congr List.length_set]
    · exact (Extents.swap_set (toNat_lt_length haxis) (toNat_lt_length haxis') _).symm

end View

end ComputeGraph
