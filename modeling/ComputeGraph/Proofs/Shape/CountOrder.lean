import ComputeGraph.Proofs.Shape.ReshapeChain
import Mathlib.Data.List.TakeWhile

/-!
# Counts and the order of extents

The number of elements is formed from left to right, and the search for it ends at the first product
that is not a machine word. Behind an extent of zero every product is zero. So the extents in front
of the first zero decide whether the count is found, and of two shapes without elements, even of two
orders of the same extents, one may have a count and the other none.

* `Extents.leading` — the extents in front of the first zero;
* **`Extents.elementCount?_eq`** — a count is found iff that of these extents is a machine word;
* `Extents.TakesEmpty` — the targets that shapes without elements can be reshaped to;
* `Extents.reshape_uncounted`, `Extents.exists_reshape_iff_of_empty` — what becomes of shapes
  without a count and of shapes without elements;
* **`sameCount_agrees_iff`** — when shapes of the same count are reshaped to the same shape.
-/

namespace ComputeGraph

namespace Extents

variable {shape left right target : Extents} {start : Nat}

/-! ### When a count is found -/

/-- The extents in front of the first zero. -/
def leading (shape : Extents) : Extents :=
  shape.takeWhile (· ≠ 0)

/-- The count of the extents in front of the first zero is a machine word. -/
def IsCounted (shape : Extents) : Prop :=
  shape.leading.elementCount < UInt64.size

instance (shape : Extents) : Decidable shape.IsCounted :=
  inferInstanceAs (Decidable (_ < _))

theorem leading_zero_cons (shape : Extents) : leading (0 :: shape) = [] := by
  simp [leading]

theorem leading_cons {n : UInt64} (h : n ≠ 0) (shape : Extents) :
    leading (n :: shape) = n :: shape.leading := by
  simp [leading, h]

theorem leading_of_not_mem (h : 0 ∉ shape) : shape.leading = shape :=
  List.takeWhile_eq_self_iff.2 fun _ hn => decide_eq_true fun hzero => h (hzero ▸ hn)

theorem zero_not_mem_leading (shape : Extents) : 0 ∉ shape.leading := by
  intro h
  simpa using List.mem_takeWhile_imp h

/-- From any word on, a product is found iff that with the extents in front of the first zero is a
word. -/
theorem countFrom?_eq (h : start < UInt64.size) (shape : Extents) :
    countFrom? start shape =
      if start * shape.leading.elementCount < UInt64.size then some (start * shape.elementCount)
      else none := by
  induction shape generalizing start with
  | nil =>
    have hcount : start * elementCount [] = start := Nat.mul_one start
    rw [show leading [] = [] from rfl, hcount, if_pos h]
    rfl
  | cons n shape ih =>
    by_cases hn : n = 0
    · -- from here on every product is zero
      subst hn
      have hzero : start * UInt64.toNat 0 = 0 := Nat.mul_zero start
      rw [countFrom?, hzero, if_pos (by decide), ih (by decide), leading_zero_cons, elementCount,
        elementCount, ← Nat.mul_assoc, hzero]
      simp [h, UInt64.size]
    · rw [countFrom?, leading_cons hn, elementCount, elementCount, ← Nat.mul_assoc, ← Nat.mul_assoc]
      by_cases hlt : start * n.toNat < UInt64.size
      · rw [if_pos hlt]
        exact ih hlt
      · have hpos := elementCount_pos (zero_not_mem_leading shape)
        have hle := Nat.le_mul_of_pos_right (start * n.toNat) hpos
        rw [if_neg hlt, if_neg (by omega)]

/-- **A count is found** iff that of the extents in front of the first zero is a machine word. -/
theorem elementCount?_eq (shape : Extents) :
    shape.elementCount? = if shape.IsCounted then some shape.elementCount else none := by
  have hone : 1 < UInt64.size := by decide
  unfold elementCount?
  rw [countFrom?_eq hone, Nat.one_mul, Nat.one_mul]
  rfl

theorem isCounted_of_not_mem (h : 0 ∉ shape) :
    shape.IsCounted ↔ shape.elementCount < UInt64.size := by
  unfold IsCounted
  rw [leading_of_not_mem h]

/-- A shape whose count is a word, but is not found, has no elements. -/
theorem elementCount_eq_zero_of_uncounted (hlt : shape.elementCount < UInt64.size)
    (h : ¬ shape.IsCounted) : shape.elementCount = 0 := by
  refine elementCount_of_mem ?_
  by_contra hmem
  exact h ((isCounted_of_not_mem hmem).2 hlt)

/-! ### Reshapes -/

/-- One extent of the target is to be inferred, and the count of the others is a machine word. -/
def TakesEmpty (target : Extents) : Prop :=
  List.count 0 target = 1 ∧ elementCount (target.filter (· ≠ 0)) < UInt64.size

theorem elementCount?_filter (target : Extents) :
    elementCount? (target.filter (· ≠ 0)) =
      if elementCount (target.filter (· ≠ 0)) < UInt64.size then
        some (elementCount (target.filter (· ≠ 0))) else none := by
  have hmem : 0 ∉ target.filter (· ≠ 0) := by simp
  rw [elementCount?_eq]
  exact if_congr (isCounted_of_not_mem hmem) rfl rfl

/-- A shape whose count is not found is refused for that, unless the target is refused first. -/
theorem reshape_uncounted (h : ¬ shape.IsCounted) (target : Extents) :
    reshape (some shape) target =
      .error (if 1 < List.count 0 target then .manyInferred target else .countTooLarge shape) := by
  by_cases hmany : 1 < List.count 0 target
  · rw [if_pos hmany]
    exact if_pos hmany
  · have hnone : shape.elementCount? = none := by rw [elementCount?_eq, if_neg h]
    rw [reshape_of_count_le (Nat.le_of_not_lt hmany), reshapeKnown_of_uncounted hnone, if_neg hmany]
    rfl

/-- No elements go into a target iff an extent of it is to be inferred. -/
theorem exists_fit_iff_of_empty {known : Nat} (hpos : 0 < known) :
    (∃ after, shape.fit target 0 known = .ok after) ↔ 0 ∈ target := by
  unfold fit
  by_cases hzero : 0 ∈ target
  · simp [hzero, Nat.ne_of_gt hpos]
  · simp [hzero, Nat.ne_of_gt hpos]

/-- A shape without elements whose count is found can be reshaped iff there is one extent to infer
and the others leave room for their count. -/
theorem exists_reshape_iff_of_empty (h : shape.elementCount? = some 0) :
    (∃ after, reshape (some shape) target = .ok after) ↔ target.TakesEmpty := by
  unfold TakesEmpty
  by_cases hmany : 1 < List.count 0 target
  · have hrefused : reshape (some shape) target = .error (.manyInferred target) := if_pos hmany
    simp [hrefused, Nat.ne_of_gt hmany]
  have hone := Nat.le_of_not_lt hmany
  have hmem : List.count 0 target = 1 ↔ 0 ∈ target := by
    rw [← List.one_le_count_iff]
    omega
  have hknown := elementCount?_filter target
  rw [reshape_of_count_le hone, exists_map_eq_ok, hmem]
  split at hknown
  · rename_i hlt
    rw [reshapeKnown_of_counted h hknown, and_iff_left hlt]
    exact exists_fit_iff_of_empty (pos_of_elementCount?_filter hknown)
  · rename_i hlt
    rw [reshapeKnown_of_target_uncounted h hknown]
    simp only [hlt, and_false, iff_false, not_exists]
    intro after hafter
    cases hafter

/-- The error for a count that is not found is given iff it is not found and the target leaves at
most one extent to infer. -/
theorem reshape_eq_countTooLarge :
    reshape (some shape) target = .error (.countTooLarge shape) ↔
      List.count 0 target ≤ 1 ∧ ¬ shape.IsCounted := by
  constructor
  · intro h
    have hone : List.count 0 target ≤ 1 := by
      by_contra hmany
      have hrefused : reshape (some shape) target = .error (.manyInferred target) :=
        if_pos (Nat.lt_of_not_le hmany)
      rw [h] at hrefused
      cases hrefused
    refine ⟨hone, fun hcounted => ?_⟩
    have hcount : shape.elementCount? = some shape.elementCount := by
      rw [elementCount?_eq, if_pos hcounted]
    rw [reshape_of_count_le hone, except_map_eq_error] at h
    cases hknown : elementCount? (target.filter (· ≠ 0)) with
    | none =>
      rw [reshapeKnown_of_target_uncounted hcount hknown] at h
      cases h
    | some known =>
      rw [reshapeKnown_of_counted hcount hknown] at h
      unfold fit at h
      split at h <;> split at h <;> cases h
  · intro h
    obtain ⟨hone, huncounted⟩ := h
    rw [reshape_uncounted huncounted, if_neg (Nat.not_lt.2 hone)]

/-- Where one of two shapes has no count, they are reshaped to the same iff the other one cannot be
reshaped either. -/
theorem reshape_agree_iff_of_uncounted (h : ¬ left.IsCounted) :
    AgreeUpTo Error.BothValidation Eq (reshape (some left) target) (reshape (some right) target) ↔
      ¬ ∃ after, reshape (some right) target = .ok after := by
  have hcategory : ∀ {input : Extents} {e : Error}, reshape (some input) target = .error e →
      e.category = .validation := fun h => (reshape_eq_error h).category_eq
  have hleft := reshape_uncounted h target
  cases hright : reshape (some right) target with
  | ok after =>
    rw [hleft]
    exact ⟨False.elim, fun h => h ⟨after, rfl⟩⟩
  | error e =>
    refine ⟨fun _ h => ?_, fun _ => ?_⟩
    · obtain ⟨after, h⟩ := h
      cases h
    · have hfailed := hcategory hleft
      rw [hleft]
      exact AgreeUpTo.error ⟨hfailed, hcategory hright⟩

/-- The same with the other shape in front. -/
theorem agree_comm :
    AgreeUpTo Error.BothValidation Eq (reshape (some left) target) (reshape (some right) target) ↔
      AgreeUpTo Error.BothValidation Eq (reshape (some right) target)
        (reshape (some left) target) :=
  ⟨fun h => h.symm (fun _ _ => And.symm) fun _ _ => Eq.symm,
    fun h => h.symm (fun _ _ => And.symm) fun _ _ => Eq.symm⟩

/-- Of two shapes without elements where only one has a count, both are reshaped to the same iff
nothing without elements can be reshaped to the target. -/
theorem reshape_agree_iff_of_one_counted (hleft : ¬ left.IsCounted) (hright : right.IsCounted)
    (hcount : left.elementCount = right.elementCount) (hlt : left.elementCount < UInt64.size) :
    AgreeUpTo Error.BothValidation Eq (reshape (some left) target) (reshape (some right) target) ↔
      ¬ target.TakesEmpty := by
  have hzero := elementCount_eq_zero_of_uncounted hlt hleft
  have hfound : right.elementCount? = some 0 := by
    rw [elementCount?_eq, if_pos hright, ← hcount, hzero]
  rw [reshape_agree_iff_of_uncounted hleft, exists_reshape_iff_of_empty hfound]

end Extents

/-- **Shapes of the same count.** Two shapes of the same count, which is a machine word, are
reshaped to the same shape, or both are refused, iff the counts of both are found, or of neither, or
the target takes no shape without elements. The error for a count that is not found is given iff the
extents in front of the first zero have none and the target leaves at most one extent to infer; for
a shape with elements these are all its extents. -/
theorem sameCount_agrees_iff (left right target : Extents) :
    (left.elementCount = right.elementCount → left.elementCount < UInt64.size →
      (AgreeUpTo Error.BothValidation Eq (Extents.reshape (some left) target)
          (Extents.reshape (some right) target) ↔
        (left.IsCounted ↔ right.IsCounted) ∨ ¬ target.TakesEmpty)) ∧
    (Extents.reshape (some left) target = .error (.countTooLarge left) ↔
      List.count 0 target ≤ 1 ∧ ¬ left.IsCounted) ∧
    (0 ∉ left → (left.IsCounted ↔ left.elementCount < UInt64.size)) := by
  refine ⟨fun hcount hlt => ?_, Extents.reshape_eq_countTooLarge, Extents.isCounted_of_not_mem⟩
  by_cases hleft : left.IsCounted
  · by_cases hright : right.IsCounted
    · have hfound : left.elementCount? = some left.elementCount := by
        rw [Extents.elementCount?_eq, if_pos hleft]
      have hfound' : right.elementCount? = some left.elementCount := by
        rw [Extents.elementCount?_eq, if_pos hright, hcount]
      have hagree := Extents.reshape_agree hfound hfound' target
      simp [hleft, hright, hagree]
    · rw [Extents.agree_comm,
        Extents.reshape_agree_iff_of_one_counted hright hleft hcount.symm (hcount ▸ hlt)]
      simp [hleft, hright]
  · by_cases hright : right.IsCounted
    · rw [Extents.reshape_agree_iff_of_one_counted hleft hright hcount hlt]
      simp [hleft, hright]
    · have hrefused := Extents.reshape_uncounted hright target
      rw [Extents.reshape_agree_iff_of_uncounted hleft, hrefused]
      simp [hleft, hright]

/-- Two shapes without elements whose counts are found, though the extents of one are too large
together, and two of which only one has a count, under a target that takes neither. -/
theorem sameCount_agrees_iff_empty :
    AgreeUpTo Error.BothValidation Eq
        (Extents.reshape (some [0, 9223372036854775808, 2]) [7, 0])
        (Extents.reshape (some [5, 0]) [7, 0]) ∧
      AgreeUpTo Error.BothValidation Eq
        (Extents.reshape (some [9223372036854775808, 2, 0]) [7, 1])
        (Extents.reshape (some [5, 0]) [7, 1]) ∧
      Extents.IsCounted [9223372036854775807, 2] := by
  refine ⟨((sameCount_agrees_iff _ _ _).1 (by decide) (by decide)).2 (.inl (by decide)),
    ((sameCount_agrees_iff _ _ _).1 (by decide) (by decide)).2 (.inr ?_),
    ((sameCount_agrees_iff _ [] []).2.2 (by decide)).2 (by decide)⟩
  intro htakes
  have hnone : ¬ List.count 0 ([7, 1] : Extents) = 1 := by decide
  exact hnone htakes.1

/-- The same extents in two orders: no elements, but with the large extents in front of the zero the
count is said to be too large. -/
theorem sameCount_order_disagrees :
    Extents.elementCount [9223372036854775808, 2, 0] = 0 ∧
      Extents.elementCount [0, 9223372036854775808, 2] = 0 ∧
      Extents.reshape (some [9223372036854775808, 2, 0]) [0] =
        .error (.countTooLarge [9223372036854775808, 2, 0]) ∧
      Extents.reshape (some [0, 9223372036854775808, 2]) [0] = .ok (some [0]) ∧
      ¬ (∀ left right target : Extents, left.elementCount = right.elementCount →
        left.elementCount < UInt64.size →
        AgreeUpTo Error.BothValidation Eq (Extents.reshape (some left) target)
          (Extents.reshape (some right) target)) := by
  refine ⟨rfl, rfl, rfl, rfl, fun h => ?_⟩
  exact h [9223372036854775808, 2, 0] [0, 9223372036854775808, 2] [0] rfl (by decide)

end ComputeGraph
