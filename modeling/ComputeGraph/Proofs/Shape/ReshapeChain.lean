import ComputeGraph.Proofs.Builder.Requests
import ComputeGraph.Proofs.Shape.Reshape

/-!
# Reshapes in a row

What a reshape makes of a shape depends on its count alone, and the shape after a reshape has the
same count as the one before, found without leaving the machine words. So a second reshape does the
same to the one as to the other, and a shape that a reshape gives is reshaped to itself.

The counts and the inferred extent are machine words. Worked out in words, with no result for a
division by zero, a reshape still has a result, which is the same.

* `Extents.reshape_agree` — only the count matters;
* `Extents.reshape_self` — shapes that are reshaped to themselves;
* `Extents.reshapeInWords?` — the work of a reshape in machine words;
* **`Extents.reshapeInWords?_eq`** — no step of it lacks a result;
* **`reshape_keeps_and_composes`** — all of this together.
-/

namespace ComputeGraph

namespace Extents

variable {input target shape next : Extents} {total : Nat}

/-! ### Only the count matters -/

theorem reshape_of_count_le (h : List.count 0 target ≤ 1) :
    reshape (some input) target = (input.reshapeKnown target).map some :=
  if_neg (Nat.not_lt.2 h)

theorem reshapeKnown_of_uncounted (h : input.elementCount? = none) :
    input.reshapeKnown target = .error (.countTooLarge input) := by
  simp only [reshapeKnown, h]

theorem reshapeKnown_of_target_uncounted (h : input.elementCount? = some total)
    (htarget : elementCount? (target.filter (· ≠ 0)) = none) :
    input.reshapeKnown target = .error (.targetCountTooLarge target) := by
  simp only [reshapeKnown, h, htarget]

theorem reshapeKnown_of_counted {known : Nat} (h : input.elementCount? = some total)
    (htarget : elementCount? (target.filter (· ≠ 0)) = some known) :
    input.reshapeKnown target = input.fit target total known := by
  simp only [reshapeKnown, h, htarget]

theorem fit_agree {known : Nat} (input input' : Extents) :
    AgreeUpTo Error.BothValidation Eq (input.fit target total known)
      (input'.fit target total known) := by
  unfold fit
  split
  · split
    · exact AgreeUpTo.error ⟨rfl, rfl⟩
    · exact AgreeUpTo.ok rfl
  · split
    · exact AgreeUpTo.error ⟨rfl, rfl⟩
    · exact AgreeUpTo.ok rfl

/-- Shapes whose counts are found and the same are reshaped to the same shape, or neither is. -/
theorem reshape_agree {input' : Extents} (h : input.elementCount? = some total)
    (h' : input'.elementCount? = some total) (target : Extents) :
    AgreeUpTo Error.BothValidation Eq (reshape (some input) target)
      (reshape (some input') target) := by
  by_cases hmany : 1 < List.count 0 target
  · unfold reshape
    rw [if_pos hmany, if_pos hmany]
    exact AgreeUpTo.error ⟨rfl, rfl⟩
  · have hknown : AgreeUpTo Error.BothValidation Eq (input.reshapeKnown target)
        (input'.reshapeKnown target) := by
      cases htarget : elementCount? (target.filter (· ≠ 0)) with
      | none =>
        rw [reshapeKnown_of_target_uncounted h htarget, reshapeKnown_of_target_uncounted h' htarget]
        exact AgreeUpTo.error ⟨rfl, rfl⟩
      | some known =>
        rw [reshapeKnown_of_counted h htarget, reshapeKnown_of_counted h' htarget]
        exact fit_agree input input'
    have hone := Nat.le_of_not_lt hmany
    rw [reshape_of_count_le hone, reshape_of_count_le hone]
    exact hknown.map fun _ _ hshape => congrArg some hshape

/-! ### The count of the shape after a reshape -/

/-- A count is found if that of the extents other than zero is. -/
theorem elementCount?_of_filter {known : Nat}
    (h : elementCount? (shape.filter (· ≠ 0)) = some known) :
    shape.elementCount? = some shape.elementCount := by
  obtain ⟨hknown, hlt⟩ := elementCount?_eq_some h
  unfold elementCount?
  rw [countFrom?_of_filter (by rw [Nat.one_mul, ← hknown]; exact hlt), Nat.one_mul]

theorem elementCount_of_mem (h : 0 ∈ shape) : shape.elementCount = 0 := by
  induction shape with
  | nil => cases h
  | cons n shape ih =>
    rw [elementCount]
    rcases List.mem_cons.1 h with rfl | h
    · exact Nat.zero_mul _
    · rw [ih h, Nat.mul_zero]

/-- The shape after a reshape has at most one extent of zero, and its other extents leave room for
their count. -/
theorem count_filter_of_reshapeKnown (hone : List.count 0 target ≤ 1)
    (h : input.reshapeKnown target = .ok shape) :
    List.count 0 shape ≤ 1 ∧ ∃ known, elementCount? (shape.filter (· ≠ 0)) = some known := by
  obtain ⟨total, known, htotal, hknown, hshape⟩ := reshapeKnown_cases h
  rcases hshape with ⟨hmem, extent, hextent, rfl⟩ | ⟨hnot, -, rfl⟩
  · by_cases hzero : extent = 0
    · -- nothing is inferred for an empty tensor
      rw [hzero, fill_zero]
      exact ⟨hone, known, hknown⟩
    · have hnot := not_mem_fill target hzero
      rw [filter_of_not_mem hnot, List.count_eq_zero_of_not_mem hnot]
      obtain ⟨htotal, hlt⟩ := elementCount?_eq_some htotal
      have hcount : (target.fill extent).elementCount = total := by
        rw [elementCount_fill hmem hone, ← (elementCount?_eq_some hknown).1, hextent]
      refine ⟨Nat.zero_le 1, total, ?_⟩
      unfold elementCount?
      rw [countFrom?_of_filter, Nat.one_mul, hcount]
      rwa [filter_of_not_mem hnot, Nat.one_mul, hcount]
  · exact ⟨hone, known, hknown⟩

/-- A shape with at most one extent of zero, whose other extents leave room for their count, is
reshaped to itself. -/
theorem reshape_self {known : Nat} (hone : List.count 0 shape ≤ 1)
    (h : elementCount? (shape.filter (· ≠ 0)) = some known) :
    reshape (some shape) shape = .ok (some shape) := by
  rw [reshape_of_count_le hone, reshapeKnown_of_counted (elementCount?_of_filter h) h]
  have hfit : shape.fit shape shape.elementCount known = .ok shape := by
    unfold fit
    by_cases hmem : 0 ∈ shape
    · -- the count is zero, and so is what the others leave of it
      have hknown : known ≠ 0 := Nat.ne_of_gt (pos_of_elementCount?_filter h)
      rw [if_pos hmem, elementCount_of_mem hmem, Nat.zero_mod, Nat.zero_div]
      simp [hknown, fill_zero]
    · have hknown := (elementCount?_eq_some h).1
      rw [filter_of_not_mem hmem] at hknown
      rw [if_neg hmem, if_neg (not_not.2 hknown)]
  rw [hfit]
  rfl

/-! ### In machine words -/

/-- The product of two words, if it is a word. -/
def mulWord? (x y : UInt64) : Option UInt64 :=
  if x.toNat * y.toNat < UInt64.size then some (x * y) else none

/-- The quotient and the remainder of two words, if the divisor is not zero. -/
def divWord? (x y : UInt64) : Option (UInt64 × UInt64) :=
  if y = 0 then none else some (x / y, x % y)

/-- The number of elements, if every product on the way is a word. -/
def countWord? (extents : Extents) : Option UInt64 :=
  extents.foldlM mulWord? 1

/-- The shape after a reshape from counts in words. It has no result if a division has none; whether
the divisor is zero is not asked. -/
def fitInWords? (input target : Extents) (total known : UInt64) : Option (Except Error Extents) :=
  if 0 ∈ target then do
    let (quotient, remainder) ← divWord? total known
    if remainder ≠ 0 then some (.error (.cannotInfer input target))
    else some (.ok (target.fill quotient))
  else if known ≠ total then some (.error (.countsDiffer input total.toNat target known.toNat))
  else some (.ok target)

/-- A reshape worked out in words. -/
def reshapeInWords? (input : Option Extents) (target : Extents) :
    Option (Except Error (Option Extents)) :=
  if 1 < List.count 0 target then some (.error (.manyInferred target))
  else match input with
  | none => some (.ok (if 0 ∈ target then none else some target))
  | some input =>
    match countWord? input, countWord? (target.filter (· ≠ 0)) with
    | none, _ => some (.error (.countTooLarge input))
    | some _, none => some (.error (.targetCountTooLarge target))
    | some total, some known => (fitInWords? input target total known).map (·.map some)

theorem toNat_mulWord? (x y : UInt64) :
    (mulWord? x y).map UInt64.toNat =
      if x.toNat * y.toNat < UInt64.size then some (x.toNat * y.toNat) else none := by
  unfold mulWord?
  split
  · rename_i hlt
    rw [Option.map_some, UInt64.toNat_mul, Nat.mod_eq_of_lt hlt]
  · rfl

theorem toNat_foldlM_mulWord? (start : UInt64) (extents : Extents) :
    (extents.foldlM mulWord? start).map UInt64.toNat = countFrom? start.toNat extents := by
  induction extents generalizing start with
  | nil => rfl
  | cons n extents ih =>
    have hmul := toNat_mulWord? start n
    rw [List.foldlM_cons, countFrom?]
    cases hproduct : mulWord? start n with
    | none =>
      rw [hproduct] at hmul
      split at hmul
      · cases hmul
      · rename_i hlt
        rw [if_neg hlt]
        rfl
    | some product =>
      rw [hproduct] at hmul
      split at hmul
      · rename_i hlt
        rw [if_pos hlt, ← Option.some.inj hmul]
        exact ih product
      · cases hmul

/-- Counts in words are the counts. -/
theorem toNat_countWord? (extents : Extents) :
    (countWord? extents).map UInt64.toNat = extents.elementCount? :=
  toNat_foldlM_mulWord? 1 extents

/-- A divisor that is not zero is all that the division needs. -/
theorem fitInWords?_eq (input target : Extents) (total : UInt64) {known : UInt64}
    (hpos : 0 < known.toNat) :
    fitInWords? input target total known =
      some (input.fit target total.toNat known.toNat) := by
  have hne : known ≠ 0 := by
    intro hzero
    rw [hzero] at hpos
    exact Nat.lt_irrefl 0 hpos
  have hremainder : total % known ≠ 0 ↔ known.toNat = 0 ∨ total.toNat % known.toNat ≠ 0 := by
    rw [← UInt64.toNat_mod, ne_eq, ← UInt64.toNat_inj]
    simp [Nat.ne_of_gt hpos]
  have hquotient : UInt64.ofNat (total.toNat / known.toNat) = total / known := by
    rw [← UInt64.toNat_div, UInt64.ofNat_toNat]
  unfold fitInWords? fit divWord?
  rw [if_neg hne]
  by_cases hmem : 0 ∈ target
  · rw [if_pos hmem, if_pos hmem, hquotient]
    by_cases hdivides : total % known ≠ 0
    · rw [if_pos (hremainder.1 hdivides)]
      simp [hdivides]
    · rw [if_neg (mt hremainder.2 hdivides)]
      simp [not_not.1 hdivides]
  · rw [if_neg hmem, if_neg hmem]
    by_cases hcounts : known = total
    · simp [hcounts]
    · have hcounts' : known.toNat ≠ total.toNat := mt UInt64.toNat_inj.1 hcounts
      rw [if_pos hcounts, if_pos hcounts']

/-- **No step of a reshape lacks a result in words,** and the result is that of the reshape. -/
theorem reshapeInWords?_eq (input : Option Extents) (target : Extents) :
    reshapeInWords? input target = some (reshape input target) := by
  unfold reshapeInWords? reshape
  by_cases hmany : 1 < List.count 0 target
  · rw [if_pos hmany, if_pos hmany]
  rw [if_neg hmany, if_neg hmany]
  cases input with
  | none => rfl
  | some input =>
    have htotal := toNat_countWord? input
    have hknown := toNat_countWord? (target.filter (· ≠ 0))
    dsimp only
    cases hinput : countWord? input with
    | none =>
      rw [hinput] at htotal
      rw [reshapeKnown_of_uncounted htotal.symm]
      rfl
    | some total =>
      rw [hinput] at htotal
      cases hword : countWord? (target.filter (· ≠ 0)) with
      | none =>
        rw [hword] at hknown
        rw [reshapeKnown_of_target_uncounted htotal.symm hknown.symm]
        rfl
      | some known =>
        rw [hword] at hknown
        rw [reshapeKnown_of_counted htotal.symm hknown.symm]
        have hpos := pos_of_elementCount?_filter hknown.symm
        exact congrArg (Option.map (·.map some)) (fitInWords?_eq input target total hpos)

end Extents

/-- **Reshapes of known shapes.** The shape after a reshape keeps what the target fixes and the
number of elements, which is below `2 ^ 64`. It is reshaped to itself, and a further reshape makes
the same of it as of the shape before the first one. In machine words no reshape divides by zero,
and its result is that of the counts without bound. -/
theorem reshape_keeps_and_composes :
    (∀ input target shape : Extents, Extents.reshape (some input) target = .ok (some shape) →
      shape.Keeps target ∧
      shape.elementCount = input.elementCount ∧ shape.elementCount < UInt64.size ∧
      Extents.reshape (some shape) shape = .ok (some shape) ∧
      ∀ next : Extents, AgreeUpTo Error.BothValidation Eq (Extents.reshape (some shape) next)
        (Extents.reshape (some input) next)) ∧
    ∀ (input : Option Extents) (target : Extents),
      Extents.reshapeInWords? input target = some (Extents.reshape input target) := by
  refine ⟨fun input target shape h => ?_, Extents.reshapeInWords?_eq⟩
  have hone : List.count 0 target ≤ 1 := by
    by_contra hmany
    unfold Extents.reshape at h
    rw [if_pos (Nat.lt_of_not_le hmany)] at h
    cases h
  rw [Extents.reshape_of_count_le hone] at h
  obtain ⟨shape', hshape, hsome⟩ := except_map_eq_ok.1 h
  obtain rfl := Option.some.inj hsome
  obtain ⟨hkeeps, hcount⟩ := Extents.reshapeKnown_eq_ok hone hshape
  obtain ⟨total, known, htotal, -, -⟩ := Extents.reshapeKnown_cases hshape
  obtain ⟨htotal', hlt⟩ := Extents.elementCount?_eq_some htotal
  obtain ⟨hone', known', hknown'⟩ := Extents.count_filter_of_reshapeKnown hone hshape
  have hafter := Extents.elementCount?_of_filter hknown'
  rw [hcount, ← htotal'] at hafter
  refine ⟨hkeeps, hcount, ?_, Extents.reshape_self hone' hknown',
    Extents.reshape_agree hafter htotal⟩
  rwa [hcount, ← htotal']

/-- An inferred extent of six, and an empty tensor whose inferred extent is zero again. -/
theorem reshape_keeps_and_composes_empty :
    Extents.reshape (some [3, 4]) [0, 2] = .ok (some [6, 2]) ∧
      Extents.reshape (some [6, 2]) [6, 2] = .ok (some [6, 2]) ∧
      Extents.reshape (some [5, 0]) [9223372036854775808, 0] =
        .ok (some [9223372036854775808, 0]) ∧
      Extents.elementCount [9223372036854775808, 0] = Extents.elementCount [5, 0] ∧
      AgreeUpTo Error.BothValidation Eq
        (Extents.reshape (some [9223372036854775808, 0]) [0, 0, 7])
        (Extents.reshape (some [5, 0]) [0, 0, 7]) := by
  have hinferred : Extents.reshape (some [3, 4]) [0, 2] = .ok (some [6, 2]) := by rfl
  have hempty : Extents.reshape (some [5, 0]) [9223372036854775808, 0] =
      .ok (some [9223372036854775808, 0]) := by rfl
  obtain ⟨-, -, -, hself, -⟩ := reshape_keeps_and_composes.1 _ _ _ hinferred
  obtain ⟨-, hcount, -, -, hnext⟩ := reshape_keeps_and_composes.1 _ _ _ hempty
  exact ⟨hinferred, hself, hempty, hcount, hnext _⟩

end ComputeGraph
