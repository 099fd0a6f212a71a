import ComputeGraph.Proofs.Outcome
import ComputeGraph.Proofs.Shape.Index

/-!
# What a reshape keeps

A reshape keeps the number of elements and the extents that its target fixes. Where the shape before
is unknown there is nothing to infer, and the target is the shape after.

* `countFrom?_eq_some` — a count that is found is exact and below `2 ^ 64`;
* `elementCount_fill` — the inferred extent counts as often as the others leave room for;
* **`Extents.reshapeKnown_eq_ok`**, **`Extents.reshape_eq_some`** — what is kept.
-/

namespace ComputeGraph

/-! ### Counts -/

theorem countFrom?_eq_some {start n : Nat} {extents : Extents}
    (h : countFrom? start extents = some n) :
    n = start * extents.elementCount ∧ (start < UInt64.size → n < UInt64.size) := by
  induction extents generalizing start with
  | nil =>
    cases h
    exact ⟨(Nat.mul_one n).symm, id⟩
  | cons extent extents ih =>
    rw [countFrom?] at h
    split at h
    · rename_i hlt
      obtain ⟨hn, hsize⟩ := ih h
      rw [hn, Extents.elementCount, Nat.mul_assoc]
      rw [hn, Nat.mul_assoc] at hsize
      exact ⟨rfl, fun _ => hsize hlt⟩
    · cases h

/-- A count is found if the extents other than zero leave room for it: each partial product is zero
or divides theirs. -/
theorem countFrom?_of_filter {start : Nat} {extents : Extents}
    (h : start * Extents.elementCount (extents.filter (· ≠ 0)) < UInt64.size) :
    countFrom? start extents = some (start * extents.elementCount) := by
  induction extents generalizing start with
  | nil => exact congrArg some (Nat.mul_one start).symm
  | cons extent extents ih =>
    rw [Extents.elementCount, ← Nat.mul_assoc]
    have hlt : start * extent.toNat < UInt64.size ∧
        start * extent.toNat * Extents.elementCount (extents.filter (· ≠ 0)) < UInt64.size := by
      by_cases hextent : extent = 0
      · simp [hextent, UInt64.size]
      · rw [List.filter_cons_of_pos (by simpa using hextent), Extents.elementCount,
          ← Nat.mul_assoc] at h
        have hpos : 0 < Extents.elementCount (extents.filter (· ≠ 0)) :=
          Extents.elementCount_pos (by simp)
        exact ⟨Nat.lt_of_le_of_lt (Nat.le_mul_of_pos_right _ hpos) h, h⟩
    rw [countFrom?, if_pos hlt.1]
    exact ih hlt.2

namespace Extents

theorem filter_of_not_mem {target : Extents} (h : 0 ∉ target) : target.filter (· ≠ 0) = target :=
  List.filter_eq_self.2 fun _ hn => decide_eq_true fun heq => h (heq ▸ hn)

/-- A count that is found is the exact number of elements and below `2 ^ 64`. -/
theorem elementCount?_eq_some {extents : Extents} {n : Nat} (h : extents.elementCount? = some n) :
    n = extents.elementCount ∧ n < UInt64.size := by
  obtain ⟨hn, hlt⟩ := countFrom?_eq_some h
  exact ⟨hn.trans (Nat.one_mul _), hlt (by decide)⟩

/-! ### Filling in an extent -/

theorem length_fill (extent : UInt64) (target : Extents) :
    (target.fill extent).length = target.length :=
  List.length_map _

/-- What is not zero stays. -/
theorem getElem?_fill {extent n : UInt64} {target : Extents} {i : Nat} (h : target[i]? = some n)
    (hn : n ≠ 0) : (target.fill extent)[i]? = some n := by
  unfold fill
  rw [List.getElem?_map, h]
  show some (if n = 0 then extent else n) = some n
  rw [if_neg hn]

theorem fill_of_not_mem {extent : UInt64} {target : Extents} (h : 0 ∉ target) :
    target.fill extent = target := by
  unfold fill
  conv_rhs => rw [← List.map_id target]
  refine List.map_congr_left fun n hn => ?_
  have hne : n ≠ 0 := fun heq => h (heq ▸ hn)
  rw [if_neg hne]
  rfl

theorem fill_zero (target : Extents) : target.fill 0 = target := by
  unfold fill
  conv_rhs => rw [← List.map_id target]
  refine List.map_congr_left fun n _ => ?_
  split
  · rename_i hn
    exact hn.symm
  · rfl

theorem not_mem_fill (target : Extents) {extent : UInt64} (h : extent ≠ 0) :
    0 ∉ target.fill extent := by
  intro hmem
  obtain ⟨n, -, hn⟩ := List.mem_map.1 hmem
  split at hn
  · exact h hn
  · rename_i hne
    exact hne hn

/-- With one extent to infer, the number of elements is that extent times the product of the
others. -/
theorem elementCount_fill {extent : UInt64} {target : Extents} (hmem : 0 ∈ target)
    (hone : List.count 0 target ≤ 1) :
    (target.fill extent).elementCount = extent.toNat * elementCount (target.filter (· ≠ 0)) := by
  induction target with
  | nil => cases hmem
  | cons n target ih =>
    by_cases hn : n = 0
    · subst hn
      have hnot : 0 ∉ target := by
        rw [List.count_cons_self] at hone
        exact List.count_eq_zero.1 (by omega)
      have hfill : fill extent (0 :: target) = extent :: target := by
        show (if (0 : UInt64) = 0 then extent else 0) :: fill extent target = _
        rw [if_pos rfl, fill_of_not_mem hnot]
      rw [hfill, List.filter_cons_of_neg (by simp), filter_of_not_mem hnot]
      rfl
    · have hmem' : 0 ∈ target := (List.mem_cons.1 hmem).resolve_left (Ne.symm hn)
      have hone' : List.count 0 target ≤ 1 := by
        rw [List.count_cons_of_ne hn] at hone
        exact hone
      have hfill : fill extent (n :: target) = n :: fill extent target := by
        show (if n = 0 then extent else n) :: fill extent target = _
        rw [if_neg hn]
      rw [hfill, List.filter_cons_of_pos (by simpa using hn), elementCount, elementCount,
        ih hmem' hone', Nat.mul_left_comm]

/-! ### Reshaping -/

/-- A shape keeps what a target fixes: its length and its extents other than zero. -/
def Keeps (shape target : Extents) : Prop :=
  shape.length = target.length ∧ ∀ (i : Nat) (n : UInt64), target[i]? = some n → n ≠ 0 →
    shape[i]? = some n

theorem Keeps.refl (target : Extents) : Keeps target target :=
  ⟨rfl, fun _ _ h _ => h⟩

theorem Keeps.fill (extent : UInt64) (target : Extents) : Keeps (target.fill extent) target :=
  ⟨length_fill extent target, fun _ _ h hn => getElem?_fill h hn⟩

/-- The count of extents other than zero is not zero. -/
theorem pos_of_elementCount?_filter {target : Extents} {known : Nat}
    (h : elementCount? (target.filter (· ≠ 0)) = some known) : 0 < known := by
  rw [(elementCount?_eq_some h).1]
  exact elementCount_pos (by simp)

/-- A reshape of a known shape finds both counts. Where an extent is to be inferred, it is what the
others leave of the elements; otherwise the counts are the same and the target is the shape. -/
theorem reshapeKnown_cases {input target shape : Extents}
    (h : input.reshapeKnown target = .ok shape) :
    ∃ total known, input.elementCount? = some total ∧
      elementCount? (target.filter (· ≠ 0)) = some known ∧
      ((0 ∈ target ∧ ∃ extent : UInt64, extent.toNat * known = total ∧
          shape = target.fill extent) ∨
        0 ∉ target ∧ known = total ∧ shape = target) := by
  unfold reshapeKnown at h
  split at h
  · cases h
  · rename_i total htotal
    split at h
    · cases h
    · rename_i known hknown
      refine ⟨total, known, htotal, hknown, ?_⟩
      unfold fit at h
      split at h
      · rename_i hmem
        split at h
        · cases h
        · rename_i hdivides
          obtain ⟨-, hmod⟩ := not_or.1 hdivides
          cases h
          have hlt := (elementCount?_eq_some htotal).2
          have hquotient : (UInt64.ofNat (total / known)).toNat = total / known :=
            Nat.mod_eq_of_lt (Nat.lt_of_le_of_lt (Nat.div_le_self total known) hlt)
          refine .inl ⟨hmem, _, ?_, rfl⟩
          rw [hquotient]
          exact Nat.div_mul_cancel (Nat.dvd_of_mod_eq_zero (not_not.1 hmod))
      · rename_i hnot
        split at h
        · cases h
        · rename_i hcounts
          cases h
          exact .inr ⟨hnot, not_not.1 hcounts, rfl⟩

/-- **A reshape of a known shape** keeps what the target fixes and the number of elements. -/
theorem reshapeKnown_eq_ok {input target shape : Extents} (hone : List.count 0 target ≤ 1)
    (h : input.reshapeKnown target = .ok shape) :
    Keeps shape target ∧ shape.elementCount = input.elementCount := by
  obtain ⟨total, known, htotal, hknown, hshape⟩ := reshapeKnown_cases h
  obtain ⟨htotal, -⟩ := elementCount?_eq_some htotal
  obtain ⟨hknown, -⟩ := elementCount?_eq_some hknown
  rcases hshape with ⟨hmem, extent, hextent, rfl⟩ | ⟨hnot, hcounts, rfl⟩
  · refine ⟨Keeps.fill _ target, ?_⟩
    rw [elementCount_fill hmem hone, ← hknown, hextent, htotal]
  · refine ⟨Keeps.refl _, ?_⟩
    rw [← htotal, ← hcounts, hknown, filter_of_not_mem hnot]

/-- **A reshape to a known shape** keeps what the target fixes and, where the shape before is known,
the number of elements; where it is not, the target is the shape after. -/
theorem reshape_eq_some {input : Option Extents} {target shape : Extents}
    (h : reshape input target = .ok (some shape)) :
    Keeps shape target ∧
      (∀ extents, input = some extents → shape.elementCount = extents.elementCount) ∧
      (input = none → shape = target) := by
  unfold reshape at h
  split at h
  · cases h
  · rename_i hone
    cases input with
    | none =>
      by_cases hmem : 0 ∈ target
      · simp [hmem] at h
      · have hshape : target = shape := by simpa [hmem] using h
        rw [← hshape]
        refine ⟨Keeps.refl target, ?_, fun _ => rfl⟩
        intro extents hnone
        cases hnone
    | some extents =>
      obtain ⟨known, hknown, hshape⟩ := except_map_eq_ok.1 h
      obtain ⟨hkeeps, hcount⟩ := reshapeKnown_eq_ok (Nat.le_of_not_lt hone) hknown
      cases hshape
      refine ⟨hkeeps, ?_, ?_⟩
      · intro extents' heq
        rw [← Option.some.inj heq]
        exact hcount
      · intro hnone
        cases hnone

end Extents

end ComputeGraph
