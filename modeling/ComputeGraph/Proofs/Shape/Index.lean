import ComputeGraph.Shape.Basic
import Mathlib.Data.List.Forall2

/-!
# Indices of elements

The elements of a tensor can be numbered with the last axis running fastest, or with the first. An
index in a shape has the same number in the first way as the reversed index has in the second way in
the reversed shape.

* `Extents.IsIndex` — an index with a place on every axis of a shape;
* `Extents.rowMajor`, `Extents.columnMajor` — the two numbers of an index;
* **`Extents.rowMajor_eq_columnMajor`** — reversal exchanges them;
* **`Extents.existsUnique_index`** — every number below the element count is that of one index.
-/

namespace ComputeGraph.Extents

/-- An index has a place on every axis, below the extent there. -/
def IsIndex (shape : Extents) (index : List Nat) : Prop :=
  List.Forall₂ (fun n i => i < n.toNat) shape index

/-- The number of an index where the last axis runs fastest. -/
def rowMajor : Extents → List Nat → Nat
  | _ :: shape, i :: index => i * elementCount shape + rowMajor shape index
  | _, _ => 0

/-- The number of an index where the first axis runs fastest. -/
def columnMajor : Extents → List Nat → Nat
  | n :: shape, i :: index => i + n.toNat * columnMajor shape index
  | _, _ => 0

variable {shape : Extents} {index : List Nat}

theorem elementCount_append (shape more : Extents) :
    elementCount (shape ++ more) = elementCount shape * elementCount more := by
  induction shape with
  | nil => exact (Nat.one_mul _).symm
  | cons n shape ih =>
    show n.toNat * elementCount (shape ++ more) = n.toNat * elementCount shape * elementCount more
    rw [ih, Nat.mul_assoc]

theorem elementCount_reverse (shape : Extents) :
    elementCount shape.reverse = elementCount shape := by
  induction shape with
  | nil => rfl
  | cons n shape ih =>
    rw [List.reverse_cons, elementCount_append, ih]
    show _ * (n.toNat * 1) = n.toNat * _
    rw [Nat.mul_one, Nat.mul_comm]

theorem elementCount_pos (h : 0 ∉ shape) : 0 < elementCount shape := by
  induction shape with
  | nil => exact Nat.one_pos
  | cons n shape ih =>
    obtain ⟨hn, hshape⟩ := not_or.1 (fun hmem => h (List.mem_cons.2 hmem))
    have hpos : 0 < n.toNat := Nat.pos_of_ne_zero fun hzero => hn (UInt64.toNat_inj.1 hzero.symm)
    exact Nat.mul_pos hpos (ih hshape)

theorem isIndex_reverse_iff : IsIndex shape.reverse index.reverse ↔ IsIndex shape index :=
  List.forall₂_reverse_iff

/-- The last axis counts for as much as all others together have elements. -/
theorem columnMajor_concat (h : IsIndex shape index) (n : UInt64) (i : Nat) :
    columnMajor (shape ++ [n]) (index ++ [i]) =
      columnMajor shape index + elementCount shape * i := by
  induction h with
  | nil => simp [columnMajor, elementCount]
  | @cons m j shape index _ _ ih =>
    show j + m.toNat * columnMajor (shape ++ [n]) (index ++ [i]) = _
    rw [ih, columnMajor, elementCount, Nat.mul_add, Nat.mul_assoc, Nat.add_assoc]

/-- **Reversal** exchanges the two numbers of an index. -/
theorem rowMajor_eq_columnMajor (h : IsIndex shape index) :
    rowMajor shape index = columnMajor shape.reverse index.reverse := by
  induction h with
  | nil => rfl
  | @cons n i shape index _ htail ih =>
    rw [List.reverse_cons, List.reverse_cons, columnMajor_concat (isIndex_reverse_iff.2 htail),
      ← ih, elementCount_reverse, rowMajor, Nat.add_comm, Nat.mul_comm]

theorem columnMajor_lt (h : IsIndex shape index) :
    columnMajor shape index < elementCount shape := by
  induction h with
  | nil => exact Nat.one_pos
  | @cons n i shape index hi _ ih =>
    calc columnMajor (n :: shape) (i :: index)
        < n.toNat + n.toNat * columnMajor shape index := Nat.add_lt_add_right hi _
      _ = n.toNat * (columnMajor shape index + 1) := by rw [Nat.mul_succ, Nat.add_comm]
      _ ≤ n.toNat * elementCount shape := Nat.mul_le_mul_left _ ih

theorem rowMajor_lt (h : IsIndex shape index) : rowMajor shape index < elementCount shape := by
  rw [rowMajor_eq_columnMajor h, ← elementCount_reverse]
  exact columnMajor_lt (isIndex_reverse_iff.2 h)

/-- **Every number below the element count** is that of exactly one index. -/
theorem existsUnique_index {m : Nat} (h : m < elementCount shape) :
    ∃! index, IsIndex shape index ∧ columnMajor shape index = m := by
  induction shape generalizing m with
  | nil =>
    have hm : m = 0 := Nat.lt_one_iff.1 h
    refine ⟨[], ⟨.nil, hm.symm⟩, fun index hindex => ?_⟩
    exact List.forall₂_nil_left_iff.1 hindex.1
  | cons n shape ih =>
    have hn : 0 < n.toNat := Nat.pos_of_mul_pos_right (Nat.zero_lt_of_lt h)
    have hrest : m / n.toNat < elementCount shape := Nat.div_lt_of_lt_mul h
    obtain ⟨index, ⟨hindex, hnumber⟩, hunique⟩ := ih hrest
    refine ⟨m % n.toNat :: index, ⟨.cons (Nat.mod_lt _ hn) hindex, ?_⟩, ?_⟩
    · show m % n.toNat + n.toNat * columnMajor shape index = m
      rw [hnumber, Nat.mod_add_div]
    · -- the place on the first axis is the remainder, and the others make up the quotient
      intro other hother
      obtain ⟨hindex', hnumber'⟩ := hother
      obtain ⟨i, rest, hi, hrest', rfl⟩ := List.forall₂_cons_left_iff.1 hindex'
      have hsum : i + n.toNat * columnMajor shape rest = m := hnumber'
      have hplace : m % n.toNat = i := by
        rw [← hsum, Nat.add_mul_mod_self_left, Nat.mod_eq_of_lt hi]
      have hquotient : columnMajor shape rest = m / n.toNat := by
        rw [← hsum, Nat.add_mul_div_left _ _ hn, Nat.div_eq_of_lt hi, Nat.zero_add]
      rw [hplace, hunique rest ⟨hrest', hquotient⟩]

/-- The same with the index and the shape reversed. -/
theorem existsUnique_reverse {m : Nat} (h : m < elementCount shape) :
    ∃! index, IsIndex shape index ∧ columnMajor shape.reverse index.reverse = m := by
  rw [← elementCount_reverse] at h
  obtain ⟨index, ⟨hindex, hnumber⟩, hunique⟩ := existsUnique_index h
  refine ⟨index.reverse, ⟨?_, ?_⟩, fun other hother => ?_⟩
  · rw [← isIndex_reverse_iff, List.reverse_reverse]
    exact hindex
  · rw [List.reverse_reverse]
    exact hnumber
  · rw [← hunique other.reverse ⟨isIndex_reverse_iff.2 hother.1, hother.2⟩, List.reverse_reverse]

end ComputeGraph.Extents
