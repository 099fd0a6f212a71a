import ComputeGraph.Proofs.Builder.Requests
import ComputeGraph.Proofs.Shape.Index

/-!
# Products take their operands apart

The left operand of a product consists of axes that stay and axes that are contracted, the right one
of the contracted axes and axes that stay. The axes that stay, in a row, are the shape. Said in this
way a product of reversed and exchanged operands is the reversed product, and three operands can be
multiplied from either end.

* `Extents.Contracts` — how two operands overlap and what is left of them;
* **`Extents.product_eq_ok`** — products are found iff the operands overlap;
* `Extents.contracts_reverse`, `Extents.Contracts.elementCount_eq`, `Extents.Contracts.mem` — the
  engine's side of a product, its number of elements, and its extents;
* `Extents.Links` — how three operands overlap, which both orders of multiplication come to;
* **`product_assoc`** — products are associative, failures included.
-/

namespace ComputeGraph

namespace Extents

variable {first second third shape left right : Extents} {count : Nat}

/-! ### Two operands -/

/-- The last `count` axes of the first shape are the first ones of the second, and the other axes in
a row make up a shape. -/
def Contracts (count : Nat) (first second shape : Extents) : Prop :=
  ∃ outer shared inner, first = outer ++ shared ∧ second = shared ++ inner ∧
    shared.length = count ∧ shape = outer ++ inner

/-- The overlap of two shapes, cut out by its length. -/
theorem contracts_iff :
    Contracts count first second shape ↔
      count ≤ first.length ∧ count ≤ second.length ∧
        first.drop (first.length - count) = second.take count ∧
        shape = first.take (first.length - count) ++ second.drop count := by
  constructor
  · intro h
    obtain ⟨outer, shared, inner, rfl, rfl, rfl, rfl⟩ := h
    have houter : (outer ++ shared).length - shared.length = outer.length := by
      rw [List.length_append, Nat.add_sub_cancel]
    rw [houter, List.drop_left, List.take_left, List.take_left, List.drop_left]
    exact ⟨by simp, by simp, rfl, rfl⟩
  · intro h
    obtain ⟨-, hsecond, hshared, rfl⟩ := h
    refine ⟨_, second.take count, _, ?_, (List.take_append_drop count second).symm,
      List.length_take_of_le hsecond, rfl⟩
    rw [← hshared, List.take_append_drop]

/-- Reversed shapes overlap the other way round. -/
theorem contracts_reverse :
    Contracts count second.reverse first.reverse shape.reverse ↔
      Contracts count first second shape := by
  have hone : ∀ {first second shape : Extents}, Contracts count first second shape →
      Contracts count second.reverse first.reverse shape.reverse := by
    intro first second shape h
    obtain ⟨outer, shared, inner, rfl, rfl, rfl, rfl⟩ := h
    exact ⟨inner.reverse, shared.reverse, outer.reverse, List.reverse_append,
      List.reverse_append, List.length_reverse, List.reverse_append⟩
  refine ⟨fun h => ?_, hone⟩
  simpa only [List.reverse_reverse] using hone h

/-- A contraction takes all its extents from one of the two shapes. -/
theorem Contracts.mem (h : Contracts count first second shape) {n : UInt64} (hn : n ∈ shape) :
    n ∈ first ∨ n ∈ second := by
  obtain ⟨outer, shared, inner, rfl, rfl, -, rfl⟩ := h
  rcases List.mem_append.1 hn with hn | hn
  · exact .inl (List.mem_append_left _ hn)
  · exact .inr (List.mem_append_right _ hn)

/-- What is contracted counts in both operands and not in the shape. -/
theorem Contracts.elementCount_eq (h : Contracts count first second shape) :
    shape.elementCount * (elementCount (second.take count) * elementCount (second.take count)) =
      first.elementCount * second.elementCount := by
  obtain ⟨outer, shared, inner, rfl, rfl, rfl, rfl⟩ := h
  rw [List.take_left, elementCount_append, elementCount_append, elementCount_append]
  ac_rfl

theorem Contracts.length_eq (h : Contracts count first second shape) :
    shape.length + 2 * count = first.length + second.length := by
  obtain ⟨outer, shared, inner, rfl, rfl, rfl, rfl⟩ := h
  simp only [List.length_append]
  omega

/-- **Products** are found iff at least one axis of the left operand is kept, and the others are the
first axes of the right one. -/
theorem product_eq_ok {outputRank : Nat} :
    left.product right outputRank = .ok shape ↔
      1 ≤ outputRank ∧ outputRank ≤ left.length ∧
        Contracts (left.length - outputRank) left right shape := by
  rw [contracts_iff]
  unfold product
  dsimp only
  split
  · -- the output rank is out of range
    rename_i hrange
    constructor
    · intro h
      cases h
    · intro h
      omega
  · rename_i hrange
    have hcut : left.length - (left.length - outputRank) = outputRank := by omega
    rw [hcut]
    split
    · -- the right operand has too few axes
      rename_i hshort
      constructor
      · intro h
        cases h
      · intro h
        omega
    · rename_i hlong
      split
      · -- the contracted axes differ
        rename_i hdiffer
        constructor
        · intro h
          cases h
        · intro h
          exact absurd h.2.2.2.2.1 hdiffer
      · rename_i hagree
        rw [Except.ok.injEq]
        constructor
        · intro h
          exact ⟨by omega, by omega, by omega, by omega, not_not.1 hagree, h.symm⟩
        · intro h
          exact h.2.2.2.2.2.symm

/-- The same with the number of contracted axes given. -/
theorem product_eq_ok_of_lt (h : count < left.length) :
    left.product right (left.length - count) = .ok shape ↔ Contracts count left right shape := by
  have hcount : left.length - (left.length - count) = count := by omega
  rw [product_eq_ok, hcount]
  exact ⟨fun h => h.2.2, fun h => ⟨by omega, by omega, h⟩⟩

/-- A product complains of its output rank iff the engine's rank does not exist. -/
theorem product_eq_rangeError {outputRank : Nat} :
    (∃ leftRank rank,
        left.product right outputRank = .error (.productRankOutOfRange leftRank rank)) ↔
      ∃ e, engineOutputRank left.length outputRank = .error e := by
  unfold product engineOutputRank
  dsimp only
  split
  · exact ⟨fun _ => ⟨_, rfl⟩, fun _ => ⟨_, _, rfl⟩⟩
  · constructor
    · intro h
      obtain ⟨leftRank, rank, h⟩ := h
      split at h
      · cases h
      · split at h <;> cases h
    · intro h
      obtain ⟨e, h⟩ := h
      cases h

/-! ### Three operands -/

/-- The last `x` axes of the first shape are the first ones of the second, the last `y` axes of the
second are the first ones of the third and do not meet the others, and what is left in a row makes
up a shape. -/
def Links (x y : Nat) (first second third shape : Extents) : Prop :=
  ∃ outer shared mid shared' inner, first = outer ++ shared ∧ second = shared ++ (mid ++ shared') ∧
    third = shared' ++ inner ∧ shared.length = x ∧ shared'.length = y ∧
    shape = outer ++ (mid ++ inner)

/-- Two ways to cut a list in two, of which the first cuts no later. -/
theorem exists_of_append_eq {α : Type} {xs ys xs' ys' : List α} (h : xs ++ ys = xs' ++ ys')
    (hle : xs.length ≤ xs'.length) : ∃ mid, xs' = xs ++ mid ∧ ys = mid ++ ys' := by
  rcases List.append_eq_append_iff.1 h with hcut | ⟨mid, rfl, rfl⟩
  · exact hcut
  · rw [List.length_append] at hle
    have hmid : mid = [] := List.eq_nil_of_length_eq_zero (by omega)
    exact ⟨[], by simp [hmid], by simp [hmid]⟩

variable {x y : Nat}

/-- Overlapping from the left. -/
theorem links_iff_left (h : x + y ≤ second.length) :
    (∃ joined, Contracts x first second joined ∧ Contracts y joined third shape) ↔
      Links x y first second third shape := by
  constructor
  · intro hleft
    obtain ⟨_, ⟨outer, shared, rest, rfl, rfl, rfl, rfl⟩, kept, shared', inner, hcut, rfl, rfl, rfl⟩
      := hleft
    -- what the third shape shares was all in the second
    have hlength := congrArg List.length hcut
    simp only [List.length_append] at hlength h
    obtain ⟨mid, rfl, rfl⟩ := exists_of_append_eq hcut (by omega)
    exact ⟨outer, shared, mid, shared', inner, rfl, rfl, rfl, rfl, rfl, List.append_assoc _ _ _⟩
  · intro hlinks
    obtain ⟨outer, shared, mid, shared', inner, rfl, rfl, rfl, rfl, rfl, rfl⟩ := hlinks
    exact ⟨outer ++ (mid ++ shared'), ⟨outer, shared, _, rfl, rfl, rfl, rfl⟩, outer ++ mid, shared',
      inner, (List.append_assoc _ _ _).symm, rfl, rfl, (List.append_assoc _ _ _).symm⟩

/-- Overlapping from the right. -/
theorem links_iff_right (h : x + y ≤ second.length) :
    (∃ joined, Contracts y second third joined ∧ Contracts x first joined shape) ↔
      Links x y first second third shape := by
  constructor
  · intro hright
    obtain ⟨_, ⟨kept, shared', inner, rfl, rfl, rfl, rfl⟩, outer, shared, rest, rfl, hcut, rfl, rfl⟩
      := hright
    rw [List.length_append] at h
    obtain ⟨mid, rfl, rfl⟩ := exists_of_append_eq hcut.symm (by omega)
    exact ⟨outer, shared, mid, shared', inner, rfl, List.append_assoc _ _ _, rfl, rfl, rfl, rfl⟩
  · intro hlinks
    obtain ⟨outer, shared, mid, shared', inner, rfl, rfl, rfl, rfl, rfl, rfl⟩ := hlinks
    exact ⟨shared ++ (mid ++ inner), ⟨shared ++ mid, shared', inner,
      (List.append_assoc _ _ _).symm, rfl, rfl, (List.append_assoc _ _ _).symm⟩, outer, shared, _,
      rfl, rfl, rfl, rfl⟩

end Extents

/-- **Products are associative.** Let a product contract `x` axes of the first shape with the second
and another one `y` axes of the second with the third, so that none is contracted twice. Then both
orders of multiplication succeed if the shapes overlap in this way, with what is left as the shape,
and otherwise both fail. -/
theorem product_assoc (first second third shape : Extents) {x y : Nat} (hx : x < first.length)
    (hxy : x + y ≤ second.length) (hy : y < second.length) :
    ((∃ joined, first.product second (first.length - x) = .ok joined ∧
        joined.product third (joined.length - y) = .ok shape) ↔
      ∃ joined, second.product third (second.length - y) = .ok joined ∧
        first.product joined (first.length - x) = .ok shape) ∧
    ((∃ joined, first.product second (first.length - x) = .ok joined ∧
        joined.product third (joined.length - y) = .ok shape) ↔
      Extents.Links x y first second third shape) := by
  have hleft : (∃ joined, first.product second (first.length - x) = .ok joined ∧
      joined.product third (joined.length - y) = .ok shape) ↔
        Extents.Links x y first second third shape := by
    rw [← Extents.links_iff_left hxy]
    refine exists_congr fun joined => ?_
    rw [Extents.product_eq_ok_of_lt hx]
    refine and_congr_right fun hjoined => ?_
    have hlength := hjoined.length_eq
    exact Extents.product_eq_ok_of_lt (by omega)
  have hright : (∃ joined, second.product third (second.length - y) = .ok joined ∧
      first.product joined (first.length - x) = .ok shape) ↔
        Extents.Links x y first second third shape := by
    rw [← Extents.links_iff_right hxy]
    refine exists_congr fun joined => ?_
    rw [Extents.product_eq_ok_of_lt hy, Extents.product_eq_ok_of_lt hx]
  exact ⟨hleft.trans hright.symm, hleft⟩

/-- Three shapes of which the second has all its axes contracted: one with the first shape and two
with the third. With too few axes in the third shape there is no product in either order. -/
theorem product_assoc_three :
    let first : Extents := [2, 3]
    let second : Extents := [3, 4, 5]
    (∃ joined, second.product [4, 5, 6] 1 = .ok joined ∧ first.product joined 1 = .ok [2, 6]) ∧
      Extents.Links 1 2 first second [4, 5, 6] [2, 6] ∧
      ∀ shape, ¬ ∃ joined, second.product [4] 1 = .ok joined ∧
        first.product joined 1 = .ok shape := by
  intro first second
  have hx : 1 < first.length := by decide
  have hxy : 1 + 2 ≤ second.length := by decide
  have hy : 2 < second.length := by decide
  have hjoined : ∃ joined, first.product second 1 = .ok joined ∧
      joined.product [4, 5, 6] (joined.length - 2) = .ok [2, 6] := ⟨[2, 4, 5], rfl, rfl⟩
  obtain ⟨hboth, hlinks⟩ := product_assoc first second [4, 5, 6] [2, 6] hx hxy hy
  refine ⟨hboth.1 hjoined, hlinks.1 hjoined, fun shape h => ?_⟩
  obtain ⟨joined, hfirst, hshape⟩ := (product_assoc first second [4] shape hx hxy hy).1.2 h
  cases hfirst
  cases hshape

end ComputeGraph
