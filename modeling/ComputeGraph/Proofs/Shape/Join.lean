import ComputeGraph.Proofs.Shape.Broadcast
import Mathlib.Data.List.GetD

/-!
# Broadcasting is a partial join

Counted from the last axis, a shape has an extent at every place: its own, and one beyond its first
axis. Two shapes are broadcast place by place. For extents this is a join above one, which fails for
two different extents that are both not one. A shape is known from its rank and its extents, so the
laws for extents are laws for shapes.

* `Extents.fromEnd` — the extent at a place, counted from the last axis;
* **`Extents.broadcast?_eq_some`**, **`Extents.exists_broadcast?_iff`** — broadcasting place by
  place;
* `Extents.broadcast?_assoc`, `Extents.broadcast?_least` — the order does not matter, and nothing is
  added that does not have to be;
* `Extents.join?` — broadcasting with failure as a value;
* **`broadcast_isPartialJoin`** — all laws together.
-/

namespace ComputeGraph

/-! ### Extents -/

section JoinExtent

variable {x y z w : UInt64}

theorem joinExtent?_self (x : UInt64) : joinExtent? x x = some x :=
  if_pos rfl

theorem joinExtent?_one_left (x : UInt64) : joinExtent? 1 x = some x := by
  by_cases h : 1 = x
  · rw [← h, joinExtent?_self]
  · rw [joinExtent?, if_neg h, if_pos rfl]

/-- Two extents can be joined iff they are equal or one of them is one, which then gives way. -/
theorem joinExtent?_eq_some :
    joinExtent? x y = some z ↔ (x = y ∨ x = 1 ∨ y = 1) ∧ z = if x = 1 then y else x := by
  by_cases hx : x = 1
  · rw [hx, joinExtent?_one_left, if_pos rfl, Option.some.injEq, eq_comm]
    simp
  · rw [if_neg hx]
    unfold joinExtent?
    by_cases hxy : x = y
    · simp [hxy, eq_comm]
    · by_cases hy : y = 1
      · simp [hx, hy, eq_comm]
      · simp [hxy, hx, hy]

theorem joinExtent?_comm (x y : UInt64) : joinExtent? x y = joinExtent? y x := by
  ext z
  rw [joinExtent?_eq_some, joinExtent?_eq_some]
  by_cases hx : x = 1 <;> by_cases hy : y = 1 <;> simp [hx, hy, eq_comm]
  intro h
  rw [h]

/-- What two extents are joined to takes up each of them. -/
theorem joinExtent?_absorb (h : joinExtent? x y = some z) : joinExtent? x z = some z := by
  obtain ⟨hxy, rfl⟩ := joinExtent?_eq_some.1 h
  by_cases hx : x = 1
  · rw [if_pos hx, hx, joinExtent?_one_left]
  · rw [if_neg hx, joinExtent?_self]

theorem joinExtent?_assoc (hxy : joinExtent? x y = some w) {v : UInt64}
    (hw : joinExtent? w z = some v) :
    ∃ u, joinExtent? y z = some u ∧ joinExtent? x u = some v := by
  by_cases hx : x = 1
  · rw [hx, joinExtent?_one_left] at hxy
    exact ⟨v, Option.some.inj hxy ▸ hw, by rw [hx, joinExtent?_one_left]⟩
  · -- an extent other than one stays, and the second one is the same or gives way
    obtain ⟨hyx, hwx⟩ := joinExtent?_eq_some.1 hxy
    rw [if_neg hx] at hwx
    subst hwx
    rcases hyx with rfl | hone | rfl
    · exact ⟨v, hw, joinExtent?_absorb hw⟩
    · exact absurd hone hx
    · exact ⟨z, joinExtent?_one_left z, hw⟩

/-- Extents that one extent takes up can be joined, and it takes up what they are joined to. -/
theorem joinExtent?_least (hx : joinExtent? x z = some z) (hy : joinExtent? y z = some z) :
    ∃ w, joinExtent? x y = some w ∧ joinExtent? w z = some z := by
  by_cases hx1 : x = 1
  · exact ⟨y, by rw [hx1, joinExtent?_one_left], hy⟩
  · obtain ⟨-, hxz⟩ := joinExtent?_eq_some.1 hx
    rw [if_neg hx1] at hxz
    subst hxz
    exact ⟨z, joinExtent?_comm y z ▸ hy, joinExtent?_self z⟩

end JoinExtent

/-! ### Shapes whose innermost axes come first -/

/-- Lists are equal if they have as many members and the same ones, whatever is read beyond them. -/
theorem eq_of_getD_eq {α : Type} {xs ys : List α} (d : α) (hlength : xs.length = ys.length)
    (h : ∀ k, xs.getD k d = ys.getD k d) : xs = ys := by
  refine List.ext_getElem hlength fun k hx hy => ?_
  have hk := h k
  rwa [List.getD_eq_getElem _ _ hx, List.getD_eq_getElem _ _ hy] at hk

theorem joinInner?_eq_some {left right shape : Extents} :
    joinInner? left right = some shape ↔
      shape.length = max left.length right.length ∧
        ∀ k, joinExtent? (left.getD k 1) (right.getD k 1) = some (shape.getD k 1) := by
  induction left, right using joinInner?.induct generalizing shape with
  | case1 right =>
    simp only [joinInner?, Option.some.injEq, List.getD_nil, joinExtent?_one_left,
      List.length_nil, Nat.zero_max]
    exact ⟨fun h => h ▸ ⟨rfl, fun _ => rfl⟩, fun h => eq_of_getD_eq 1 h.1.symm h.2⟩
  | case2 left hleft =>
    rw [joinInner?.eq_2 left hleft]
    simp only [Option.some.injEq, List.getD_nil, joinExtent?_comm _ 1, joinExtent?_one_left,
      List.length_nil, Nat.max_zero]
    exact ⟨fun h => h ▸ ⟨rfl, fun _ => rfl⟩, fun h => eq_of_getD_eq 1 h.1.symm h.2⟩
  | case3 x left y right ih =>
    simp only [joinInner?, Option.bind_eq_bind, Option.bind_eq_some_iff, Option.pure_def,
      Option.some.injEq]
    constructor
    · intro h
      obtain ⟨extent, hextent, rest, hrest, rfl⟩ := h
      obtain ⟨hlength, hget⟩ := ih.1 hrest
      refine ⟨by simp [hlength], fun k => ?_⟩
      cases k with
      | zero => exact hextent
      | succ k => exact hget k
    · intro h
      obtain ⟨hlength, hget⟩ := h
      cases shape with
      | nil => simp at hlength
      | cons extent rest =>
        refine ⟨extent, hget 0, rest, ih.2 ⟨?_, fun k => hget (k + 1)⟩, rfl⟩
        simpa using hlength

theorem exists_joinInner?_iff {left right : Extents} :
    (∃ shape, joinInner? left right = some shape) ↔
      ∀ k, ∃ n, joinExtent? (left.getD k 1) (right.getD k 1) = some n := by
  constructor
  · intro h k
    obtain ⟨shape, hshape⟩ := h
    exact ⟨_, (joinInner?_eq_some.1 hshape).2 k⟩
  · intro h
    induction left, right using joinInner?.induct with
    | case1 right => exact ⟨right, rfl⟩
    | case2 left hleft => exact ⟨left, joinInner?.eq_2 left hleft⟩
    | case3 x left y right ih =>
      obtain ⟨extent, hextent⟩ := h 0
      obtain ⟨rest, hrest⟩ := ih fun k => h (k + 1)
      refine ⟨extent :: rest, ?_⟩
      have hextent' : joinExtent? x y = some extent := hextent
      rw [joinInner?, hextent', hrest]
      rfl

/-! ### Shapes -/

namespace Extents

variable {left right other shape : Extents}

/-- The extent at a place counted from the last axis; an axis that is not there counts as one. -/
def fromEnd (shape : Extents) (k : Nat) : UInt64 :=
  shape.reverse.getD k 1

theorem fromEnd_of_le {k : Nat} (h : shape.length ≤ k) : shape.fromEnd k = 1 :=
  List.getD_eq_default _ _ (by rwa [List.length_reverse])

/-- **Broadcasting place by place.** -/
theorem broadcast?_eq_some :
    left.broadcast? right = some shape ↔
      shape.length = max left.length right.length ∧
        ∀ k, joinExtent? (left.fromEnd k) (right.fromEnd k) = some (shape.fromEnd k) := by
  have hreverse : left.broadcast? right = some shape ↔
      joinInner? left.reverse right.reverse = some shape.reverse := by
    unfold broadcast?
    rw [Option.map_eq_some_iff]
    exact ⟨fun ⟨s, hs, h⟩ => by rw [← h, List.reverse_reverse, hs],
      fun h => ⟨_, h, List.reverse_reverse shape⟩⟩
  rw [hreverse, joinInner?_eq_some]
  simp only [List.length_reverse, fromEnd]

/-- **Shapes can be broadcast** iff their extents can be joined at every place. -/
theorem exists_broadcast?_iff :
    (∃ shape, left.broadcast? right = some shape) ↔
      ∀ k, ∃ n, joinExtent? (left.fromEnd k) (right.fromEnd k) = some n := by
  unfold broadcast? fromEnd
  rw [← exists_joinInner?_iff]
  simp only [Option.map_eq_some_iff]
  exact ⟨fun ⟨_, s, hs, _⟩ => ⟨s, hs⟩, fun ⟨s, hs⟩ => ⟨_, s, hs, rfl⟩⟩

theorem broadcast?_comm (left right : Extents) : left.broadcast? right = right.broadcast? left := by
  ext shape
  rw [broadcast?_eq_some, broadcast?_eq_some, Nat.max_comm]
  simp only [joinExtent?_comm]

theorem broadcast?_self (shape : Extents) : shape.broadcast? shape = some shape :=
  broadcast?_eq_some.2 ⟨(Nat.max_self _).symm, fun _ => joinExtent?_self _⟩

theorem broadcast?_nil (shape : Extents) : broadcast? [] shape = some shape :=
  broadcast?_eq_some.2 ⟨(Nat.zero_max _).symm, fun _ => joinExtent?_one_left _⟩

theorem broadcast?_absorb (h : left.broadcast? right = some shape) :
    left.broadcast? shape = some shape := by
  obtain ⟨hlength, hget⟩ := broadcast?_eq_some.1 h
  exact broadcast?_eq_some.2 ⟨by omega, fun k => joinExtent?_absorb (hget k)⟩

/-- Three shapes that can be broadcast from the left can be from the right, to the same shape. -/
theorem broadcast?_assoc {mid : Extents} (hmid : left.broadcast? right = some mid)
    (h : mid.broadcast? other = some shape) :
    ∃ rest, right.broadcast? other = some rest ∧ left.broadcast? rest = some shape := by
  obtain ⟨hlength, hget⟩ := broadcast?_eq_some.1 hmid
  obtain ⟨hlength', hget'⟩ := broadcast?_eq_some.1 h
  have hjoin := fun k => joinExtent?_assoc (hget k) (hget' k)
  obtain ⟨rest, hrest⟩ :=
    exists_broadcast?_iff.2 fun k => (hjoin k).imp fun _ hu => hu.1
  obtain ⟨hlengthRest, hgetRest⟩ := broadcast?_eq_some.1 hrest
  refine ⟨rest, hrest, broadcast?_eq_some.2 ⟨by omega, fun k => ?_⟩⟩
  obtain ⟨u, hu, hshape⟩ := hjoin k
  rw [hgetRest k] at hu
  exact Option.some.inj hu ▸ hshape

/-- Shapes that broadcast into one shape can be broadcast, and what they are broadcast to broadcasts
into it too. -/
theorem broadcast?_least (hleft : left.broadcast? other = some other)
    (hright : right.broadcast? other = some other) :
    ∃ shape, left.broadcast? right = some shape ∧ shape.broadcast? other = some other := by
  obtain ⟨hlength, hget⟩ := broadcast?_eq_some.1 hleft
  obtain ⟨hlength', hget'⟩ := broadcast?_eq_some.1 hright
  have hjoin := fun k => joinExtent?_least (hget k) (hget' k)
  obtain ⟨shape, hshape⟩ :=
    exists_broadcast?_iff.2 fun k => (hjoin k).imp fun _ hw => hw.1
  obtain ⟨hlengthShape, hgetShape⟩ := broadcast?_eq_some.1 hshape
  refine ⟨shape, hshape, broadcast?_eq_some.2 ⟨by omega, fun k => ?_⟩⟩
  obtain ⟨w, hw, hother⟩ := hjoin k
  rw [hgetShape k] at hw
  exact Option.some.inj hw ▸ hother

/-- Only places that both shapes have can stand in the way. -/
theorem exists_broadcast?_iff_of_lt :
    (∃ shape, left.broadcast? right = some shape) ↔
      ∀ k < min left.length right.length,
        left.fromEnd k = right.fromEnd k ∨ left.fromEnd k = 1 ∨ right.fromEnd k = 1 := by
  rw [exists_broadcast?_iff]
  simp only [joinExtent?_eq_some, exists_and_left, exists_eq, and_true]
  refine ⟨fun h k _ => h k, fun h k => ?_⟩
  by_cases hk : k < min left.length right.length
  · exact h k hk
  · rcases Nat.lt_or_ge k left.length with hlt | hge
    · exact .inr (.inr (fromEnd_of_le (by omega)))
    · exact .inr (.inl (fromEnd_of_le hge))

/-! ### Failure as a value -/

/-- Broadcasting of shapes that may be failures; with a failure it fails. -/
def join? (left right : Option Extents) : Option Extents :=
  left.bind fun left => right.bind fun right => (left.broadcast right).toOption

theorem join?_some (left right : Extents) :
    join? (some left) (some right) = left.broadcast? right := by
  show (left.broadcast right).toOption = _
  unfold broadcast
  cases left.broadcast? right <;> rfl

theorem join?_none (left : Option Extents) : join? left none = none := by
  cases left <;> rfl

theorem join?_comm (left right : Option Extents) : join? left right = join? right left := by
  cases left with
  | none => exact (join?_none right).symm
  | some left =>
    cases right with
    | none => rfl
    | some right => rw [join?_some, join?_some, broadcast?_comm]

theorem join?_eq_some {left right : Option Extents} :
    join? left right = some shape ↔
      ∃ l r, left = some l ∧ right = some r ∧ l.broadcast? r = some shape := by
  cases left with
  | none => simp [join?]
  | some left =>
    cases right with
    | none => simp [join?]
    | some right => simp [join?_some]

theorem join?_assoc (left right other : Option Extents) :
    join? (join? left right) other = join? left (join? right other) := by
  have hone : ∀ (a b c : Option Extents) (shape : Extents), join? (join? a b) c = some shape →
      join? a (join? b c) = some shape := by
    intro a b c shape h
    obtain ⟨mid, z, hmid, rfl, hshape⟩ := join?_eq_some.1 h
    obtain ⟨x, y, rfl, rfl, hxy⟩ := join?_eq_some.1 hmid
    obtain ⟨rest, hrest, hjoin⟩ := broadcast?_assoc hxy hshape
    exact join?_eq_some.2 ⟨x, rest, rfl, (join?_some y z).trans hrest, hjoin⟩
  ext shape
  refine ⟨hone left right other shape, fun h => ?_⟩
  -- the other way round it is the same law, read from right to left
  rw [join?_comm left, join?_comm right] at h
  have h' := hone other right left shape h
  rwa [join?_comm other, join?_comm right left] at h'

end Extents

/-- **Broadcasting is a partial join.** Two shapes can be broadcast iff at every place from the end
that both have, their extents are equal or one of them is one; the error shows both shapes. The
result has the larger rank and at each place the extent that is not one, if there is such an extent.
With failure as a value the order and the grouping of shapes do not matter, a shape is broadcast
with itself to itself, and the shape without axes changes nothing. The result takes up both shapes,
and every shape that takes up both takes up the result, which then exists. -/
theorem broadcast_isPartialJoin :
    (∀ left right : Extents,
      ((∃ shape, left.broadcast right = .ok shape) ↔
        ∀ k < min left.length right.length,
          left.fromEnd k = right.fromEnd k ∨ left.fromEnd k = 1 ∨ right.fromEnd k = 1) ∧
      (∀ e, left.broadcast right = .error e → e = .cannotBroadcast left right) ∧
      ∀ shape, left.broadcast right = .ok shape →
        shape.length = max left.length right.length ∧
        (∀ k, shape.fromEnd k =
          if left.fromEnd k = 1 then right.fromEnd k else left.fromEnd k) ∧
        left.broadcast shape = .ok shape ∧ right.broadcast shape = .ok shape) ∧
    (∀ x y, Extents.join? x y = Extents.join? y x) ∧
    (∀ x y z, Extents.join? (Extents.join? x y) z = Extents.join? x (Extents.join? y z)) ∧
    (∀ x, Extents.join? x x = x) ∧
    (∀ x, Extents.join? (some []) x = x) ∧
    ∀ left right other : Extents, left.broadcast other = .ok other →
      right.broadcast other = .ok other →
      ∃ shape, left.broadcast right = .ok shape ∧ shape.broadcast other = .ok other := by
  refine ⟨fun left right => ⟨?_, ?_, ?_⟩, Extents.join?_comm, Extents.join?_assoc, ?_, ?_, ?_⟩
  · simp only [Extents.broadcast_eq_ok]
    exact Extents.exists_broadcast?_iff_of_lt
  · intro e h
    exact Extents.broadcast_eq_error h
  · intro shape h
    have h' := Extents.broadcast_eq_ok.1 h
    obtain ⟨hlength, hget⟩ := Extents.broadcast?_eq_some.1 h'
    refine ⟨hlength, fun k => (joinExtent?_eq_some.1 (hget k)).2, ?_, ?_⟩
    · exact Extents.broadcast_eq_ok.2 (Extents.broadcast?_absorb h')
    · rw [Extents.broadcast?_comm] at h'
      exact Extents.broadcast_eq_ok.2 (Extents.broadcast?_absorb h')
  · intro x
    cases x with
    | none => rfl
    | some shape => rw [Extents.join?_some, Extents.broadcast?_self]
  · intro x
    cases x with
    | none => rfl
    | some shape => rw [Extents.join?_some, Extents.broadcast?_nil]
  · intro left right other hleft hright
    simp only [Extents.broadcast_eq_ok] at hleft hright ⊢
    exact Extents.broadcast?_least hleft hright

/-- Shapes of different ranks with an extent of one in each, below a shape that takes up both, and
two shapes that cannot be broadcast. -/
theorem broadcast_isPartialJoin_mixed :
    Extents.broadcast [2, 1, 3] [4, 1] = .ok [2, 4, 3] ∧
      Extents.broadcast [2, 1, 3] [2, 4, 3] = .ok [2, 4, 3] ∧
      (∃ shape, Extents.broadcast [2, 1, 3] [4, 1] = .ok shape ∧
        shape.broadcast [5, 2, 4, 3] = .ok [5, 2, 4, 3]) ∧
      ¬ ∃ shape, Extents.broadcast [0, 3] [2, 1] = .ok shape := by
  obtain ⟨hpair, -, -, -, -, hleast⟩ := broadcast_isPartialJoin
  have hjoined : Extents.broadcast [2, 1, 3] [4, 1] = .ok [2, 4, 3] := by rfl
  refine ⟨hjoined, ((hpair _ _).2.2 _ hjoined).2.2.1, hleast _ _ _ rfl rfl, fun h => ?_⟩
  have hplace := (hpair [0, 3] [2, 1]).1.1 h 1 (by decide)
  revert hplace
  decide

end ComputeGraph
