import ComputeGraph.Proofs.Outcome

/-!
# The common shape of operands

The search for the common shape of operands looks at one after another and ends at the first one
whose shape is unknown. So it broadcasts the shapes in front of that one, and gives a shape only if
all shapes are known.

* `Extents.broadcast_eq_ok`, `Extents.broadcast_eq_error` — the two outcomes for two shapes;
* `OutputRule.compared` — the shapes in front of the first unknown one;
* **`OutputRule.broadcastAll_eq`** — the search as broadcasting them one after another;
* `OutputRule.broadcastAll_eq_some`, `OutputRule.none_mem_of_broadcastAll`,
  `OutputRule.broadcastAll_eq_error` — its three outcomes;
* **`OutputRule.mem_of_infer`** — no rule makes an extent but one, or one that an operand has.
-/

namespace ComputeGraph

namespace Extents

theorem broadcast_eq_ok {left right shape : Extents} :
    left.broadcast right = .ok shape ↔ left.broadcast? right = some shape := by
  unfold broadcast
  cases left.broadcast? right <;> simp

theorem broadcast_eq_error {left right : Extents} {e : Error}
    (h : left.broadcast right = .error e) : e = .cannotBroadcast left right := by
  unfold broadcast at h
  split at h
  · cases h
  · exact (Except.error.inj h).symm

/-- Only two shapes that cannot be broadcast stop broadcasting one after another. -/
theorem foldlM_broadcast_eq_error {start : Extents} {shapes : List Extents} {e : Error}
    (h : shapes.foldlM broadcast start = .error e) :
    ∃ left right, e = .cannotBroadcast left right := by
  induction shapes generalizing start with
  | nil => cases h
  | cons next shapes ih =>
    rw [List.foldlM_cons] at h
    rcases except_bind_eq_error.1 h with h | ⟨joined, -, h⟩
    · exact ⟨start, next, broadcast_eq_error h⟩
    · exact ih h

theorem mem_of_joinInner? {left right shape : Extents} (h : joinInner? left right = some shape)
    {n : UInt64} (hn : n ∈ shape) : n ∈ left ∨ n ∈ right := by
  induction left, right using joinInner?.induct generalizing shape with
  | case1 right => exact .inr (Option.some.inj h ▸ hn)
  | case2 left hleft =>
    rw [joinInner?.eq_2 left hleft] at h
    exact .inl (Option.some.inj h ▸ hn)
  | case3 x left y right ih =>
    obtain ⟨extent, hextent, h⟩ := Option.bind_eq_some_iff.1 h
    obtain ⟨rest, hrest, h⟩ := Option.bind_eq_some_iff.1 h
    cases h
    rcases List.mem_cons.1 hn with rfl | hn
    · -- a common extent is one of the two
      unfold joinExtent? at hextent
      split at hextent
      · exact .inl (Option.some.inj hextent ▸ List.mem_cons_self)
      · split at hextent
        · exact .inr (Option.some.inj hextent ▸ List.mem_cons_self)
        · split at hextent
          · exact .inl (Option.some.inj hextent ▸ List.mem_cons_self)
          · cases hextent
    · exact (ih hrest hn).imp (List.mem_cons_of_mem _) (List.mem_cons_of_mem _)

/-- A common shape takes all its extents from one of the two shapes. -/
theorem mem_of_broadcast {left right shape : Extents} (h : left.broadcast right = .ok shape)
    {n : UInt64} (hn : n ∈ shape) : n ∈ left ∨ n ∈ right := by
  obtain ⟨inner, hinner, rfl⟩ := Option.map_eq_some_iff.1 (broadcast_eq_ok.1 h)
  rw [List.mem_reverse] at hn
  exact (mem_of_joinInner? hinner hn).imp List.mem_reverse.1 List.mem_reverse.1

theorem mem_of_foldlM_broadcast {start shape : Extents} {shapes : List Extents}
    (h : shapes.foldlM broadcast start = .ok shape) {n : UInt64} (hn : n ∈ shape) :
    n ∈ start ∨ ∃ operand ∈ shapes, n ∈ operand := by
  induction shapes generalizing start with
  | nil => exact .inl (Except.ok.inj h ▸ hn)
  | cons next shapes ih =>
    rw [List.foldlM_cons] at h
    obtain ⟨joined, hjoined, h⟩ := except_bind_eq_ok.1 h
    rcases ih h with hn | ⟨operand, hoperand, hn⟩
    · rcases mem_of_broadcast hjoined hn with hn | hn
      · exact .inl hn
      · exact .inr ⟨next, List.mem_cons_self, hn⟩
    · exact .inr ⟨operand, List.mem_cons_of_mem _ hoperand, hn⟩

end Extents

namespace OutputRule

/-- The shapes in front of the first unknown one. -/
def compared : List (Option Extents) → List Extents
  | some shape :: shapes => shape :: compared shapes
  | _ => []

theorem compared_append (known : List Extents) (shapes : List (Option Extents)) :
    compared (known.map some ++ shapes) = known ++ compared shapes := by
  induction known with
  | nil => rfl
  | cons shape known ih => exact congrArg (shape :: ·) ih

theorem compared_map_some (known : List Extents) : compared (known.map some) = known := by
  have happend := compared_append known []
  rw [List.append_nil] at happend
  exact happend.trans (List.append_nil known)

theorem map_compared_of_not_mem {shapes : List (Option Extents)} (h : none ∉ shapes) :
    (compared shapes).map some = shapes := by
  induction shapes with
  | nil => rfl
  | cons shape shapes ih =>
    cases shape with
    | none => simp at h
    | some shape =>
      have hrest : none ∉ shapes := fun hmem => h (List.mem_cons_of_mem _ hmem)
      exact congrArg (some shape :: ·) (ih hrest)

/-- **The search for a common shape** broadcasts the shapes in front of the first unknown one, and
gives what it finds if no shape is unknown. -/
theorem broadcastAll_eq (start : Extents) (shapes : List (Option Extents)) :
    broadcastAll start shapes = ((compared shapes).foldlM Extents.broadcast start).map fun shape =>
      if none ∈ shapes then none else some shape := by
  induction shapes generalizing start with
  | nil => rfl
  | cons shape shapes ih =>
    cases shape with
    | none =>
      simp only [broadcastAll, compared, List.foldlM_nil, List.mem_cons, true_or, if_true]
      rfl
    | some next =>
      rw [broadcastAll, compared, List.foldlM_cons]
      show (start.broadcast next).bind _ = ((start.broadcast next).bind _).map _
      rw [except_map_bind]
      simp only [ih, List.mem_cons, reduceCtorEq, false_or]

variable {start shape : Extents} {shapes : List (Option Extents)}

/-- **A common shape is known** iff all shapes are and broadcasting them one after another from the
left gives it. -/
theorem broadcastAll_eq_some :
    broadcastAll start shapes = .ok (some shape) ↔
      ∃ known : List Extents, shapes = known.map some ∧
        known.foldlM Extents.broadcast start = .ok shape := by
  rw [broadcastAll_eq, except_map_eq_ok]
  constructor
  · intro h
    obtain ⟨found, hfound, hshape⟩ := h
    by_cases hnone : none ∈ shapes
    · rw [if_pos hnone] at hshape
      cases hshape
    · rw [if_neg hnone] at hshape
      cases hshape
      exact ⟨_, (map_compared_of_not_mem hnone).symm, hfound⟩
  · intro h
    obtain ⟨known, rfl, hfold⟩ := h
    exact ⟨shape, by rwa [compared_map_some], if_neg (by simp)⟩

/-- A common shape stays unknown only where one of the shapes is. -/
theorem none_mem_of_broadcastAll (h : broadcastAll start shapes = .ok none) : none ∈ shapes := by
  rw [broadcastAll_eq] at h
  obtain ⟨found, -, hnone⟩ := except_map_eq_ok.1 h
  by_contra hknown
  rw [if_neg hknown] at hnone
  cases hnone

/-- Only two shapes that cannot be broadcast stop the search for a common shape. -/
theorem broadcastAll_eq_error {e : Error} (h : broadcastAll start shapes = .error e) :
    ∃ left right, e = .cannotBroadcast left right := by
  rw [broadcastAll_eq] at h
  exact Extents.foldlM_broadcast_eq_error (except_map_eq_error.1 h)

/-- **No rule** makes an extent of its own, other than one. -/
theorem mem_of_infer {rule : OutputRule} (h : rule.infer shapes = .ok (some shape)) {n : UInt64}
    (hn : n ∈ shape) : n = 1 ∨ ∃ operand, some operand ∈ shapes ∧ n ∈ operand := by
  cases rule with
  | preserve =>
    cases shapes with
    | nil => cases h
    | cons first shapes =>
      obtain rfl : first = some shape := Except.ok.inj h
      exact .inr ⟨shape, List.mem_cons_self, hn⟩
  | broadcast =>
    obtain ⟨known, rfl, hfold⟩ := broadcastAll_eq_some.1 h
    rcases Extents.mem_of_foldlM_broadcast hfold hn with hn | ⟨operand, hoperand, hn⟩
    · cases hn
    · exact .inr ⟨operand, List.mem_map_of_mem hoperand, hn⟩
  | scalar =>
    obtain rfl : [1] = shape := Option.some.inj (Except.ok.inj h)
    exact .inl (List.mem_singleton.1 hn)
  | declared => cases h

end OutputRule

end ComputeGraph
