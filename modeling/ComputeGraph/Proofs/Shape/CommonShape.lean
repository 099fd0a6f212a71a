import ComputeGraph.Proofs.Shape.Join
import Mathlib.Data.List.ReduceOption

/-!
# Common shapes of operands in any order

Operands of known shapes have a common shape if some shape takes all of them up, and it is the least
such shape. So their order does not matter. The search for it looks at the operands one after
another, though, and ends at the first one whose shape is unknown: shapes that do not fit are found
only in front of that operand.

* `Extents.Below`, `Extents.IsJoin`, `Extents.Joinable` — shapes that take up others, the least one,
  and shapes for which there is one;
* **`Extents.foldlM_broadcast_eq_ok`** — broadcasting one after another finds the least one;
* **`OutputRule.infer_broadcast_cases`** — the outcome of the search;
* **`OutputRule.infer_agree_iff`**, **`OutputRule.infer_agree_all_iff`** — when two orders have the
  same outcome, and when all orders have.
-/

namespace ComputeGraph

namespace Extents

variable {left right shape target other : Extents} {shapes : List Extents}

/-! ### Shapes that take up others -/

/-- The target takes up the shape: broadcasting changes only the shape. -/
def Below (shape target : Extents) : Prop :=
  shape.broadcast? target = some target

theorem Below.refl (shape : Extents) : shape.Below shape :=
  broadcast?_self shape

theorem Below.trans (h : shape.Below target) (h' : target.Below other) : shape.Below other := by
  obtain ⟨rest, hrest, hshape⟩ := broadcast?_assoc h h'
  have heq : rest = other := Option.some.inj (hrest.symm.trans h')
  rwa [heq] at hshape

theorem Below.antisymm (h : shape.Below target) (h' : target.Below shape) : shape = target := by
  unfold Below at h'
  rw [broadcast?_comm, h] at h'
  exact (Option.some.inj h').symm

/-- A shape takes up what two others are broadcast to iff it takes up both. -/
theorem below_iff_of_broadcast? (h : left.broadcast? right = some shape) :
    shape.Below target ↔ left.Below target ∧ right.Below target := by
  constructor
  · intro hbelow
    have hright : right.broadcast? left = some shape := (broadcast?_comm right left).trans h
    exact ⟨.trans (broadcast?_absorb h) hbelow, .trans (broadcast?_absorb hright) hbelow⟩
  · intro hboth
    obtain ⟨joined, hjoined, hbelow⟩ := broadcast?_least hboth.1 hboth.2
    rwa [Option.some.inj (hjoined.symm.trans h)] at hbelow

/-- The target takes up all of some shapes. -/
def AllBelow (shapes : List Extents) (target : Extents) : Prop :=
  ∀ shape ∈ shapes, shape.Below target

/-- The least shape that takes up all of some shapes. -/
structure IsJoin (shapes : List Extents) (shape : Extents) : Prop where
  allBelow : AllBelow shapes shape
  least : ∀ target, AllBelow shapes target → shape.Below target

/-- Some shape takes up all of the shapes. -/
def Joinable (shapes : List Extents) : Prop :=
  ∃ target, AllBelow shapes target

theorem allBelow_cons : AllBelow (shape :: shapes) target ↔
    shape.Below target ∧ AllBelow shapes target :=
  List.forall_mem_cons

theorem joinable_nil : Joinable [] :=
  ⟨[], by simp [AllBelow]⟩

theorem joinable_singleton (shape : Extents) : Joinable [shape] :=
  ⟨shape, by simp [AllBelow, Below.refl]⟩

theorem IsJoin.eq (h : IsJoin shapes shape) (h' : IsJoin shapes other) : shape = other :=
  (h.least _ h'.allBelow).antisymm (h'.least _ h.allBelow)

/-- The least shape depends only on which shapes take all up. -/
theorem IsJoin.congr {shapes' : List Extents} (h : IsJoin shapes shape)
    (hsame : ∀ target, AllBelow shapes target ↔ AllBelow shapes' target) : IsJoin shapes' shape :=
  ⟨(hsame shape).1 h.allBelow, fun target htarget => h.least target ((hsame target).2 htarget)⟩

theorem Joinable.mono {shapes' : List Extents} (h : Joinable shapes') (hsub : shapes ⊆ shapes') :
    Joinable shapes := by
  obtain ⟨target, htarget⟩ := h
  exact ⟨target, fun shape hshape => htarget shape (hsub hshape)⟩

/-- What is taken up together with the two parts of a broadcast is taken up with the whole. -/
theorem allBelow_broadcast? (h : left.broadcast? right = some shape) (target : Extents) :
    AllBelow (shape :: shapes) target ↔ AllBelow (left :: right :: shapes) target := by
  rw [allBelow_cons, allBelow_cons, allBelow_cons, below_iff_of_broadcast? h, and_assoc]

/-- **Broadcasting one after another** finds the least shape that takes all up, if there is one. -/
theorem foldlM_broadcast_eq_ok {start : Extents} :
    shapes.foldlM broadcast start = .ok shape ↔ IsJoin (start :: shapes) shape := by
  induction shapes generalizing start with
  | nil =>
    have hstart : IsJoin [start] start :=
      ⟨allBelow_cons.2 ⟨.refl start, by simp [AllBelow]⟩, fun _ h => (allBelow_cons.1 h).1⟩
    rw [List.foldlM_nil]
    constructor
    · intro h
      cases h
      exact hstart
    · intro h
      rw [h.eq hstart]
      rfl
  | cons next shapes ih =>
    rw [List.foldlM_cons]
    constructor
    · intro h
      obtain ⟨joined, hjoined, h⟩ := except_bind_eq_ok.1 h
      exact (ih.1 h).congr (allBelow_broadcast? (broadcast_eq_ok.1 hjoined))
    · intro h
      obtain ⟨hstart, hrest⟩ := allBelow_cons.1 h.allBelow
      obtain ⟨joined, hjoined, -⟩ := broadcast?_least hstart (allBelow_cons.1 hrest).1
      refine except_bind_eq_ok.2 ⟨joined, broadcast_eq_ok.2 hjoined, ih.2 ?_⟩
      exact h.congr fun target => (allBelow_broadcast? hjoined target).symm

/-- There is a least shape that takes all up if any does. -/
theorem Joinable.exists_isJoin (h : Joinable shapes) : ∃ shape, IsJoin shapes shape := by
  induction shapes with
  | nil => exact ⟨[], by simp [AllBelow], fun target _ => broadcast?_nil target⟩
  | cons next shapes ih =>
    obtain ⟨target, htarget⟩ := h
    obtain ⟨hnext, hrest⟩ := allBelow_cons.1 htarget
    obtain ⟨joined, hjoined⟩ := ih ⟨target, hrest⟩
    obtain ⟨shape, hshape, -⟩ := broadcast?_least hnext (hjoined.least target hrest)
    have hbelow : ∀ other : Extents, shape.Below other ↔ next.Below other ∧ joined.Below other :=
      fun _ => below_iff_of_broadcast? hshape
    obtain ⟨hnext', hjoined'⟩ := (hbelow shape).1 (.refl shape)
    refine ⟨shape, allBelow_cons.2 ⟨hnext', fun s hs => (hjoined.allBelow s hs).trans hjoined'⟩,
      fun other hother => ?_⟩
    obtain ⟨hnext, hrest⟩ := allBelow_cons.1 hother
    exact (hbelow other).2 ⟨hnext, hjoined.least other hrest⟩

/-- The search starts from the shape without axes, which adds nothing. -/
theorem foldlM_broadcast_nil : shapes.foldlM broadcast [] = .ok shape ↔ IsJoin shapes shape := by
  have hsame : ∀ target, AllBelow ([] :: shapes) target ↔ AllBelow shapes target := fun target =>
    allBelow_cons.trans (and_iff_right (broadcast?_nil target))
  rw [foldlM_broadcast_eq_ok]
  exact ⟨fun h => h.congr hsame, fun h => h.congr fun target => (hsame target).symm⟩

/-- Shapes fit iff broadcasting them one after another succeeds. -/
theorem exists_foldlM_broadcast_iff :
    (∃ shape, shapes.foldlM broadcast [] = .ok shape) ↔ Joinable shapes := by
  simp only [foldlM_broadcast_nil]
  exact ⟨fun ⟨shape, h⟩ => ⟨shape, h.allBelow⟩, Joinable.exists_isJoin⟩

end Extents

/-! ### The search for a common shape -/

namespace OutputRule

open Extents

variable {shapes shapes' : List (Option Extents)}

theorem compared_subset (shapes : List (Option Extents)) :
    compared shapes ⊆ shapes.reduceOption := by
  induction shapes with
  | nil => exact List.nil_subset _
  | cons shape shapes ih =>
    cases shape with
    | none => exact List.nil_subset _
    | some shape =>
      rw [List.reduceOption_cons_of_some]
      exact List.cons_subset_cons shape ih

theorem compared_of_not_mem (h : none ∉ shapes) : compared shapes = shapes.reduceOption := by
  have hknown := congrArg List.reduceOption (map_compared_of_not_mem h)
  rwa [List.reduceOption, List.filterMap_map, Function.id_comp, List.filterMap_some] at hknown

theorem compared_append_replicate (known : List Extents) (n : Nat) :
    compared (known.map some ++ List.replicate n none) = known := by
  rw [compared_append]
  cases n <;> exact List.append_nil known

/-- The known shapes first and the unknown ones after them. -/
theorem exists_perm_replicate (shapes : List (Option Extents)) :
    ∃ n, shapes.Perm (shapes.reduceOption.map some ++ List.replicate n none) := by
  induction shapes with
  | nil => exact ⟨0, .refl _⟩
  | cons shape shapes ih =>
    obtain ⟨n, hperm⟩ := ih
    cases shape with
    | none =>
      rw [List.reduceOption_cons_of_none]
      exact ⟨n + 1, (hperm.cons none).trans List.perm_middle.symm⟩
    | some shape =>
      rw [List.reduceOption_cons_of_some]
      exact ⟨n, hperm.cons (some shape)⟩

/-- **The outcome of the search.** If the shapes in front of the first unknown one fit, it is the
least shape that takes them up where no shape is unknown, and nothing otherwise; if they do not, the
search fails. -/
theorem infer_broadcast_cases (shapes : List (Option Extents)) :
    (Joinable (compared shapes) ∧ ∃ shape, IsJoin (compared shapes) shape ∧
        infer .broadcast shapes = .ok (if none ∈ shapes then none else some shape)) ∨
      ¬ Joinable (compared shapes) ∧
        ∃ e, infer .broadcast shapes = .error e ∧ e.category = .validation := by
  have hinfer : infer .broadcast shapes = _ := broadcastAll_eq [] shapes
  rw [hinfer]
  cases hfold : (compared shapes).foldlM Extents.broadcast [] with
  | ok shape =>
    exact .inl ⟨exists_foldlM_broadcast_iff.1 ⟨shape, hfold⟩, shape,
      foldlM_broadcast_nil.1 hfold, rfl⟩
  | error e =>
    obtain ⟨left, right, rfl⟩ := foldlM_broadcast_eq_error hfold
    refine .inr ⟨fun hjoinable => ?_, _, rfl, rfl⟩
    obtain ⟨shape, hok⟩ := exists_foldlM_broadcast_iff.2 hjoinable
    cases hfold.symm.trans hok

theorem exists_infer_broadcast_error_iff :
    (∃ e, infer .broadcast shapes = .error e) ↔ ¬ Joinable (compared shapes) := by
  rcases infer_broadcast_cases shapes with ⟨hfit, shape, -, hinfer⟩ | ⟨hfit, e, hinfer, -⟩
  · simp [hinfer, hfit]
  · simp [hinfer, hfit]

/-- Three shapes of which the known ones do not fit are found to fit iff the first or the second one
is unknown: then one known shape is left, or none. -/
theorem joinable_compared_iff_of_three {first second third : Option Extents}
    (h : ¬ Joinable [first, second, third].reduceOption) :
    Joinable (compared [first, second, third]) ↔ none ∈ [first, second] := by
  cases first with
  | none => exact iff_of_true joinable_nil (by simp)
  | some first =>
    cases second with
    | none => exact iff_of_true (joinable_singleton first) (by simp)
    | some second => cases third <;> exact iff_of_false h (by simp)

/-- Which shapes take up all known ones does not depend on their order. -/
theorem allBelow_reduceOption_iff (hperm : shapes.Perm shapes') (target : Extents) :
    AllBelow shapes.reduceOption target ↔ AllBelow shapes'.reduceOption target :=
  forall_congr' fun _ => imp_congr_left (hperm.filterMap id).mem_iff

/-- Neither does it whether the known ones fit. -/
theorem joinable_reduceOption_iff (hperm : shapes.Perm shapes') :
    Joinable shapes.reduceOption ↔ Joinable shapes'.reduceOption :=
  exists_congr (allBelow_reduceOption_iff hperm)

/-- **Two orders** have the same outcome iff the shapes in front of the first unknown one fit in
both orders or in neither. -/
theorem infer_agree_iff (hperm : shapes.Perm shapes') :
    AgreeUpTo Error.BothValidation Eq (infer .broadcast shapes) (infer .broadcast shapes') ↔
      (Joinable (compared shapes) ↔ Joinable (compared shapes')) := by
  have hmem : none ∈ shapes ↔ none ∈ shapes' := hperm.mem_iff
  rcases infer_broadcast_cases shapes with
    ⟨hfit, shape, hjoin, hinfer⟩ | ⟨hfit, e, hinfer, hcategory⟩ <;>
  rcases infer_broadcast_cases shapes' with
    ⟨hfit', shape', hjoin', hinfer'⟩ | ⟨hfit', e', hinfer', hcategory'⟩ <;>
  rw [hinfer, hinfer']
  · refine iff_of_true (AgreeUpTo.ok ?_) (iff_of_true hfit hfit')
    rw [← if_congr hmem rfl rfl]
    split
    · rfl
    · rename_i hnone
      rw [compared_of_not_mem hnone] at hjoin
      rw [compared_of_not_mem (mt hmem.2 hnone)] at hjoin'
      rw [(hjoin.congr (allBelow_reduceOption_iff hperm)).eq hjoin']
  · exact iff_of_false id fun h => hfit' (h.1 hfit)
  · exact iff_of_false id fun h => hfit (h.2 hfit')
  · exact iff_of_true (AgreeUpTo.error ⟨hcategory, hcategory'⟩) (iff_of_false hfit hfit')

/-- **All orders** have the same outcome iff no shape is unknown, or the known ones fit. -/
theorem infer_agree_all_iff (shapes : List (Option Extents)) :
    (∀ shapes', shapes.Perm shapes' →
        AgreeUpTo Error.BothValidation Eq (infer .broadcast shapes) (infer .broadcast shapes')) ↔
      none ∉ shapes ∨ Joinable shapes.reduceOption := by
  constructor
  · intro h
    by_cases hnone : none ∈ shapes
    · right
      -- an unknown shape in front hides all others, and behind them it hides none
      obtain ⟨n, hlast⟩ := exists_perm_replicate shapes
      have hfirst := List.perm_cons_erase hnone
      have hagree := (infer_agree_iff hfirst).1 (h _ hfirst)
      have hagree' := (infer_agree_iff hlast).1 (h _ hlast)
      rw [compared_append_replicate] at hagree'
      have hnothing : Joinable (compared (none :: shapes.erase none)) := joinable_nil
      exact hagree'.1 (hagree.2 hnothing)
    · exact .inl hnone
  · intro h shapes' hperm
    refine (infer_agree_iff hperm).2 ?_
    rcases h with hnone | hknown
    · rw [compared_of_not_mem hnone, compared_of_not_mem (mt hperm.mem_iff.2 hnone)]
      exact joinable_reduceOption_iff hperm
    · have hknown' := (joinable_reduceOption_iff hperm).1 hknown
      exact iff_of_true (hknown.mono (compared_subset shapes))
        (hknown'.mono (compared_subset shapes'))

end OutputRule

end ComputeGraph
