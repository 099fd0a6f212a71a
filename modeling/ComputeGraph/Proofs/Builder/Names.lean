import ComputeGraph.Proofs.Builder.Growth
import Mathlib.Data.Finset.Card
import Mathlib.Data.Nat.Count

/-!
# Fresh names

The search for a fresh name is bounded by the number of names in use, and it always finds one: it
would have to meet more names in use than there are. The names that a builder makes one after
another for unnamed nodes are those with the least free numbers, in their order.

* **`Graph.hasName_freshName`** — a fresh name is not in use;
* `Graph.Offers` — the numbers whose names are free, `Graph.Generates` — the names with the first
  few of them;
* **`Graph.generates_succ`** — the first name is the fresh one, and the others are those that are
  generated once it is in use.
-/

namespace ComputeGraph

/-- A number can be read back from its digits. -/
theorem numbered_inj {stem : String} {m n : Nat} : numbered stem m = numbered stem n ↔ m = n := by
  unfold numbered
  rw [String.append_right_inj]
  constructor
  · intro h
    have hdigits : Nat.toDigits 10 m = Nat.toDigits 10 n := by
      rw [← Nat.toList_repr, h, Nat.toList_repr]
    calc m = Nat.ofDigitChars 10 (Nat.toDigits 10 m) 0 :=
          (Nat.ofDigitChars_toDigits (by decide) (by decide)).symm
      _ = n := by rw [hdigits, Nat.ofDigitChars_toDigits (by decide) (by decide)]
  · intro h
    rw [h]

/-! ### The search -/

section Search

variable (taken : String → Bool) (stem : String)

theorem le_leastFree (steps n : Nat) : n ≤ leastFree taken stem steps n := by
  induction steps generalizing n with
  | zero => exact Nat.le_refl n
  | succ steps ih =>
    unfold leastFree
    split
    · exact Nat.le_of_succ_le (ih (n + 1))
    · exact Nat.le_refl n

/-- All numbers that the search passes over are taken. -/
theorem taken_of_lt_leastFree {steps n m : Nat} (hle : n ≤ m)
    (hlt : m < leastFree taken stem steps n) : taken (numbered stem m) = true := by
  induction steps generalizing n with
  | zero => exact absurd hlt (Nat.not_lt.2 hle)
  | succ steps ih =>
    unfold leastFree at hlt
    split at hlt
    · rename_i htaken
      rcases Nat.eq_or_lt_of_le hle with rfl | hgt
      · exact htaken
      · exact ih hgt hlt
    · exact absurd hlt (Nat.not_lt.2 hle)

/-- The search ends at a free number or has passed over as many numbers as it may. -/
theorem leastFree_free_or_eq (steps n : Nat) :
    taken (numbered stem (leastFree taken stem steps n)) = false ∨
      leastFree taken stem steps n = n + steps := by
  induction steps generalizing n with
  | zero => exact .inr rfl
  | succ steps ih =>
    unfold leastFree
    split
    · rcases ih (n + 1) with hfree | heq
      · exact .inl hfree
      · exact .inr (by rw [heq]; omega)
    · rename_i hfree
      exact .inl (Bool.eq_false_iff.2 hfree)

end Search

namespace Graph

/-- A name is in use iff the index has it. -/
theorem hasName_eq_true {graph : Graph} {name : String} :
    graph.hasName name = true ↔ name ∈ graph.names.map Prod.fst := by
  unfold hasName
  rw [List.lookup_isSome_iff, List.mem_map]
  refine exists_congr fun e => and_congr_right fun _ => ?_
  rw [beq_iff_eq, eq_comm]

/-- **Fresh names** are not in use. -/
theorem hasName_freshName (graph : Graph) (stem : String) :
    graph.hasName (graph.freshName stem) = false := by
  unfold freshName
  have hpassed : ∀ m, graph.nextId ≤ m →
      m < leastFree graph.hasName stem graph.names.length graph.nextId →
        graph.hasName (numbered stem m) = true :=
    fun m hge hlt => taken_of_lt_leastFree graph.hasName stem hge hlt
  rcases leastFree_free_or_eq graph.hasName stem graph.names.length graph.nextId with hfree | hend
  · exact hfree
  rw [hend] at hpassed ⊢
  rw [Bool.eq_false_iff]
  intro hused
  -- there would be more numbers whose names are in use than names
  let used := (List.range' graph.nextId (graph.names.length + 1)).map (numbered stem)
  have hnodup : used.Nodup := (List.nodup_range' 1).map fun _ _ => numbered_inj.1
  have hsubset : used ⊆ graph.names.map Prod.fst := by
    intro name hname
    obtain ⟨m, hm, rfl⟩ := List.mem_map.1 hname
    obtain ⟨hge, hlt⟩ := List.mem_range'_1.1 hm
    refine hasName_eq_true.1 ?_
    rcases Nat.eq_or_lt_of_le (show m ≤ graph.nextId + graph.names.length by omega) with heq | hless
    · exact heq ▸ hused
    · exact hpassed m hge hless
  have hlength := hnodup.length_le_of_subset hsubset
  simp only [used, List.length_map, List.length_range'] at hlength
  omega

/-- A node that has no name gets one that is free, or none. -/
theorem isFree_named (graph : Graph) {request : Request} (h : request.name = none)
    (options : Options) : graph.IsFree (request.named options graph).name := by
  unfold Request.named
  rw [h]
  cases options.namePrefix with
  | none =>
    intro name hname
    rw [h] at hname
    cases hname
  | some stem =>
    intro name hname
    cases hname
    exact graph.hasName_freshName stem

/-- A name that is free, or given by the builder, is free. -/
theorem IsFree.named {graph : Graph} {request : Request} (h : graph.IsFree request.name)
    (options : Options) : graph.IsFree (request.named options graph).name := by
  cases hname : request.name with
  | none => exact graph.isFree_named hname options
  | some name =>
    rw [Request.named_of_name hname]
    exact h

/-! ### The names that are made one after another -/

/-- The name with the number is free, and the number is not less than the id of the next node. -/
def Offers (graph : Graph) (stem : String) (m : Nat) : Prop :=
  graph.size ≤ m ∧ graph.hasName (numbered stem m) = false

instance (graph : Graph) (stem : String) : DecidablePred (graph.Offers stem) :=
  fun _ => inferInstanceAs (Decidable (_ ∧ _))

/-- The name has one of the first `count` numbers that are offered. -/
def Generates (graph : Graph) (stem : String) (count : Nat) (name : String) : Prop :=
  ∃ m, name = numbered stem m ∧ graph.Offers stem m ∧ Nat.count (graph.Offers stem) m < count

/-- The number of the fresh name is the least that is offered. -/
theorem exists_freshName_eq (graph : Graph) (stem : String) :
    ∃ m, graph.freshName stem = numbered stem m ∧ graph.Offers stem m ∧
      ∀ n, graph.Offers stem n → m ≤ n := by
  refine ⟨_, rfl, ⟨le_leastFree _ _ _ _, graph.hasName_freshName stem⟩, fun n hn => ?_⟩
  obtain ⟨hge, hfree⟩ := hn
  by_contra hlt
  rw [taken_of_lt_leastFree graph.hasName stem hge (Nat.lt_of_not_le hlt)] at hfree
  cases hfree

/-- Once the node with a fresh name is appended, the other numbers are offered. -/
theorem offers_snoc {graph : Graph} {stem : String} {node : Node} {m : Nat}
    (hname : node.name = some (numbered stem m)) (hm : graph.Offers stem m)
    (hleast : ∀ n, graph.Offers stem n → m ≤ n) (n : Nat) :
    (graph.snoc node).Offers stem n ↔ graph.Offers stem n ∧ n ≠ m := by
  unfold Offers
  have hsize : (graph.snoc node).size = graph.size + 1 := List.length_append
  rw [hsize, hasName_snoc, hname, Bool.or_eq_false_iff, decide_eq_false_iff_not, Option.some.injEq,
    numbered_inj]
  constructor
  · intro h
    obtain ⟨hge, hne, hfree⟩ := h
    exact ⟨⟨Nat.le_of_succ_le hge, hfree⟩, Ne.symm hne⟩
  · intro h
    obtain ⟨hn, hne⟩ := h
    have hlt : m < n := Nat.lt_of_le_of_ne (hleast n hn) (Ne.symm hne)
    exact ⟨Nat.lt_of_le_of_lt hm.1 hlt, Ne.symm hne, hn.2⟩

end Graph

/-- Leaving out a number that counts takes one from the count below every larger number. -/
theorem count_ne {p q : Nat → Prop} [DecidablePred p] [DecidablePred q] {m n : Nat} (hm : p m)
    (hq : ∀ k, q k ↔ p k ∧ k ≠ m) (hlt : m < n) : Nat.count q n + 1 = Nat.count p n := by
  have herase : (Finset.range n).filter q = ((Finset.range n).filter p).erase m := by
    ext k
    simp only [Finset.mem_filter, Finset.mem_erase, hq]
    tauto
  have hmem : m ∈ (Finset.range n).filter p :=
    Finset.mem_filter.2 ⟨Finset.mem_range.2 hlt, hm⟩
  rw [Nat.count_eq_card_filter_range, Nat.count_eq_card_filter_range, herase,
    Finset.card_erase_add_one hmem]

/-- **Names made one after another.** The first is the fresh name, and the others are made once it
is in use. -/
theorem Graph.generates_succ {graph : Graph} {stem : String} {node : Node}
    (hname : node.name = some (graph.freshName stem)) (count : Nat) (name : String) :
    graph.Generates stem (count + 1) name ↔
      name = graph.freshName stem ∨ (graph.snoc node).Generates stem count name := by
  obtain ⟨m, hfresh, hm, hleast⟩ := graph.exists_freshName_eq stem
  rw [hfresh] at hname
  have hoffers := offers_snoc hname hm hleast
  have hzero : Nat.count (graph.Offers stem) m = 0 :=
    Nat.count_iff_forall_not.2 fun n hlt hn => absurd (hleast n hn) (Nat.not_le.2 hlt)
  rw [hfresh]
  constructor
  · intro h
    obtain ⟨n, rfl, hn, hcount⟩ := h
    rcases Nat.eq_or_lt_of_le (hleast n hn) with rfl | hlt
    · exact .inl rfl
    · have hless := count_ne hm hoffers hlt
      exact .inr ⟨n, rfl, (hoffers n).2 ⟨hn, Nat.ne_of_gt hlt⟩, by omega⟩
  · intro h
    rcases h with rfl | ⟨n, rfl, hn, hcount⟩
    · exact ⟨m, rfl, hm, by omega⟩
    · obtain ⟨hn, hne⟩ := (hoffers n).1 hn
      have hless := count_ne hm hoffers (Nat.lt_of_le_of_ne (hleast n hn) (Ne.symm hne))
      exact ⟨n, rfl, hn, by omega⟩

end ComputeGraph
