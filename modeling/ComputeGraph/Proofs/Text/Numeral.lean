import ComputeGraph.Text.Blank
import ComputeGraph.Text.Numeral
import Mathlib.Data.List.TakeWhile

/-!
# Numerals and the blanks around them

Which texts are numerals of a machine word, said through the digits that are printed for the word,
and which text is left when the blank ends of a text are taken off.

* `dropWhile_eq_iff` — what a scan leaves;
* **`trim_eq_iff`** — what is left of a text without its blank ends;
* `Numeral` — a sign that may be left out, leading zeros, and the digits of the word;
* **`word?_eq_some_iff`** — the reader accepts the numerals of a word and nothing else.
-/

namespace ComputeGraph.Text

/-! ### Scans -/

/-- A scan leaves the rest from the first member on that fails the test. -/
theorem dropWhile_eq_iff {α : Type} {p : α → Bool} {xs rest : List α} :
    xs.dropWhile p = rest ↔
      ∃ front, xs = front ++ rest ∧ (∀ x ∈ front, p x = true) ∧ ∀ x ∈ rest.head?, p x = false := by
  constructor
  · rintro rfl
    refine ⟨xs.takeWhile p, List.takeWhile_append_dropWhile.symm,
      fun x hx => List.mem_takeWhile_imp hx, fun x hx => ?_⟩
    have hhead := List.head?_dropWhile_not p xs
    rw [Option.mem_def.1 hx] at hhead
    simpa using hhead
  · rintro ⟨front, rfl, hfront, hrest⟩
    rw [List.dropWhile_append_of_pos hfront]
    cases rest with
    | nil => rfl
    | cons x rest =>
      have hx : ¬ p x = true := by
        rw [hrest x rfl]
        exact Bool.false_ne_true
      exact List.dropWhile_cons_of_neg hx

/-! ### Blank ends -/

theorem trimEnd_eq_iff {s t : List Char} :
    trimEnd s = t ↔
      ∃ right, s = t ++ right ∧ (∀ c ∈ right, isBlank c = true) ∧
        ∀ c ∈ t.getLast?, isBlank c = false := by
  unfold trimEnd
  rw [List.reverse_eq_iff, dropWhile_eq_iff]
  constructor
  · rintro ⟨front, hs, hfront, hlast⟩
    refine ⟨front.reverse, ?_, fun c hc => hfront c (List.mem_reverse.1 hc), ?_⟩
    · rw [← List.reverse_reverse s, hs, List.reverse_append, List.reverse_reverse]
    · rwa [List.head?_reverse] at hlast
  · rintro ⟨right, rfl, hright, hlast⟩
    refine ⟨right.reverse, List.reverse_append, fun c hc => hright c (List.mem_reverse.1 hc), ?_⟩
    rwa [List.head?_reverse]

/-- **Trimming** takes blanks off both ends of a text, as many as there are. -/
theorem trim_eq_iff {s t : List Char} :
    trim s = t ↔
      ∃ left right, s = left ++ (t ++ right) ∧ (∀ c ∈ left, isBlank c = true) ∧
        (∀ c ∈ right, isBlank c = true) ∧ (∀ c ∈ t.head?, isBlank c = false) ∧
        ∀ c ∈ t.getLast?, isBlank c = false := by
  unfold trim
  constructor
  · intro h
    obtain ⟨left, hs, hleft, hhead⟩ := dropWhile_eq_iff.1 (Eq.refl (s.dropWhile isBlank))
    obtain ⟨right, hrest, hright, hlast⟩ := trimEnd_eq_iff.1 h
    refine ⟨left, right, hrest ▸ hs, hleft, hright, fun c hc => ?_, hlast⟩
    refine hhead c ?_
    rw [hrest, Option.mem_def, List.head?_append, Option.mem_def.1 hc]
    rfl
  · rintro ⟨left, right, rfl, hleft, hright, hhead, hlast⟩
    cases t with
    | nil =>
      -- all is blank, and the first scan takes it off
      have hall : (left ++ ([] ++ right)).dropWhile isBlank = [] :=
        dropWhile_eq_iff.2 ⟨_, (List.append_nil _).symm,
          fun c hc => (List.mem_append.1 hc).elim (hleft c) (hright c), fun _ h => nomatch h⟩
      rw [hall]
      rfl
    | cons c t =>
      have hdrop : (left ++ (c :: t ++ right)).dropWhile isBlank = c :: t ++ right :=
        dropWhile_eq_iff.2 ⟨left, rfl, hleft, hhead⟩
      rw [hdrop]
      exact trimEnd_eq_iff.2 ⟨right, rfl, hright, hlast⟩

/-- Nothing is left of a text that is blank, and of no other. -/
theorem trim_eq_nil_iff {s : List Char} : trim s = [] ↔ ∀ c ∈ s, isBlank c = true := by
  rw [trim_eq_iff]
  constructor
  · rintro ⟨left, right, rfl, hleft, hright, -⟩ c hc
    exact (List.mem_append.1 hc).elim (hleft c) (hright c)
  · intro h
    exact ⟨s, [], (List.append_nil s).symm, h, List.forall_mem_nil _, (fun _ h => nomatch h),
      (fun _ h => nomatch h)⟩

theorem trim_trim (s : List Char) : trim (trim s) = trim s := by
  obtain ⟨left, right, -, -, -, hhead, hlast⟩ := trim_eq_iff.1 (Eq.refl (trim s))
  exact trim_eq_iff.2 ⟨[], [], (List.append_nil _).symm, List.forall_mem_nil _,
    List.forall_mem_nil _, hhead, hlast⟩

/-- No digit is blank. -/
theorem isBlank_of_isDigit {c : Char} (h : c.isDigit = true) : isBlank c = false := by
  obtain ⟨hlow, hhigh⟩ := Char.isDigit_iff_toNat.1 h
  change 48 ≤ c.toNat at hlow
  change c.toNat ≤ 57 at hhigh
  simp only [isBlank, blankRanges, List.any_cons, List.any_nil, Bool.or_false, Bool.or_eq_false_iff,
    Bool.and_eq_false_iff, decide_eq_false_iff_not]
  omega

/-! ### Digits -/

/-- A digit is the character of its value. -/
theorem digitChar_of_isDigit {c : Char} (h : c.isDigit = true) :
    c.toNat - '0'.toNat < 10 ∧ Nat.digitChar (c.toNat - '0'.toNat) = c := by
  obtain ⟨hlow, hhigh⟩ := Char.isDigit_iff_toNat.1 h
  change 48 ≤ c.toNat at hlow
  change c.toNat ≤ 57 at hhigh
  have hlt : c.toNat - '0'.toNat < 10 := by
    change c.toNat - 48 < 10
    omega
  refine ⟨hlt, Char.toNat_inj.1 ?_⟩
  rw [Nat.toNat_digitChar_of_lt_ten hlt]
  change 48 + (c.toNat - 48) = c.toNat
  omega

/-- The digits of a number with further digits after them are those of the number that all of them
stand for. -/
theorem toDigits_append {s : List Char} (hdigits : ∀ c ∈ s, c.isDigit = true) {n : Nat}
    (hn : 0 < n) : Nat.toDigits 10 n ++ s = Nat.toDigits 10 (Nat.ofDigitChars 10 s n) := by
  induction s generalizing n with
  | nil => rw [List.append_nil, Nat.ofDigitChars_nil]
  | cons c s ih =>
    obtain ⟨hc, hs⟩ := List.forall_mem_cons.1 hdigits
    obtain ⟨hlt, hchar⟩ := digitChar_of_isDigit hc
    have hdigit : Nat.toDigits 10 n ++ [c] =
        Nat.toDigits 10 (10 * n + (c.toNat - '0'.toNat)) := by
      rw [← Nat.toDigits_append_toDigits (by decide) hn hlt, Nat.toDigits_of_lt_base hlt, hchar]
    rw [Nat.ofDigitChars_cons, ← ih hs (by omega), ← hdigit, List.append_assoc]
    rfl

/-- Digits are those of the number that they stand for, after some zeros. -/
theorem exists_zeros_append_toDigits {s : List Char} (hne : s ≠ [])
    (hdigits : ∀ c ∈ s, c.isDigit = true) :
    ∃ zeros, s = List.replicate zeros '0' ++ Nat.toDigits 10 (Nat.ofDigitChars 10 s 0) := by
  induction s with
  | nil => exact absurd rfl hne
  | cons c s ih =>
    obtain ⟨hc, hs⟩ := List.forall_mem_cons.1 hdigits
    obtain ⟨hlt, hchar⟩ := digitChar_of_isDigit hc
    rw [Nat.ofDigitChars_cons, Nat.mul_zero, Nat.zero_add]
    by_cases hzero : c.toNat - '0'.toNat = 0
    · have hc0 : c = '0' := by
        rw [← hchar, hzero]
        rfl
      subst hc0
      cases s with
      | nil => exact ⟨0, rfl⟩
      | cons d s =>
        obtain ⟨zeros, hread⟩ := ih (List.cons_ne_nil d s) hs
        exact ⟨zeros + 1, congrArg ('0' :: ·) hread⟩
    · refine ⟨0, ?_⟩
      rw [← toDigits_append hs (Nat.pos_of_ne_zero hzero), Nat.toDigits_of_lt_base hlt, hchar]
      rfl

theorem isDigit_of_mem_zeros_append {zeros n : Nat} {c : Char}
    (h : c ∈ List.replicate zeros '0' ++ Nat.toDigits 10 n) : c.isDigit = true := by
  rcases List.mem_append.1 h with h | h
  · rw [List.eq_of_mem_replicate h]
    rfl
  · exact Nat.isDigit_of_mem_toDigits (by decide) (by decide) h

theorem digits?_eq_some_iff {s : List Char} {n : Nat} :
    digits? s = some n ↔ ∃ zeros, s = List.replicate zeros '0' ++ Nat.toDigits 10 n := by
  unfold digits?
  constructor
  · intro h
    split at h
    · rename_i hs
      rw [← Option.some.inj h]
      exact exists_zeros_append_toDigits hs.1 (List.all_eq_true.1 hs.2)
    · cases h
  · rintro ⟨zeros, rfl⟩
    have hne : List.replicate zeros '0' ++ Nat.toDigits 10 n ≠ [] :=
      List.append_ne_nil_of_right_ne_nil _ Nat.toDigits_ne_nil
    have hall : (List.replicate zeros '0' ++ Nat.toDigits 10 n).all Char.isDigit = true :=
      List.all_eq_true.2 fun _ => isDigit_of_mem_zeros_append
    rw [if_pos ⟨hne, hall⟩, Nat.ofDigitChars_append, Nat.ofDigitChars_replicate_zero, Nat.mul_zero,
      Nat.ofDigitChars_ten_toDigits]

/-! ### Numerals -/

/-- The text is a numeral of the word: a plus sign or none, some zeros, and the digits of the
word. -/
def Numeral (s : List Char) (n : UInt64) : Prop :=
  ∃ sign zeros, (sign = [] ∨ sign = ['+']) ∧
    s = sign ++ (List.replicate zeros '0' ++ Nat.toDigits 10 n.toNat)

theorem exists_sign_append_dropPlus (s : List Char) :
    ∃ sign, (sign = [] ∨ sign = ['+']) ∧ s = sign ++ dropPlus s := by
  unfold dropPlus
  split
  · exact ⟨['+'], .inr rfl, rfl⟩
  · exact ⟨[], .inl rfl, rfl⟩

/-- **The reader of words** accepts the numerals of a word and nothing else. -/
theorem word?_eq_some_iff {s : List Char} {n : UInt64} : word? s = some n ↔ Numeral s n := by
  unfold word? Numeral
  rw [Option.bind_eq_some_iff]
  constructor
  · rintro ⟨m, hdigits, hword⟩
    obtain ⟨zeros, hzeros⟩ := digits?_eq_some_iff.1 hdigits
    obtain ⟨sign, hsign, hs⟩ := exists_sign_append_dropPlus s
    split at hword
    · rename_i hlt
      have hn : n.toNat = m := by
        rw [← Option.some.inj hword, UInt64.toNat_ofNat_of_lt' hlt]
      exact ⟨sign, zeros, hsign, by rw [hn, ← hzeros, ← hs]⟩
    · cases hword
  · rintro ⟨sign, zeros, hsign, rfl⟩
    have hdrop : dropPlus (sign ++ (List.replicate zeros '0' ++ Nat.toDigits 10 n.toNat)) =
        List.replicate zeros '0' ++ Nat.toDigits 10 n.toNat := by
      rcases hsign with rfl | rfl
      · exact dropPlus_of_isDigit (List.all_eq_true.2 fun _ => isDigit_of_mem_zeros_append)
      · rfl
    rw [hdrop]
    refine ⟨n.toNat, digits?_eq_some_iff.2 ⟨zeros, rfl⟩, ?_⟩
    rw [if_pos n.toNat_lt, UInt64.ofNat_toNat]

theorem Numeral.ne_nil {s : List Char} {n : UInt64} (h : Numeral s n) : s ≠ [] := by
  obtain ⟨sign, zeros, -, rfl⟩ := h
  exact List.append_ne_nil_of_right_ne_nil _
    (List.append_ne_nil_of_right_ne_nil _ Nat.toDigits_ne_nil)

/-- The digits of a word are a numeral of it. -/
theorem numeral_toDigits (n : UInt64) : Numeral (Nat.toDigits 10 n.toNat) n :=
  ⟨[], 0, .inl rfl, rfl⟩

end ComputeGraph.Text
