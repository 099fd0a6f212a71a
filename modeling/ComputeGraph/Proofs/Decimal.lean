import ComputeGraph.Json.Printer
import ComputeGraph.Json.Reader

/-!
# Numerals and their texts

A numeral is spelled with digits, a minus sign and a point, and a reader of numbers gets it back.

* `Decimal.not_mem_text` — no other characters;
* **`Json.readNumber_append`** — a number is read back from its text wherever the text stands;
* `Decimal.ofText?` — the numeral that a text spells;
* **`Decimal.ofText?_text`** — every numeral is read back from its text.
-/

namespace ComputeGraph

/-! ### Digits -/

theorem isDigit_digitText (d : Fin 10) : (digitText d).isDigit = true := by
  unfold digitText
  rw [Nat.isDigit_digitChar]
  exact decide_eq_true d.isLt

theorem isDigit_of_mem_map_digitText {digits : List (Fin 10)} {c : Char}
    (h : c ∈ digits.map digitText) : c.isDigit = true := by
  obtain ⟨d, -, rfl⟩ := List.mem_map.1 h
  exact isDigit_digitText d

theorem Json.digitOf_digitText (d : Fin 10) : Json.digitOf (digitText d) = d := by
  decide +revert

/-! ### Characters -/

namespace Decimal

/-- The text of a numeral has digits, a minus sign and a point only. -/
theorem not_mem_text (d : Decimal) {c : Char} (hdigit : c.isDigit = false) (hminus : c ≠ '-')
    (hpoint : c ≠ '.') : c ∉ d.text := by
  have hnot : ∀ {s : List Char}, (∀ c ∈ s, c.isDigit = true) → c ∉ s := by
    intro s hs hmem
    rw [hs c hmem] at hdigit
    cases hdigit
  intro hmem
  obtain hmem | hfraction := List.mem_append.1 hmem
  · obtain hsign | hwhole := List.mem_append.1 hmem
    · split at hsign
      · exact hminus (List.mem_singleton.1 hsign)
      · cases hsign
    · exact hnot (fun _ => Nat.isDigit_of_mem_toDigits (by decide) (by decide)) hwhole
  · cases hdigits : d.fraction with
    | nil =>
      rw [hdigits] at hfraction
      cases hfraction
    | cons digit digits =>
      rw [hdigits] at hfraction
      obtain heq | hrest := List.mem_cons.1 hfraction
      · exact hpoint heq
      · exact hnot (fun _ => isDigit_of_mem_map_digitText) hrest

theorem text_ne_nil (d : Decimal) : d.text ≠ [] := by
  intro h
  obtain ⟨hfront, -⟩ := List.append_eq_nil_iff.1 h
  exact Nat.toDigits_ne_nil (List.append_eq_nil_iff.1 hfront).2

end Decimal

/-! ### Reading back -/

namespace Json

/-- A text that does not begin with a digit. -/
def EndsDigits (s : List Char) : Prop :=
  ∀ c ∈ s.head?, c.isDigit = false

theorem readDigits_append {digits rest : List Char} (hdigits : ∀ c ∈ digits, c.isDigit = true)
    (hne : digits ≠ []) (hrest : EndsDigits rest) :
    readDigits (digits ++ rest) = some (digits, rest) := by
  have htake : rest.takeWhile Char.isDigit = [] ∧ rest.dropWhile Char.isDigit = rest := by
    cases rest with
    | nil => exact ⟨rfl, rfl⟩
    | cons c rest =>
      have hc : ¬ c.isDigit = true := by
        rw [hrest c rfl]
        exact Bool.false_ne_true
      exact ⟨List.takeWhile_cons_of_neg hc, List.dropWhile_cons_of_neg hc⟩
  unfold readDigits
  rw [List.takeWhile_append_of_pos hdigits, List.dropWhile_append_of_pos hdigits, htake.1, htake.2,
    List.append_nil, if_neg hne]

/-- Only zero has digits that begin with a zero. -/
theorem eq_zero_of_head?_toDigits {n : Nat} (h : (Nat.toDigits 10 n).head? = some '0') : n = 0 := by
  induction n using Nat.strongRecOn with
  | ind n ih =>
    by_cases hn : n < 10
    · rw [Nat.toDigits_of_lt_base hn] at h
      have hdigits : ∀ d : Fin 10, Nat.digitChar d.val = '0' → d.val = 0 := by decide
      exact hdigits ⟨n, hn⟩ (Option.some.inj h)
    · -- the digits before the last are those of a smaller number, which is not zero
      rw [Nat.toDigits_of_base_le (by decide) (by omega)] at h
      have hhead : (Nat.toDigits 10 (n / 10)).head? = some '0' := by
        have hne : Nat.toDigits 10 (n / 10) ≠ [] := Nat.toDigits_ne_nil
        obtain ⟨c, rest, hdigits⟩ := List.exists_cons_of_ne_nil hne
        rw [hdigits] at h ⊢
        exact h
      have hquotient := ih (n / 10) (by omega) hhead
      omega

theorem readWhole_toDigits (n : Nat) {rest : List Char} (hrest : EndsDigits rest) :
    readWhole (Nat.toDigits 10 n ++ rest) = some (n, rest) := by
  unfold readWhole
  rw [readDigits_append (fun _ => Nat.isDigit_of_mem_toDigits (by decide) (by decide))
    Nat.toDigits_ne_nil hrest]
  have hzero : ¬ ((Nat.toDigits 10 n).head? = some '0' ∧ (Nat.toDigits 10 n).length ≠ 1) := by
    rintro ⟨hhead, hlength⟩
    rw [eq_zero_of_head?_toDigits hhead] at hlength
    exact hlength rfl
  show (if _ then none else some (Nat.ofDigitChars 10 (Nat.toDigits 10 n) 0, rest)) = _
  rw [if_neg hzero, Nat.ofDigitChars_toDigits (by decide) (by decide)]

/-- A text that cannot go on with a number: it begins with no digit, point or mark of an
exponent. -/
def EndsNumber (s : List Char) : Prop :=
  ∀ c ∈ s.head?, c.isDigit = false ∧ c ≠ '.' ∧ c ≠ 'e' ∧ c ≠ 'E'

theorem EndsNumber.nil : EndsNumber [] :=
  fun _ hc => nomatch hc

theorem EndsNumber.cons {c : Char} (hdigit : c.isDigit = false) (hpoint : c ≠ '.')
    (hmark : c ≠ 'e' ∧ c ≠ 'E') (s : List Char) : EndsNumber (c :: s) := by
  intro d hd
  obtain rfl := Option.some.inj hd
  exact ⟨hdigit, hpoint, hmark⟩

theorem EndsNumber.endsDigits {s : List Char} (h : EndsNumber s) : EndsDigits s :=
  fun c hc => (h c hc).1

theorem readFraction_append (digits : List (Fin 10)) {rest : List Char} (hrest : EndsDigits rest)
    (hpoint : ∀ c ∈ rest.head?, c ≠ '.') :
    readFraction (Decimal.fractionText digits ++ rest) = some (digits, rest) := by
  cases digits with
  | nil =>
    show readFraction rest = _
    unfold readFraction
    split
    · exact absurd rfl (hpoint '.' rfl)
    · rfl
  | cons d digits =>
    have hread : readDigits ((d :: digits).map digitText ++ rest) =
        some ((d :: digits).map digitText, rest) :=
      readDigits_append (fun _ => isDigit_of_mem_map_digitText) (List.cons_ne_nil _ _) hrest
    show ((readDigits ((d :: digits).map digitText ++ rest)).bind
      fun p => some (p.1.map digitOf, p.2)) = _
    rw [hread]
    show some (((d :: digits).map digitText).map digitOf, rest) = _
    rw [List.map_map]
    have hid : digitOf ∘ digitText = id := funext digitOf_digitText
    rw [hid, List.map_id]

theorem readExponent_append (exponent : Option Int) {rest : List Char} (hrest : EndsNumber rest) :
    readExponent (exponentText exponent ++ rest) = some (exponent, rest) := by
  cases exponent with
  | none =>
    cases rest with
    | nil => rfl
    | cons c rest =>
      have hmark : ¬ (c = 'e' ∨ c = 'E') := not_or.2 (hrest c rfl).2.2
      show readExponent (c :: rest) = _
      simp [readExponent, hmark]
  | some e =>
    have hdigits : readDigits (Nat.toDigits 10 e.natAbs ++ rest) =
        some (Nat.toDigits 10 e.natAbs, rest) :=
      readDigits_append (fun _ => Nat.isDigit_of_mem_toDigits (by decide) (by decide))
        Nat.toDigits_ne_nil hrest.endsDigits
    have hvalue : Nat.ofDigitChars 10 (Nat.toDigits 10 e.natAbs) 0 = e.natAbs :=
      Nat.ofDigitChars_toDigits (by decide) (by decide)
    have hread : ∀ negative : Bool,
        readExponent ('e' :: (if negative then '-' else '+') ::
          (Nat.toDigits 10 e.natAbs ++ rest)) =
        some (some (if negative then -(e.natAbs : Int) else e.natAbs), rest) := by
      intro negative
      cases negative
      all_goals
        simp only [readExponent, readSign, if_true, if_false, Bool.false_eq_true, true_or, hdigits,
          hvalue, Option.bind_eq_bind, Option.bind_some, Option.pure_def]
    by_cases he : e < 0
    · have habs : -(e.natAbs : Int) = e := by omega
      show readExponent ('e' :: (if e < 0 then '-' else '+') :: (_ ++ rest)) = _
      rw [if_pos he]
      exact (hread true).trans (by rw [if_pos rfl, habs])
    · have habs : (e.natAbs : Int) = e := by omega
      show readExponent ('e' :: (if e < 0 then '-' else '+') :: (_ ++ rest)) = _
      rw [if_neg he]
      exact (hread false).trans (by rw [if_neg Bool.false_ne_true, habs])

theorem endsDigits_fractionText_append (digits : List (Fin 10)) {rest : List Char}
    (hrest : EndsDigits rest) : EndsDigits (Decimal.fractionText digits ++ rest) := by
  cases digits with
  | nil => exact hrest
  | cons d digits =>
    intro c hc
    cases hc
    decide

theorem readMinus_append (d : Decimal) (rest : List Char) :
    readMinus (d.text ++ rest) =
      (d.negative, Nat.toDigits 10 d.whole ++ (Decimal.fractionText d.fraction ++ rest)) := by
  unfold Decimal.text
  cases d.negative with
  | true => simp [readMinus]
  | false =>
    cases hdigits : Nat.toDigits 10 d.whole with
    | nil => exact absurd hdigits Nat.toDigits_ne_nil
    | cons c digits =>
      have hc : c ≠ '-' := by
        rintro rfl
        have hdigit : '-'.isDigit = true :=
          Nat.isDigit_of_mem_toDigits (by decide) (by decide) (hdigits ▸ List.mem_cons_self)
        exact absurd hdigit (by decide)
      simp [readMinus, hc]

/-- **Every number** is read back from its text, whatever follows that cannot go on with it. -/
theorem readNumber_append (n : Number) {rest : List Char} (hrest : EndsNumber rest) :
    readNumber (n.text ++ rest) = some (n, rest) := by
  obtain ⟨⟨negative, whole, fraction⟩, exponent⟩ := n
  have htail : EndsDigits (exponentText exponent ++ rest) ∧
      ∀ c ∈ (exponentText exponent ++ rest).head?, c ≠ '.' := by
    cases exponent with
    | none => exact ⟨hrest.endsDigits, fun c hc => (hrest c hc).2.1⟩
    | some e =>
      constructor
      all_goals
        intro c hc
        cases hc
        decide
  unfold readNumber Number.text
  rw [List.append_assoc, readMinus_append]
  simp only [Option.bind_eq_bind, Option.pure_def,
    readWhole_toDigits whole (endsDigits_fractionText_append fraction htail.1),
    readFraction_append fraction htail.1 htail.2, readExponent_append exponent hrest,
    Option.bind_some]

end Json

/-- The numeral that a text spells. -/
def Decimal.ofText? (s : List Char) : Option Decimal :=
  match Json.readNumber s with
  | some (⟨d, none⟩, []) => some d
  | _ => none

/-- **Every numeral** is read back from its text. -/
theorem Decimal.ofText?_text (d : Decimal) : ofText? d.text = some d := by
  have hread : Json.readNumber d.text = some (⟨d, none⟩, []) := by
    have h := Json.readNumber_append ⟨d, none⟩ .nil
    rwa [List.append_nil, Json.Number.text, Json.exponentText, List.append_nil] at h
  unfold ofText?
  rw [hread]

end ComputeGraph
