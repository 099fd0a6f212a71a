import ComputeGraph.Proofs.Shape.Grammar

/-!
# Shapes printed and read back

The text of a shape spells the shape: a scalar shape as the digits of its extent, and a list of
extents between parentheses, with a comma and a blank between them, or a comma after a lone one. So
a shape is read back from its text, except for the shape without extents, whose text is refused.

* `Shape.lists_intercalate`, `Shape.lists_singleton` — what stands between the parentheses;
* **`Shape.spells_characters`** — the characters of a shape spell it;
* **`Shape.text_roundTrip`** — what is printed is read back, and different shapes have different
  texts.
-/

namespace ComputeGraph.Shape

open Text

/-! ### Tokens that are printed -/

theorem isDigit_of_mem_toDigits {n : UInt64} {c : Char} (h : c ∈ Nat.toDigits 10 n.toNat) :
    c.isDigit = true :=
  Nat.isDigit_of_mem_toDigits (by decide) (by decide) h

/-- A character that is no digit does not occur among digits. -/
theorem not_mem_toDigits {n : UInt64} {c : Char} (h : c.isDigit = false) :
    c ∉ Nat.toDigits 10 n.toNat := by
  intro hmem
  rw [isDigit_of_mem_toDigits hmem] at h
  cases h

/-- The blanks before the digits of an extent do not count. -/
theorem trim_blanks_append_toDigits {left : List Char} (hleft : ∀ c ∈ left, isBlank c = true)
    (n : UInt64) : trim (left ++ Nat.toDigits 10 n.toNat) = Nat.toDigits 10 n.toNat := by
  have hend : ∀ c ∈ Nat.toDigits 10 n.toNat, isBlank c = false :=
    fun _ hc => isBlank_of_isDigit (isDigit_of_mem_toDigits hc)
  exact trim_eq_iff.2 ⟨left, [], by rw [List.append_nil], hleft, List.forall_mem_nil _,
    fun c hc => hend c (List.mem_of_mem_head? hc), fun c hc => hend c (List.mem_of_getLast? hc)⟩

/-- The text is the digits of the extent, perhaps with a space before them. -/
def IsPrinted (token : List Char) (n : UInt64) : Prop :=
  ∃ left, (left = [] ∨ left = [' ']) ∧ token = left ++ Nat.toDigits 10 n.toNat

theorem isPrinted_toDigits (n : UInt64) : IsPrinted (Nat.toDigits 10 n.toNat) n :=
  ⟨[], .inl rfl, rfl⟩

theorem IsPrinted.numeral {token : List Char} {n : UInt64} (h : IsPrinted token n) :
    Numeral (trim token) n := by
  obtain ⟨left, hleft, rfl⟩ := h
  have hblank : ∀ c ∈ left, isBlank c = true := by
    intro c hc
    obtain rfl | rfl := hleft
    · cases hc
    · obtain rfl := List.mem_singleton.1 hc
      rfl
  rw [trim_blanks_append_toDigits hblank]
  exact numeral_toDigits n

theorem IsPrinted.not_mem {token : List Char} {n : UInt64} (h : IsPrinted token n) {c : Char}
    (hdigit : c.isDigit = false) (hspace : c ≠ ' ') : c ∉ token := by
  obtain ⟨left, hleft, rfl⟩ := h
  intro hmem
  rcases List.mem_append.1 hmem with hmem | hmem
  · rcases hleft with rfl | rfl
    · cases hmem
    · exact hspace (List.mem_singleton.1 hmem)
  · exact not_mem_toDigits hdigit hmem

/-- Printed extents with commas between them are a list of the extents, also with a comma after the
last of them. -/
theorem lists_of_printed {tokens last : List (List Char)} {extents : Extents} (hne : tokens ≠ [])
    (h : List.Forall₂ IsPrinted tokens extents) (hlast : last = [] ∨ last = [[]]) :
    Lists ([','].intercalate (tokens ++ last)) extents := by
  have hnot : ∀ {c : Char}, c.isDigit = false → c ≠ ' ' →
      ∀ token ∈ tokens ++ last, c ∉ token := by
    intro c hdigit hspace token htoken
    rcases List.mem_append.1 htoken with htoken | htoken
    · have hall := ((List.forall₂_and_left _ _).1
        (h.imp fun _ _ hprinted => ⟨hprinted.not_mem hdigit hspace, hprinted⟩)).1
      exact hall token htoken
    · rcases hlast with rfl | rfl
      · cases htoken
      · rw [List.mem_singleton.1 htoken]
        exact List.not_mem_nil
  have hletter : 'x' ∉ [','].intercalate (tokens ++ last) :=
    not_mem_intercalate (by decide) (hnot (by decide) (by decide))
  refine ⟨',', tokens, last, .inr ⟨.inl hletter, rfl⟩,
    ⟨List.append_ne_nil_of_left_ne_nil hne _, hnot (by decide) (by decide), rfl⟩, hne,
    h.imp fun _ _ => IsPrinted.numeral, ?_⟩
  rcases hlast with rfl | rfl
  · exact .inl rfl
  · exact .inr ⟨[], rfl, List.forall_mem_nil _⟩

/-- Extents that are set apart by a comma and a space. -/
theorem lists_intercalate (n : UInt64) (extents : Extents) :
    Lists ([',', ' '].intercalate ((n :: extents).map fun n => Nat.toDigits 10 n.toNat))
      (n :: extents) := by
  have hrest : List.Forall₂ IsPrinted
      ((extents.map fun n => Nat.toDigits 10 n.toNat).map (' ' :: ·)) extents := by
    rw [List.map_map, List.forall₂_map_left_iff, List.forall₂_same]
    exact fun n _ => ⟨[' '], .inr rfl, rfl⟩
  have hall := lists_of_printed (List.cons_ne_nil _ _) (.cons (isPrinted_toDigits n) hrest)
    (.inl rfl)
  rwa [List.append_nil, ← intercalate_pair] at hall

/-- A lone extent with a comma after it. -/
theorem lists_singleton (n : UInt64) : Lists (Nat.toDigits 10 n.toNat ++ [',']) [n] := by
  have hlone := lists_of_printed (List.cons_ne_nil _ []) (.cons (isPrinted_toDigits n) .nil)
    (.inr rfl)
  rwa [List.singleton_append, List.intercalate_cons_cons, List.intercalate_singleton,
    List.append_nil] at hlone

/-! ### Shapes that are printed -/

/-- **The characters of a shape** spell it. -/
theorem spells_characters {shape : Shape} (h : shape ≠ .dims []) :
    Spells shape.characters shape := by
  match shape, h with
  | .scalar n, _ =>
    have hpair : ∀ body, ¬ Encloses (Nat.toDigits 10 n.toNat) body := by
      rintro body (hpair | hpair)
      · exact not_mem_toDigits (by decide) (hpair ▸ List.mem_cons_self : '(' ∈ _)
      · exact not_mem_toDigits (by decide) (hpair ▸ List.mem_cons_self : '[' ∈ _)
    exact .scalar hpair (not_mem_toDigits (by decide)) (not_mem_toDigits (by decide))
      (numeral_toDigits n)
  | .dims [], h => exact absurd rfl h
  | .dims [n], _ =>
    refine .enclosed (.inl ?_) (lists_singleton n)
    show '(' :: (Nat.toDigits 10 n.toNat ++ [',', ')']) = _
    rw [List.append_assoc]
    rfl
  | .dims (n :: m :: extents), _ => exact .enclosed (.inl rfl) (lists_intercalate n (m :: extents))

/-- The text of a shape has no blank ends. -/
theorem trim_characters (shape : Shape) : trim shape.characters = shape.characters := by
  match shape with
  | .scalar n => exact trim_blanks_append_toDigits (List.forall_mem_nil _) n
  | .dims [] => rfl
  | .dims [n] =>
    have hbody : (dims [n]).characters = '(' :: (Nat.toDigits 10 n.toNat ++ [','] ++ [')']) := by
      rw [List.append_assoc]
      rfl
    rw [hbody]
    exact trim_eq_self '(' _ ')' (by decide) (by decide)
  | .dims (n :: m :: extents) => exact trim_eq_self '(' _ ')' (by decide) (by decide)

theorem parse_text {shape : Shape} (h : shape ≠ .dims []) : parse shape.text = .ok shape := by
  rw [parse_eq_ok_iff, text, String.toList_ofList, trim_characters]
  exact spells_characters h

/-- The text of the shape without extents is refused. -/
theorem parse_text_dims_nil : parse (dims []).text = .error (.notADimension "" "()") := by
  rfl

/-- Different shapes have different texts. -/
theorem text_injective : Function.Injective text := by
  intro shape shape' h
  have hread : parse shape.text = parse shape'.text := by rw [h]
  by_cases hnil : shape = .dims [] <;> by_cases hnil' : shape' = .dims []
  · rw [hnil, hnil']
  · rw [hnil, parse_text_dims_nil, parse_text hnil'] at hread
    cases hread
  · rw [hnil', parse_text_dims_nil, parse_text hnil] at hread
    cases hread
  · rw [parse_text hnil, parse_text hnil'] at hread
    exact Except.ok.inj hread

/-- **Shapes printed and read back.** A shape is read back from its text iff it has an extent or is
scalar, and so is every shape that is read from any text. Different shapes have different texts, so
that a scalar shape and the list of its extent stay apart. -/
theorem text_roundTrip :
    (∀ shape : Shape, parse shape.text = .ok shape ↔ shape ≠ .dims []) ∧
      (∀ whole shape, parse whole = .ok shape → parse shape.text = .ok shape) ∧
      Function.Injective text := by
  refine ⟨fun shape => ⟨?_, parse_text⟩, fun whole shape h => parse_text ?_, text_injective⟩
  · rintro h rfl
    exact parse_ne_dims_nil _ h
  · rintro rfl
    exact parse_ne_dims_nil whole h

end ComputeGraph.Shape
