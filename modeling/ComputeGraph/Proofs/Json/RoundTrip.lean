import ComputeGraph.Proofs.Decimal

/-!
# Documents read back from their text

What the printer writes, the reader reads as the same document: numbers with all their digits,
strings through their escapes, and arrays and objects of any nesting, on one line or over several.

* `Json.map` — a document with another spelling of its strings;
* `readSpelling_escape` — a string is read back through its escapes;
* `Style.IsBlank` — a style that puts nothing but blanks between the parts;
* **`readsBack`** — a document is read back wherever its text stands;
* **`read?_render`**, **`read?_compact`** and **`read?_pretty`** — every document is read back.
-/

namespace ComputeGraph.Json

variable {σ τ : Type}

/-! ### Strings of another type -/

mutual

/-- A document with its strings changed. -/
def map (f : σ → τ) : Json σ → Json τ
  | .null => .null
  | .bool value => .bool value
  | .number value => .number value
  | .string value => .string (f value)
  | .array items => .array (mapItems f items)
  | .object members => .object (mapMembers f members)
termination_by structural document => document

/-- Documents with their strings changed. -/
def mapItems (f : σ → τ) : List (Json σ) → List (Json τ)
  | [] => []
  | item :: items => map f item :: mapItems f items
termination_by structural items => items

/-- Members with their keys and strings changed. -/
def mapMembers (f : σ → τ) : List (σ × Json σ) → List (τ × Json τ)
  | [] => []
  | (key, value) :: members => (f key, map f value) :: mapMembers f members
termination_by structural members => members

end

theorem mapItems_eq_map (f : σ → τ) (items : List (Json σ)) :
    mapItems f items = items.map (map f) := by
  induction items with
  | nil => rfl
  | cons item items ih =>
    show map f item :: mapItems f items = _
    rw [ih, List.map_cons]

/-! ### Strings -/

theorem hexValue?_hexDigit (n : Fin 16) : hexValue? (hexDigit n.val) = some n.val := by
  decide +revert

/-- A control character is read back from the four digits of its escape. -/
theorem unitPiece?_hexDigit {c : Char} (hc : c.toNat < 0x20) :
    unitPiece? '0' '0' (hexDigit (c.toNat / 16)) (hexDigit (c.toNat % 16)) = some (.char c) := by
  have hhigh : hexValue? (hexDigit (c.toNat / 16)) = some (c.toNat / 16) :=
    hexValue?_hexDigit ⟨c.toNat / 16, by omega⟩
  have hlow : hexValue? (hexDigit (c.toNat % 16)) = some (c.toNat % 16) :=
    hexValue?_hexDigit ⟨c.toNat % 16, by omega⟩
  have hzero : hexValue? '0' = some 0 := rfl
  have hunit : 0 * 4096 + 0 * 256 + c.toNat / 16 * 16 + c.toNat % 16 = c.toNat := by omega
  have hpiece : Piece.ofUnit c.toNat = .char c := by
    rw [Piece.ofUnit, if_neg (by omega), Char.ofNat_toNat]
  simp only [unitPiece?, hhigh, hlow, hzero, Option.bind_eq_bind, Option.bind_some, Option.pure_def,
    hunit, hpiece]

/-- A character that needs no escape is read as it stands. -/
theorem readSpelling_plain {c : Char} (hquote : c ≠ '"') (hslash : c ≠ '\\')
    (hplain : ¬ c.toNat < 0x20) (s : List Char) :
    readSpelling (c :: s) = (readSpelling s).bind fun p => some (.char c :: p.1, p.2) := by
  rw [readSpelling.eq_def]
  split
  case h_1 heq => cases heq
  case h_2 heq => exact absurd (List.cons.inj heq).1 hquote
  case h_3 heq => exact absurd (List.cons.inj heq).1 hslash
  case h_4 heq => exact absurd (List.cons.inj heq).1 hslash
  case h_5 heq =>
    obtain ⟨rfl, rfl⟩ := List.cons.inj heq
    rw [if_neg (not_or.2 ⟨hslash, hplain⟩)]
    rfl

/-- **A character** is read back from what is written for it. -/
theorem readSpelling_escape_append (c : Char) (s : List Char) :
    readSpelling (escape c ++ s) = (readSpelling s).bind fun p => some (.char c :: p.1, p.2) := by
  unfold escape
  split
  case isTrue hc =>
    subst hc
    rfl
  case isFalse hquote =>
    split
    case isTrue hc =>
      subst hc
      rfl
    case isFalse hslash =>
      -- the letters after a backslash, each for one character
      iterate 5
        split
        · next hc =>
          subst hc
          rfl
      split
      case isTrue hcontrol =>
        show ((unitPiece? '0' '0' (hexDigit (c.toNat / 16)) (hexDigit (c.toNat % 16))).bind
          fun piece => (readSpelling s).bind fun p => some (piece :: p.1, p.2)) = _
        rw [unitPiece?_hexDigit hcontrol]
        rfl
      case isFalse hplain => exact readSpelling_plain hquote hslash hplain s

/-- **A string** is read back through its escapes, up to its closing quote. -/
theorem readSpelling_escape (s rest : List Char) :
    readSpelling (s.flatMap escape ++ '"' :: rest) = some (spell s, rest) := by
  induction s with
  | nil => rfl
  | cons c s ih =>
    rw [List.flatMap_cons, List.append_assoc, readSpelling_escape_append, ih]
    rfl

/-! ### Blanks -/

/-- A text of the blanks that may stand between the parts of a document. -/
def IsSpaces (s : List Char) : Prop :=
  ∀ c ∈ s, isSpace c = true

theorem skipSpace_append {front : List Char} (hfront : IsSpaces front) (s : List Char) :
    skipSpace (front ++ s) = skipSpace s :=
  List.dropWhile_append_of_pos hfront

theorem skipSpace_cons {c : Char} (hc : isSpace c = false) (s : List Char) :
    skipSpace (c :: s) = c :: s := by
  refine List.dropWhile_cons_of_neg ?_
  rw [hc]
  exact Bool.false_ne_true

theorem EndsNumber.spaces_append {front rest : List Char} (hfront : IsSpaces front)
    (hrest : EndsNumber rest) : EndsNumber (front ++ rest) := by
  cases front with
  | nil => exact hrest
  | cons c front =>
    have hc : c = ' ' ∨ c = '\n' ∨ c = '\t' ∨ c = '\r' := by
      simpa only [isSpace, Bool.or_eq_true, decide_eq_true_eq, or_assoc] using
        hfront c List.mem_cons_self
    obtain rfl | rfl | rfl | rfl := hc
    all_goals exact .cons rfl (by decide) ⟨by decide, by decide⟩ _

/-- Blanks before a document do not count. -/
theorem readValue_spaces_append {front : List Char} (hfront : IsSpaces front) (bound : Nat)
    (s : List Char) : readValue bound (front ++ s) = readValue bound s := by
  cases bound with
  | zero => rfl
  | succ bound => simp only [readValue, skipSpace_append hfront]

/-- A style that puts nothing but blanks between the parts of a document. -/
structure Style.IsBlank (style : Style) : Prop where
  lineBreak : ∀ level, IsSpaces (style.lineBreak level)
  colon : ∃ blanks, style.colon = ':' :: blanks ∧ IsSpaces blanks

theorem Style.isBlank_compact : Style.compact.IsBlank where
  lineBreak _ := List.forall_mem_nil _
  colon := ⟨[], rfl, List.forall_mem_nil _⟩

theorem Style.isBlank_pretty : Style.pretty.IsBlank where
  lineBreak level := by
    intro c hc
    obtain rfl | hspaces := List.mem_cons.1 hc
    · rfl
    · obtain rfl := (List.mem_replicate.1 hspaces).2
      rfl
  colon := ⟨[' '], rfl, fun c hc => by obtain rfl := List.mem_singleton.1 hc; rfl⟩

/-! ### One step of the reader -/

/-- A text that begins with neither a blank nor a closing bracket. -/
def Opens (s : List Char) : Prop :=
  ∃ c t, s = c :: t ∧ isSpace c = false ∧ c ≠ ']' ∧ c ≠ '\x7d'

theorem Opens.append {s : List Char} (h : Opens s) (t : List Char) : Opens (s ++ t) := by
  obtain ⟨c, rest, rfl, hc⟩ := h
  exact ⟨c, rest ++ t, rfl, hc⟩

theorem Opens.skipSpace_eq {s : List Char} (h : Opens s) : skipSpace s = s := by
  obtain ⟨c, t, rfl, hc, -⟩ := h
  exact skipSpace_cons hc t

theorem Opens.length_pos {s : List Char} (h : Opens s) : 0 < s.length := by
  obtain ⟨c, t, rfl, -⟩ := h
  exact Nat.succ_pos _

theorem quoted_append (s rest : List Char) :
    quoted s ++ rest = '"' :: (s.flatMap escape ++ '"' :: rest) := by
  simp only [quoted, List.cons_append, List.append_assoc, List.nil_append]

theorem ne_of_beginsNumber {c d : Char} (hc : c.isDigit = true ∨ c = '-')
    (hdigit : d.isDigit = false) (hminus : d ≠ '-') : c ≠ d := by
  rintro rfl
  exact hc.elim (fun h => Bool.false_ne_true (hdigit.symm.trans h)) hminus

theorem isSpace_of_beginsNumber {c : Char} (hc : c.isDigit = true ∨ c = '-') :
    isSpace c = false := by
  simp only [isSpace, Bool.or_eq_false_iff, decide_eq_false_iff_not]
  refine ⟨⟨⟨?_, ?_⟩, ?_⟩, ?_⟩
  all_goals exact ne_of_beginsNumber hc rfl (by decide)

section Steps

variable {bound : Nat} {s t u rest : List Char}

theorem readValue_number {c : Char} (hc : c.isDigit = true ∨ c = '-') :
    readValue (bound + 1) (c :: s) =
      (readNumber (c :: s)).bind fun p => some (.number p.1, p.2) := by
  rw [readValue, skipSpace_cons (isSpace_of_beginsNumber hc)]
  split
  case h_7 => rfl
  all_goals
    rename_i heq
    exact absurd (List.cons.inj heq).1 (ne_of_beginsNumber hc rfl (by decide))

theorem readValue_quoted (text : List Char) :
    readValue (bound + 1) (quoted text ++ rest) = some (.string (spell text), rest) := by
  rw [quoted_append, readValue, skipSpace_cons (by decide)]
  simp only [readSpelling_escape, Option.bind_eq_bind, Option.bind_some, Option.pure_def]

theorem readValue_array_nil (h : skipSpace s = ']' :: rest) :
    readValue (bound + 1) ('[' :: s) = some (.array [], rest) := by
  rw [readValue, skipSpace_cons (by decide)]
  simp only [h]

theorem readValue_array (h : Opens (skipSpace s)) :
    readValue (bound + 1) ('[' :: s) =
      (readItems bound s).bind fun p => some (.array p.1, p.2) := by
  obtain ⟨c, t, hs, -, hc, -⟩ := h
  rw [readValue, skipSpace_cons (by decide)]
  simp only [hs]
  split
  · next heq => exact absurd (List.cons.inj heq).1 hc
  · rfl

theorem readValue_object_nil (h : skipSpace s = '\x7d' :: rest) :
    readValue (bound + 1) ('\x7b' :: s) = some (.object [], rest) := by
  rw [readValue, skipSpace_cons (by decide)]
  simp only [h]

theorem readValue_object (h : Opens (skipSpace s)) :
    readValue (bound + 1) ('\x7b' :: s) =
      (readMembers bound s).bind fun p => some (.object p.1, p.2) := by
  obtain ⟨c, t, hs, -, -, hc⟩ := h
  rw [readValue, skipSpace_cons (by decide)]
  simp only [hs]
  split
  · next heq => exact absurd (List.cons.inj heq).1 hc
  · rfl

variable {value : Json Spelling}

theorem readItems_last (hvalue : readValue bound s = some (value, t))
    (ht : skipSpace t = ']' :: rest) : readItems (bound + 1) s = some ([value], rest) := by
  simp only [readItems, hvalue, ht, Option.bind_eq_bind, Option.bind_some, Option.pure_def]

theorem readItems_cons {items : List (Json Spelling)}
    (hvalue : readValue bound s = some (value, t)) (ht : skipSpace t = ',' :: u)
    (hitems : readItems bound u = some (items, rest)) :
    readItems (bound + 1) s = some (value :: items, rest) := by
  simp only [readItems, hvalue, ht, hitems, Option.bind_eq_bind, Option.bind_some, Option.pure_def]

variable {key : List Char} {v : List Char}

theorem readMembers_last (hkey : skipSpace s = quoted key ++ ':' :: v)
    (hvalue : readValue bound v = some (value, t)) (ht : skipSpace t = '\x7d' :: rest) :
    readMembers (bound + 1) s = some ([(spell key, value)], rest) := by
  rw [quoted_append] at hkey
  have hcolon : skipSpace (':' :: v) = ':' :: v := skipSpace_cons (by decide) v
  simp only [readMembers, hkey, readSpelling_escape, hcolon, hvalue, ht, Option.bind_eq_bind,
    Option.bind_some, Option.pure_def]

theorem readMembers_cons {members : List (Spelling × Json Spelling)}
    (hkey : skipSpace s = quoted key ++ ':' :: v) (hvalue : readValue bound v = some (value, t))
    (ht : skipSpace t = ',' :: u) (hmembers : readMembers bound u = some (members, rest)) :
    readMembers (bound + 1) s = some ((spell key, value) :: members, rest) := by
  rw [quoted_append] at hkey
  have hcolon : skipSpace (':' :: v) = ':' :: v := skipSpace_cons (by decide) v
  simp only [readMembers, hkey, readSpelling_escape, hcolon, hvalue, ht, hmembers,
    Option.bind_eq_bind, Option.bind_some, Option.pure_def]

end Steps

/-! ### The text of a document -/

section Texts

variable (style : Style) (level : Nat)

theorem render_array_append (items : List (Json (List Char))) (rest : List Char) :
    render style level (.array items) ++ rest =
      '[' :: (renderItems style level true items ++ ']' :: rest) := by
  show '[' :: (renderItems style level true items ++ [']'] ++ rest) = _
  rw [List.append_assoc]
  rfl

theorem render_object_append (members : List (List Char × Json (List Char))) (rest : List Char) :
    render style level (.object members) ++ rest =
      '\x7b' :: (renderMembers style level true members ++ '\x7d' :: rest) := by
  show '\x7b' :: (renderMembers style level true members ++ ['\x7d'] ++ rest) = _
  rw [List.append_assoc]
  rfl

theorem length_render_array (items : List (Json (List Char))) :
    (render style level (.array items)).length =
      (renderItems style level true items).length + 2 := by
  rw [← List.append_nil (render style level (.array items)), render_array_append,
    List.length_cons, List.length_append, List.length_singleton]

theorem length_render_object (members : List (List Char × Json (List Char))) :
    (render style level (.object members)).length =
      (renderMembers style level true members).length + 2 := by
  rw [← List.append_nil (render style level (.object members)), render_object_append,
    List.length_cons, List.length_append, List.length_singleton]

theorem renderItems_true_cons (item : Json (List Char)) (items : List (Json (List Char))) :
    renderItems style level true (item :: items) =
      style.lineBreak (level + 1) ++
        (render style (level + 1) item ++ renderItems style level false items) := by
  show [] ++ style.lineBreak (level + 1) ++ render style (level + 1) item ++
    renderItems style level false items = _
  rw [List.nil_append, List.append_assoc]

theorem renderItems_false_cons (item : Json (List Char)) (items : List (Json (List Char))) :
    renderItems style level false (item :: items) =
      ',' :: renderItems style level true (item :: items) :=
  rfl

theorem renderMembers_true_cons (key : List Char) (value : Json (List Char))
    (members : List (List Char × Json (List Char))) :
    renderMembers style level true ((key, value) :: members) =
      style.lineBreak (level + 1) ++ (quoted key ++ (style.colon ++
        (render style (level + 1) value ++ renderMembers style level false members))) := by
  show [] ++ style.lineBreak (level + 1) ++ quoted key ++ style.colon ++
    render style (level + 1) value ++ renderMembers style level false members = _
  simp only [List.nil_append, List.append_assoc]

theorem renderMembers_false_cons (member : List Char × Json (List Char))
    (members : List (List Char × Json (List Char))) :
    renderMembers style level false (member :: members) =
      ',' :: renderMembers style level true (member :: members) :=
  rfl

theorem Number.exists_text_eq_cons (n : Number) :
    ∃ c s, n.text = c :: s ∧ (c.isDigit = true ∨ c = '-') := by
  obtain ⟨⟨negative, whole, fraction⟩, exponent⟩ := n
  cases negative with
  | true => exact ⟨'-', _, rfl, .inr rfl⟩
  | false =>
    obtain ⟨c, digits, hdigits⟩ :=
      List.exists_cons_of_ne_nil (@Nat.toDigits_ne_nil whole 10)
    have hc : c.isDigit = true :=
      Nat.isDigit_of_mem_toDigits (by decide) (by decide) (hdigits ▸ List.mem_cons_self)
    refine ⟨c, digits ++ Decimal.fractionText fraction ++ exponentText exponent, ?_, .inl hc⟩
    show Nat.toDigits 10 whole ++ _ ++ _ = _
    rw [hdigits]
    rfl

theorem opens_render (document : Json (List Char)) : Opens (render style level document) := by
  cases document with
  | null => exact ⟨'n', _, rfl, by decide⟩
  | bool value =>
    cases value with
    | true => exact ⟨'t', _, rfl, by decide⟩
    | false => exact ⟨'f', _, rfl, by decide⟩
  | number n =>
    obtain ⟨c, s, htext, hc⟩ := n.exists_text_eq_cons
    exact ⟨c, s, htext, isSpace_of_beginsNumber hc, ne_of_beginsNumber hc rfl (by decide),
      ne_of_beginsNumber hc rfl (by decide)⟩
  | string text => exact ⟨'"', _, rfl, by decide⟩
  | array items => exact ⟨'[', _, rfl, by decide⟩
  | object members => exact ⟨'\x7b', _, rfl, by decide⟩

end Texts

/-! ### Reading back -/

/-- Proves a property of every document from the parts of each. -/
theorem induct {P : Json σ → Prop} (null : P .null) (bool : ∀ value, P (.bool value))
    (number : ∀ n, P (.number n)) (string : ∀ text, P (.string text))
    (array : ∀ items, (∀ item ∈ items, P item) → P (.array items))
    (object : ∀ members, (∀ member ∈ members, P member.2) → P (.object members))
    (document : Json σ) : P document :=
  @Json.rec σ P (fun items => ∀ item ∈ items, P item)
    (fun members => ∀ member ∈ members, P member.2) (fun member => P member.2)
    null bool number string array object (List.forall_mem_nil _)
    (fun _ _ hitem hitems => List.forall_mem_cons.2 ⟨hitem, hitems⟩) (List.forall_mem_nil _)
    (fun _ _ hmember hmembers => List.forall_mem_cons.2 ⟨hmember, hmembers⟩)
    (fun _ _ hvalue => hvalue) document

/-- A document that is read back from its text at any level, whatever follows that cannot go on
with it. Each character may cost two nested calls. -/
def ReadsBack (style : Style) (document : Json (List Char)) : Prop :=
  ∀ level bound rest, 2 * (render style level document).length ≤ bound → EndsNumber rest →
    readValue bound (render style level document ++ rest) = some (document.map spell, rest)

variable {style : Style}

theorem endsNumber_renderItems (hstyle : style.IsBlank) (level : Nat)
    (items : List (Json (List Char))) (rest : List Char) :
    EndsNumber (renderItems style level false items ++ ']' :: rest) := by
  cases items with
  | nil =>
    exact .spaces_append (hstyle.lineBreak level) (.cons rfl (by decide) ⟨by decide, by decide⟩ _)
  | cons item items => exact .cons rfl (by decide) ⟨by decide, by decide⟩ _

theorem endsNumber_renderMembers (hstyle : style.IsBlank) (level : Nat)
    (members : List (List Char × Json (List Char))) (rest : List Char) :
    EndsNumber (renderMembers style level false members ++ '\x7d' :: rest) := by
  cases members with
  | nil =>
    exact .spaces_append (hstyle.lineBreak level) (.cons rfl (by decide) ⟨by decide, by decide⟩ _)
  | cons item items => exact .cons rfl (by decide) ⟨by decide, by decide⟩ _

theorem readItems_render (hstyle : style.IsBlank) (level : Nat) (rest : List Char)
    {items : List (Json (List Char))} (hne : items ≠ [])
    (hitems : ∀ item ∈ items, ReadsBack style item) :
    ∀ bound, 2 * (renderItems style level true items).length < bound →
      readItems bound (renderItems style level true items ++ ']' :: rest) =
        some (items.map (map spell), rest) := by
  induction items with
  | nil => exact absurd rfl hne
  | cons item items ih =>
    obtain ⟨hitem, hitems⟩ := List.forall_mem_cons.1 hitems
    rw [renderItems_true_cons]
    rintro (_ | bound) hbound
    · cases hbound
    simp only [List.length_append] at hbound
    have hvalue : readValue bound (style.lineBreak (level + 1) ++
        (render style (level + 1) item ++ renderItems style level false items) ++ ']' :: rest) =
        some (item.map spell, renderItems style level false items ++ ']' :: rest) := by
      rw [List.append_assoc, readValue_spaces_append (hstyle.lineBreak _), List.append_assoc]
      exact hitem _ _ _ (by omega) (endsNumber_renderItems hstyle level items rest)
    cases items with
    | nil =>
      have hclose : skipSpace (style.lineBreak level ++ ']' :: rest) = ']' :: rest := by
        rw [skipSpace_append (hstyle.lineBreak level), skipSpace_cons (by decide)]
      exact readItems_last hvalue hclose
    | cons next more =>
      have hpos := (opens_render style (level + 1) item).length_pos
      rw [renderItems_false_cons] at hvalue hbound ⊢
      refine readItems_cons hvalue (skipSpace_cons (by decide) _) ?_
      refine ih (List.cons_ne_nil _ _) hitems bound ?_
      rw [List.length_cons] at hbound
      omega

theorem readMembers_render (hstyle : style.IsBlank) (level : Nat) (rest : List Char)
    {members : List (List Char × Json (List Char))} (hne : members ≠ [])
    (hmembers : ∀ member ∈ members, ReadsBack style member.2) :
    ∀ bound, 2 * (renderMembers style level true members).length < bound →
      readMembers bound (renderMembers style level true members ++ '\x7d' :: rest) =
        some (mapMembers spell members, rest) := by
  obtain ⟨blanks, hcolon, hblanks⟩ := hstyle.colon
  induction members with
  | nil => exact absurd rfl hne
  | cons member members ih =>
    obtain ⟨key, value⟩ := member
    obtain ⟨hmember, hmembers⟩ := List.forall_mem_cons.1 hmembers
    have hreads : ReadsBack style value := hmember
    rw [renderMembers_true_cons, hcolon]
    rintro (_ | bound) hbound
    · cases hbound
    simp only [List.length_append, List.length_cons] at hbound
    -- the key stands first after the blanks, and the value after the colon and its blanks
    have hkey : skipSpace (style.lineBreak (level + 1) ++ (quoted key ++ (':' :: blanks ++
        (render style (level + 1) value ++ renderMembers style level false members))) ++
          '\x7d' :: rest) =
        quoted key ++ ':' :: (blanks ++ (render style (level + 1) value ++
          (renderMembers style level false members ++ '\x7d' :: rest))) := by
      rw [List.append_assoc, skipSpace_append (hstyle.lineBreak _), quoted_append, List.cons_append,
        skipSpace_cons (by decide), quoted_append]
      simp only [List.append_assoc, List.cons_append]
    have hvalue : readValue bound (blanks ++ (render style (level + 1) value ++
        (renderMembers style level false members ++ '\x7d' :: rest))) =
        some (value.map spell, renderMembers style level false members ++ '\x7d' :: rest) := by
      rw [readValue_spaces_append hblanks]
      exact hreads _ _ _ (by omega) (endsNumber_renderMembers hstyle level members rest)
    cases members with
    | nil =>
      have hclose : skipSpace (style.lineBreak level ++ '\x7d' :: rest) = '\x7d' :: rest := by
        rw [skipSpace_append (hstyle.lineBreak level), skipSpace_cons (by decide)]
      exact readMembers_last hkey hvalue hclose
    | cons next more =>
      have hpos := (opens_render style (level + 1) value).length_pos
      rw [renderMembers_false_cons] at hkey hvalue hbound ⊢
      refine readMembers_cons hkey hvalue (skipSpace_cons (by decide) _) ?_
      refine ih (List.cons_ne_nil _ _) hmembers bound ?_
      rw [List.length_cons] at hbound
      omega

/-- What stands between the brackets opens with an item. -/
theorem opens_renderItems (hstyle : style.IsBlank) (level : Nat) {items : List (Json (List Char))}
    (hne : items ≠ []) (rest : List Char) :
    Opens (skipSpace (renderItems style level true items ++ rest)) := by
  obtain ⟨item, items, rfl⟩ := List.exists_cons_of_ne_nil hne
  rw [renderItems_true_cons, List.append_assoc, skipSpace_append (hstyle.lineBreak _),
    List.append_assoc]
  have hopens := (opens_render style (level + 1) item).append
    (renderItems style level false items ++ rest)
  rwa [hopens.skipSpace_eq]

/-- What stands between the braces opens with a quote. -/
theorem opens_renderMembers (hstyle : style.IsBlank) (level : Nat)
    {members : List (List Char × Json (List Char))} (hne : members ≠ []) (rest : List Char) :
    Opens (skipSpace (renderMembers style level true members ++ rest)) := by
  obtain ⟨⟨key, value⟩, members, rfl⟩ := List.exists_cons_of_ne_nil hne
  rw [renderMembers_true_cons, List.append_assoc, skipSpace_append (hstyle.lineBreak _),
    List.append_assoc, quoted_append, skipSpace_cons (by decide)]
  exact ⟨'"', _, rfl, by decide⟩

theorem readsBack (hstyle : style.IsBlank) (document : Json (List Char)) :
    ReadsBack style document := by
  induction document using induct with
  | null =>
    rintro level (_ | bound) rest hbound hrest
    · cases hbound
    · rfl
  | bool value =>
    rintro level (_ | bound) rest hbound hrest
    · cases value <;> cases hbound
    · cases value <;> rfl
  | number n =>
    rintro level (_ | bound) rest hbound hrest
    · have hpos := (opens_render style level (.number n)).length_pos
      omega
    obtain ⟨c, s, htext, hc⟩ := n.exists_text_eq_cons
    show readValue (bound + 1) (n.text ++ rest) = some (.number n, rest)
    have hread : readNumber (c :: s ++ rest) = some (n, rest) :=
      htext ▸ readNumber_append n hrest
    rw [htext, List.cons_append, readValue_number hc, ← List.cons_append, hread]
    rfl
  | string text =>
    rintro level (_ | bound) rest hbound hrest
    · cases hbound
    · exact readValue_quoted text
  | array items ih =>
    rintro level (_ | bound) rest hbound hrest
    · cases hbound
    rw [length_render_array] at hbound
    rw [render_array_append, map, mapItems_eq_map]
    by_cases hne : items = []
    · subst hne
      exact readValue_array_nil (skipSpace_cons (by decide) _)
    · rw [readValue_array (opens_renderItems hstyle level hne _),
        readItems_render hstyle level rest hne ih bound (by omega)]
      rfl
  | object members ih =>
    rintro level (_ | bound) rest hbound hrest
    · cases hbound
    rw [length_render_object] at hbound
    rw [render_object_append, map]
    by_cases hne : members = []
    · subst hne
      exact readValue_object_nil (skipSpace_cons (by decide) _)
    · rw [readValue_object (opens_renderMembers hstyle level hne _),
        readMembers_render hstyle level rest hne ih bound (by omega)]
      rfl

/-- **A document printed** in a style with blanks only is read back. -/
theorem read?_render (hstyle : style.IsBlank) (level : Nat) (document : Json (List Char)) :
    read? (String.ofList (render style level document)) = some (document.map spell) := by
  have hread := readsBack hstyle document level
    (2 * (render style level document).length + 2) [] (by omega) .nil
  rw [List.append_nil] at hread
  simp only [read?, String.toList_ofList, hread, Option.bind_eq_bind, Option.bind_some]
  rfl

/-- **Every document** is read back from its text on one line. -/
theorem read?_compact (document : Json (List Char)) :
    read? document.compact = some (document.map spell) :=
  read?_render Style.isBlank_compact 0 document

/-- **Every document** is read back from its text over several lines. -/
theorem read?_pretty (document : Json (List Char)) :
    read? document.pretty = some (document.map spell) :=
  read?_render Style.isBlank_pretty 0 document

end ComputeGraph.Json
