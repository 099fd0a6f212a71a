import ComputeGraph.Proofs.Json.RoundTrip
import ComputeGraph.Proofs.Outcome
import ComputeGraph.Shape.Json

/-!
# Which JSON values are shapes

A shape in JSON is a literal of a machine word or an array of such literals. Whether a document is
one can be told from its literals: a number that its value holds as a double was written with a
sign, a point or an exponent or is out of range, and is no extent in either form.

* `Json.Number.IsWord` — a literal of a machine word;
* `Json.Describes` — the documents that describe a shape;
* `ofJson?_eq_some_iff` — they are the ones that are accepted;
* `bind_ofJson?` — the value of a document describes what the document describes;
* `parseJson_eq_ok_iff` — the texts that are accepted;
* **`json_roundTrip`** — a shape is read back from its JSON text, and nothing else is accepted.
-/

namespace ComputeGraph

variable {σ : Type}

/-! ### Literals of machine words -/

namespace Json

/-- The literal is that of a machine word: digits of its value, no sign, point or exponent. -/
structure Number.IsWord (n : Number) (w : UInt64) : Prop where
  unsigned : n.decimal.negative = false
  whole : n.decimal.whole = w.toNat
  fraction : n.decimal.fraction = []
  exponent : n.exponent = none

theorem Number.word?_eq_some_iff {n : Number} {w : UInt64} : n.word? = some w ↔ n.IsWord w := by
  unfold Number.word?
  constructor
  · intro h
    split at h
    case isTrue hword =>
      obtain ⟨hsign, hfraction, hexponent, hwhole⟩ := hword
      refine ⟨hsign, ?_, hfraction, hexponent⟩
      rw [← Option.some.inj h, UInt64.toNat_ofNat_of_lt' hwhole]
    case isFalse => cases h
  · intro h
    rw [if_pos ⟨h.unsigned, h.fraction, h.exponent, h.whole ▸ w.toNat_lt⟩, h.whole,
      UInt64.ofNat_toNat]

theorem Number.isWord_ofNat (w : UInt64) : (Number.ofNat w.toNat).IsWord w :=
  ⟨rfl, rfl, rfl, rfl⟩

theorem Number.word?_eq_none {n : Number} (h : n.decimal.fraction ≠ [] ∨ n.exponent ≠ none) :
    n.word? = none := by
  cases hword : n.word? with
  | none => rfl
  | some w =>
    have hliteral := Number.word?_eq_some_iff.1 hword
    obtain hfraction | hexponent := h
    · exact absurd hliteral.fraction hfraction
    · exact absurd hliteral.exponent hexponent

theorem fraction_ofScaled_ne_nil (negative : Bool) {places : Nat} (hplaces : places ≠ 0)
    (n : Nat) : (Decimal.ofScaled negative places n).fraction ≠ [] := by
  intro h
  have hlength := length_lastDigits places n
  rw [show lastDigits places n = [] from h] at hlength
  exact hplaces hlength.symm

/-- The literal of a double is no literal of a word: it has a point or an exponent. -/
theorem Number.word?_ofDouble (x : Float) : (Number.ofDouble x).word? = none := by
  unfold Number.ofDouble
  split
  case isTrue => exact word?_eq_none (.inl (fraction_ofScaled_ne_nil _ Nat.one_ne_zero _))
  case isFalse =>
    dsimp only
    unfold Number.ofShortest
    split
    case isTrue => exact word?_eq_none (.inr (Option.some_ne_none _))
    case isFalse =>
      split
      case isTrue => exact word?_eq_none (.inl (fraction_ofScaled_ne_nil _ Nat.one_ne_zero _))
      case isFalse hneg =>
        exact word?_eq_none (.inl (fraction_ofScaled_ne_nil _ (by omega) _))

/-- A number in range stays the literal it is, and another becomes a double. -/
theorem Number.value?_cases (n : Number) :
    n.value? = some n ∨ (∀ w, ¬ n.IsWord w) ∧ n.value? = n.toDouble?.map .ofDouble := by
  unfold Number.value?
  by_cases h : n.decimal.fraction = [] ∧ n.exponent = none ∧
      (if n.decimal.negative then 0 < n.decimal.whole ∧ n.decimal.whole ≤ Nat.pow 2 63
        else n.decimal.whole < UInt64.size)
  · exact .inl (if_pos h)
  · refine .inr ⟨fun w hw => h ⟨hw.fraction, hw.exponent, ?_⟩, if_neg h⟩
    rw [hw.unsigned, if_neg Bool.false_ne_true, hw.whole]
    exact w.toNat_lt

/-- The value of a number is an extent if the literal is one. -/
theorem Number.bind_word? (n : Number) : n.value?.bind Number.word? = n.word? := by
  obtain hvalue | ⟨hnot, hvalue⟩ := n.value?_cases
  · rw [hvalue, Option.bind_some]
  · have hword : n.word? = none :=
      Option.eq_none_iff_forall_ne_some.2 fun w hw => hnot w (Number.word?_eq_some_iff.1 hw)
    rw [hvalue, hword]
    cases n.toDouble? with
    | none => rfl
    | some x => exact Number.word?_ofDouble x

/-! ### Documents of shapes -/

/-- The value is the literal of an extent. -/
def IsExtent (value : Json σ) (w : UInt64) : Prop :=
  ∃ n, value = .number n ∧ n.IsWord w

/-- The value is the literal of a scalar shape, or an array of the literals of the extents in
order. -/
inductive Describes : Json σ → Shape → Prop
  | scalar {value : Json σ} {w : UInt64} (h : value.IsExtent w) : Describes value (.scalar w)
  | dims {items : List (Json σ)} {extents : Extents} (h : List.Forall₂ IsExtent items extents) :
      Describes (.array items) (.dims extents)

end Json

namespace Shape

open Json

theorem extentOfJson?_eq_some_iff {value : Json σ} {w : UInt64} :
    extentOfJson? value = some w ↔ value.IsExtent w := by
  constructor
  · intro h
    cases value with
    | number n => exact ⟨n, rfl, Number.word?_eq_some_iff.1 h⟩
    | _ => cases h
  · rintro ⟨n, rfl, hn⟩
    exact Number.word?_eq_some_iff.2 hn

/-- **A value is accepted** if it describes a shape, and then as that shape. -/
theorem ofJson?_eq_some_iff {value : Json σ} {shape : Shape} :
    ofJson? value = some shape ↔ value.Describes shape := by
  constructor
  · intro h
    cases value with
    | number n =>
      obtain ⟨w, hw, rfl⟩ := Option.map_eq_some_iff.1 h
      exact .scalar ⟨n, rfl, Number.word?_eq_some_iff.1 hw⟩
    | array items =>
      obtain ⟨extents, hextents, rfl⟩ := Option.map_eq_some_iff.1 h
      exact .dims ((mapM_eq_some.1 hextents).imp fun _ _ => extentOfJson?_eq_some_iff.1)
    | _ => cases h
  · intro h
    cases h with
    | scalar h =>
      obtain ⟨n, rfl, hn⟩ := h
      exact Option.map_eq_some_iff.2 ⟨_, Number.word?_eq_some_iff.2 hn, rfl⟩
    | dims h =>
      exact Option.map_eq_some_iff.2
        ⟨_, mapM_eq_some.2 (h.imp fun _ _ => extentOfJson?_eq_some_iff.2), rfl⟩

theorem ofJson?_eq_none_iff {value : Json σ} :
    ofJson? value = none ↔ ∀ shape, ¬ value.Describes shape := by
  simp only [Option.eq_none_iff_forall_ne_some, ne_eq, ofJson?_eq_some_iff]

/-- An extent that is out of range is none, and then the array is no shape. -/
example : ofJson? (.array [.ofNat 2, .ofNat UInt64.size] : Json (List Char)) = none := by rfl

/-! ### The value of a document -/

theorem itemValues?_eq_mapM (items : List (Json Spelling)) :
    itemValues? items = items.mapM anyValue? := by
  induction items with
  | nil => rfl
  | cons item items ih =>
    rw [List.mapM_cons, ← ih]
    rfl

theorem bind_extentOfJson? (document : Json Spelling) :
    (anyValue? document).bind extentOfJson? = extentOfJson? document := by
  cases document with
  | null => rfl
  | bool value => rfl
  | number n =>
    show (n.value?.map Json.number).bind extentOfJson? = n.word?
    rw [Option.bind_map]
    exact n.bind_word?
  | string pieces =>
    show ((spelledText? pieces).map Json.string).bind extentOfJson? = none
    cases spelledText? pieces <;> rfl
  | array items =>
    show ((itemValues? items).map Json.array).bind extentOfJson? = none
    cases itemValues? items <;> rfl
  | object members =>
    show ((memberValues? [] members).map Json.object).bind extentOfJson? = none
    cases memberValues? [] members <;> rfl

theorem anyValue?_bind_ofJson? (document : Json Spelling) :
    (anyValue? document).bind ofJson? = ofJson? document := by
  cases document with
  | null => rfl
  | bool value => rfl
  | number n =>
    show (n.value?.map Json.number).bind ofJson? = n.word?.map .scalar
    rw [Option.bind_map, ← n.bind_word?, Option.map_bind]
    rfl
  | string pieces =>
    show ((spelledText? pieces).map Json.string).bind ofJson? = none
    cases spelledText? pieces <;> rfl
  | array items =>
    show ((itemValues? items).map Json.array).bind ofJson? = (items.mapM extentOfJson?).map .dims
    have hitems : items.mapM extentOfJson? =
        (itemValues? items).bind fun values => values.mapM extentOfJson? := by
      rw [itemValues?_eq_mapM, mapM_bind_mapM]
      exact congrArg (items.mapM ·) (funext fun item => (bind_extentOfJson? item).symm)
    rw [Option.bind_map, hitems, Option.map_bind]
    rfl
  | object members =>
    show ((memberValues? [] members).map Json.object).bind ofJson? = none
    cases memberValues? [] members <;> rfl

/-- An array of literals is far from the limit of nesting. -/
theorem depth_lt_of_describes {document : Json σ} {shape : Shape} (h : document.Describes shape) :
    depth document < depthLimit := by
  cases h with
  | scalar h =>
    obtain ⟨n, rfl, -⟩ := h
    show 0 < 128
    decide
  | dims h =>
    rename_i items extents
    have hitems : depthItems items = 0 := by
      induction h with
      | nil => rfl
      | cons hitem _ ih =>
        obtain ⟨n, rfl, -⟩ := hitem
        show max 0 (depthItems _) = 0
        rw [ih, Nat.max_self]
    show depthItems items + 1 < 128
    omega

/-- **A document describes** what its value describes: one without a value describes nothing. -/
theorem value?_bind_ofJson? (document : Json Spelling) :
    (value? document).bind ofJson? = ofJson? document := by
  unfold value?
  split
  case isTrue => exact anyValue?_bind_ofJson? document
  case isFalse hdeep =>
    symm
    exact ofJson?_eq_none_iff.2 fun shape hshape => hdeep (depth_lt_of_describes hshape)

theorem ofJson?_of_value?_eq_some {document : Json Spelling} {value : Json (List Char)}
    (h : value? document = some value) : ofJson? value = ofJson? document := by
  rw [← value?_bind_ofJson? document, h, Option.bind_some]

/-! ### Reading shapes -/

theorem ofJson_eq_ok_iff {value : Json (List Char)} {shape : Shape} :
    ofJson value = .ok shape ↔ value.Describes shape := by
  rw [← ofJson?_eq_some_iff]
  unfold ofJson
  cases ofJson? value with
  | none => simp
  | some other => simp

/-- A value is refused if it describes no shape, with an error that shows the value. -/
theorem ofJson_eq_error_iff {value : Json (List Char)} {e : Error} :
    ofJson value = .error e ↔ (∀ shape, ¬ value.Describes shape) ∧ e = .notAShape value := by
  rw [← ofJson?_eq_none_iff]
  unfold ofJson
  cases ofJson? value with
  | none => simp [eq_comm]
  | some other => simp

/-- **A text is accepted** if it is a document that describes a shape. -/
theorem parseJson_eq_ok_iff {text : String} {shape : Shape} :
    parseJson text = .ok shape ↔
      ∃ document, read? text = some document ∧ document.Describes shape := by
  have hvalue : parseJson text = .ok shape ↔
      ((read? text).bind value?).bind ofJson? = some shape := by
    unfold parseJson
    cases (read? text).bind value? with
    | none => simp
    | some value => rw [Option.bind_some, ofJson?_eq_some_iff, ofJson_eq_ok_iff]
  rw [hvalue, Option.bind_assoc]
  simp only [value?_bind_ofJson?, Option.bind_eq_some_iff, ofJson?_eq_some_iff]

/-- A shape is described by the document that is written for it. -/
theorem describes_toJson (shape : Shape) : (shape.toJson : Json σ).Describes shape := by
  cases shape with
  | scalar w => exact .scalar ⟨_, rfl, Number.isWord_ofNat w⟩
  | dims extents =>
    refine .dims (List.forall₂_map_left_iff.2 (List.forall₂_same.2 fun w _ => ?_))
    exact ⟨_, rfl, Number.isWord_ofNat w⟩

theorem map_toJson {τ : Type} (f : σ → τ) (shape : Shape) : shape.toJson.map f = shape.toJson := by
  cases shape with
  | scalar w => rfl
  | dims extents =>
    show Json.array (mapItems f (extents.map fun n => .ofNat n.toNat)) = _
    rw [mapItems_eq_map, List.map_map]
    rfl

/-- What a text holds is refused as no shape if it has a value, and its literals are those of no
shape. -/
theorem parseJson_eq_notAShape_iff {text : String} {value : Json (List Char)} :
    parseJson text = .error (.notAShape value) ↔
      ∃ document, read? text = some document ∧ value? document = some value ∧
        ∀ shape, ¬ document.Describes shape := by
  have hparse : parseJson text = .error (.notAShape value) ↔
      (read? text).bind value? = some value ∧ ofJson? value = none := by
    unfold parseJson
    cases (read? text).bind value? with
    | none => simp
    | some other =>
      dsimp only
      rw [ofJson_eq_error_iff, ← ofJson?_eq_none_iff, Error.notAShape.injEq, Option.some.injEq]
      constructor
      · rintro ⟨hnone, rfl⟩
        exact ⟨rfl, hnone⟩
      · rintro ⟨rfl, hnone⟩
        exact ⟨hnone, rfl⟩
  rw [hparse, Option.bind_eq_some_iff]
  simp only [← ofJson?_eq_none_iff]
  constructor
  · rintro ⟨⟨document, hread, hvalue⟩, hnone⟩
    exact ⟨document, hread, hvalue, (ofJson?_of_value?_eq_some hvalue).symm.trans hnone⟩
  · rintro ⟨document, hread, hvalue, hnone⟩
    exact ⟨⟨document, hread, hvalue⟩, (ofJson?_of_value?_eq_some hvalue).trans hnone⟩

/-- **JSON shapes round-trip and nothing else is accepted.** Every shape is read back from its JSON
text. A value is accepted as a shape exactly if it is a literal of a machine word without sign,
point or exponent, or an array of such literals of the extents in order, and is refused as an
invalid shape otherwise. Where the value comes from a text, the literals of the text decide. -/
theorem json_roundTrip :
    (∀ shape : Shape, parseJson shape.toJson.compact = .ok shape) ∧
    (∀ (value : Json (List Char)) (shape : Shape),
      ofJson value = .ok shape ↔ value.Describes shape) ∧
    (∀ value : Json (List Char), ofJson value = .error (.notAShape value) ↔
      ∀ shape, ¬ value.Describes shape) ∧
    (∀ value : Json (List Char), (Error.notAShape value).category = .invalidShape) ∧
    (∀ (text : String) (shape : Shape), parseJson text = .ok shape ↔
      ∃ document, read? text = some document ∧ document.Describes shape) ∧
    ∀ (text : String) (value : Json (List Char)), parseJson text = .error (.notAShape value) ↔
      ∃ document, read? text = some document ∧ value? document = some value ∧
        ∀ shape, ¬ document.Describes shape := by
  refine ⟨fun shape => ?_, fun _ _ => ofJson_eq_ok_iff, fun value => ?_, fun _ => rfl,
    fun _ _ => parseJson_eq_ok_iff, fun _ _ => parseJson_eq_notAShape_iff⟩
  · refine parseJson_eq_ok_iff.2 ⟨shape.toJson, ?_, describes_toJson shape⟩
    rw [read?_compact, map_toJson]
  · rw [ofJson_eq_error_iff, and_iff_left rfl]

end Shape

end ComputeGraph
