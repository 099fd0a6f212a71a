import ComputeGraph.Shape.Text
import ComputeGraph.Proofs.Outcome
import ComputeGraph.Proofs.Text.Numeral
import ComputeGraph.Proofs.Text.Splitting

/-!
# The grammar of shapes

Which texts are shapes, said without the reader. A text without its blank ends is a numeral, or it
lists extents: between an outer pair of parentheses or brackets, or with separators. The extents are
numerals with blanks around them, and a blank token may follow the last separator.

* `Encloses`, `Separates`, `Splits` — outer pairs, separators and tokens;
* `Lists` — the bodies that list extents;
* `Spells` — the texts of shapes;
* **`Shape.readExtents_eq_ok`** — what a body is read as;
* **`Shape.parse_accepts_exactly`** — the reader accepts the texts of shapes and refuses all others
  for a token that is no numeral.
-/

namespace ComputeGraph.Shape

open Text

/-! ### The grammar -/

/-- The text is a body between an outer pair of parentheses or of brackets. -/
def Encloses (s body : List Char) : Prop :=
  s = '(' :: (body ++ [')']) ∨ s = '[' :: (body ++ [']'])

/-- The extents of a body are set apart by the letter where it occurs and no comma does, and by
commas elsewhere. -/
def Separates (body : List Char) (sep : Char) : Prop :=
  ('x' ∈ body ∧ ',' ∉ body ∧ sep = 'x') ∨ (('x' ∉ body ∨ ',' ∈ body) ∧ sep = ',')

/-- The text is its tokens with the separator between them, and none of them holds the separator. -/
def Splits (sep : Char) (body : List Char) (tokens : List (List Char)) : Prop :=
  tokens ≠ [] ∧ (∀ token ∈ tokens, sep ∉ token) ∧ body = [sep].intercalate tokens

/-- The body lists the extents: its tokens are numerals of them once their blank ends are off. One
more token may follow, which is blank. -/
def Lists (body : List Char) (extents : Extents) : Prop :=
  ∃ sep tokens last, Separates body sep ∧ Splits sep body (tokens ++ last) ∧ tokens ≠ [] ∧
    List.Forall₂ (fun token n => Numeral (trim token) n) tokens extents ∧
    (last = [] ∨ ∃ blank, last = [blank] ∧ ∀ c ∈ blank, isBlank c = true)

/-- The text, which has no blank ends, is a text of the shape. -/
inductive Spells (s : List Char) : Shape → Prop
  | scalar {n : UInt64} (hpair : ∀ body, ¬ Encloses s body) (hcomma : ',' ∉ s) (hletter : 'x' ∉ s)
      (h : Numeral s n) : Spells s (.scalar n)
  | enclosed {body : List Char} {extents : Extents} (hpair : Encloses s body)
      (h : Lists body extents) : Spells s (.dims extents)
  | separated {extents : Extents} (hpair : ∀ body, ¬ Encloses s body) (hsep : ',' ∈ s ∨ 'x' ∈ s)
      (h : Lists s extents) : Spells s (.dims extents)

/-! ### Tokens -/

theorem separates_iff {body : List Char} {sep : Char} :
    Separates body sep ↔ sep = separator body := by
  unfold Separates separator
  by_cases hletter : 'x' ∈ body <;> by_cases hcomma : ',' ∈ body <;> simp [hletter, hcomma]

/-- A text splits in one way only. -/
theorem splits_iff {sep : Char} {body : List Char} {tokens : List (List Char)} :
    Splits sep body tokens ↔ body.splitOn sep = tokens := by
  constructor
  · rintro ⟨hne, hnot, rfl⟩
    exact List.splitOn_intercalate sep hnot hne
  · rintro rfl
    exact ⟨List.splitOn_ne_nil sep body, fun _ => not_mem_of_mem_splitOn,
      (List.intercalate_splitOn sep).symm⟩

theorem unbracket?_eq_some_iff {s body : List Char} :
    unbracket? s = some body ↔ Encloses s body := by
  unfold Encloses
  constructor
  · intro h
    unfold unbracket? at h
    split at h
    · rename_i s
      split at h
      · rename_i hlast
        rw [← Option.some.inj h, List.dropLast_append_getLast? _ hlast]
        exact .inl rfl
      · cases h
    · rename_i s
      split at h
      · rename_i hlast
        rw [← Option.some.inj h, List.dropLast_append_getLast? _ hlast]
        exact .inr rfl
      · cases h
    · cases h
  · rintro (rfl | rfl) <;> simp [unbracket?]

theorem unbracket?_eq_none_iff {s : List Char} :
    unbracket? s = none ↔ ∀ body, ¬ Encloses s body := by
  simp only [Option.eq_none_iff_forall_ne_some, ne_eq, unbracket?_eq_some_iff]

/-! ### Extents -/

theorem readExtent_eq_ok {whole : String} {token : List Char} {n : UInt64} :
    readExtent whole token = .ok n ↔ Numeral (trim token) n := by
  unfold readExtent
  rw [← word?_eq_some_iff]
  cases word? (trim token) with
  | none => simp
  | some w => simp

theorem readExtent_eq_error {whole : String} {token : List Char} {e : Error}
    (h : readExtent whole token = .error e) :
    (∀ n, ¬ Numeral (trim token) n) ∧
      e = .notADimension (String.ofList (trim token)) whole := by
  refine ⟨fun n hn => ?_, ?_⟩
  · rw [readExtent_eq_ok.2 hn] at h
    cases h
  · unfold readExtent at h
    split at h
    · cases h
    · exact (Except.error.inj h).symm

theorem dropBlankLast_append {tokens : List (List Char)} {blank : List Char} (hne : tokens ≠ [])
    (hblank : ∀ c ∈ blank, isBlank c = true) : dropBlankLast (tokens ++ [blank]) = tokens := by
  have hlength : 1 < (tokens ++ [blank]).length := by
    have hpos := List.length_pos_iff.2 hne
    rw [List.length_append, List.length_singleton]
    omega
  have hlast : (tokens ++ [blank]).getLast?.map trim = some [] := by
    rw [List.getLast?_concat, Option.map_some, trim_eq_nil_iff.2 hblank]
  unfold dropBlankLast
  rw [if_pos ⟨hlength, hlast⟩, List.dropLast_concat]

/-- What is left out of the tokens is nothing or a blank token at their end. -/
theorem exists_dropBlankLast {parts : List (List Char)} (hne : parts ≠ []) :
    ∃ last, parts = dropBlankLast parts ++ last ∧ dropBlankLast parts ≠ [] ∧
      (last = [] ∨ ∃ blank, last = [blank] ∧ ∀ c ∈ blank, isBlank c = true) := by
  unfold dropBlankLast
  split
  · rename_i h
    obtain ⟨hlength, hlast⟩ := h
    obtain ⟨blank, hblank, htrim⟩ := Option.map_eq_some_iff.1 hlast
    refine ⟨[blank], (List.dropLast_append_getLast? _ hblank).symm, ?_,
      .inr ⟨blank, rfl, trim_eq_nil_iff.1 htrim⟩⟩
    intro hnil
    have hlength' := congrArg List.length hnil
    rw [List.length_dropLast, List.length_nil] at hlength'
    omega
  · exact ⟨[], (List.append_nil _).symm, hne, .inl rfl⟩

/-- Nothing is left out if all tokens are numerals, since these are not blank. -/
theorem dropBlankLast_eq_self {tokens : List (List Char)} {extents : Extents}
    (h : List.Forall₂ (fun token n => Numeral (trim token) n) tokens extents) :
    dropBlankLast tokens = tokens := by
  have hne : ∀ token ∈ tokens, trim token ≠ [] :=
    ((List.forall₂_and_left _ _).1 (h.imp fun _ _ hnumeral => ⟨hnumeral.ne_nil, hnumeral⟩)).1
  unfold dropBlankLast
  refine if_neg fun hblank => ?_
  obtain ⟨token, hlast, htrim⟩ := Option.map_eq_some_iff.1 hblank.2
  exact hne token (List.mem_of_getLast? hlast) htrim

/-- **What a body lists** is what its tokens are read as. -/
theorem mapM_readExtent_eq_ok {whole : String} {body : List Char} {extents : Extents} :
    (tokens body).mapM (readExtent whole) = .ok extents ↔ Lists body extents := by
  rw [mapM_eq_ok]
  simp only [readExtent_eq_ok]
  constructor
  · intro hall
    obtain ⟨last, hparts, hne, hlast⟩ :=
      exists_dropBlankLast (List.splitOn_ne_nil (separator body) body)
    exact ⟨_, _, last, separates_iff.2 rfl, splits_iff.2 hparts, hne, hall, hlast⟩
  · rintro ⟨sep, tokens, last, hsep, hsplits, hne, hall, hlast⟩
    unfold Shape.tokens
    rw [← separates_iff.1 hsep, splits_iff.1 hsplits]
    rcases hlast with rfl | ⟨blank, rfl, hblank⟩
    · rwa [List.append_nil, dropBlankLast_eq_self hall]
    · rwa [dropBlankLast_append hne hblank]

theorem Lists.ne_nil {body : List Char} {extents : Extents} (h : Lists body extents) :
    extents ≠ [] := by
  obtain ⟨sep, tokens, last, -, -, hne, hall, -⟩ := h
  rintro rfl
  exact hne (List.forall₂_nil_right_iff.1 hall)

/-- A body that is read has an extent, so that none is refused for having no dimensions. -/
theorem readExtents_eq (whole : String) (body : List Char) :
    readExtents whole body = ((tokens body).mapM (readExtent whole)).map .dims := by
  unfold readExtents
  cases hread : (tokens body).mapM (readExtent whole) with
  | error e => rfl
  | ok extents =>
    have hne : extents ≠ [] := (mapM_readExtent_eq_ok.1 hread).ne_nil
    show (if extents = [] then _ else _) = _
    rw [if_neg hne]
    rfl

/-- **What a body is read as.** -/
theorem readExtents_eq_ok {whole : String} {body : List Char} {shape : Shape} :
    readExtents whole body = .ok shape ↔ ∃ extents, Lists body extents ∧ .dims extents = shape := by
  rw [readExtents_eq, except_map_eq_ok]
  simp only [mapM_readExtent_eq_ok]

/-- A body that is refused has a token that is no numeral. -/
theorem readExtents_eq_error {whole : String} {body : List Char} {e : Error}
    (h : readExtents whole body = .error e) :
    ∃ token, (∀ n, ¬ Numeral token n) ∧ e = .notADimension (String.ofList token) whole := by
  rw [readExtents_eq, except_map_eq_error] at h
  obtain ⟨before, token, after, -, -, htoken⟩ := mapM_eq_error.1 h
  exact ⟨trim token, readExtent_eq_error htoken⟩

/-! ### Texts -/

theorem hasSeparator_eq_true {s : List Char} :
    hasSeparator s = true ↔ ',' ∈ s ∨ 'x' ∈ s := by
  simp [hasSeparator]

theorem Encloses.unique {s body body' : List Char} (h : Encloses s body) (h' : Encloses s body') :
    body = body' := by
  rw [← unbracket?_eq_some_iff] at h h'
  exact Option.some.inj (h.symm.trans h')

/-- Between brackets stands a list of extents. -/
theorem spells_of_encloses {s body : List Char} (hpair : Encloses s body) {shape : Shape} :
    Spells s shape ↔ ∃ extents, Lists body extents ∧ .dims extents = shape := by
  constructor
  · intro h
    cases h with
    | scalar hnone _ _ _ => exact absurd hpair (hnone body)
    | separated hnone _ _ => exact absurd hpair (hnone body)
    | enclosed hpair' hlists => exact ⟨_, hpair.unique hpair' ▸ hlists, rfl⟩
  · rintro ⟨extents, hlists, rfl⟩
    exact .enclosed hpair hlists

/-- A text with a separator lists extents also without brackets. -/
theorem spells_of_separator {s : List Char} (hnone : ∀ body, ¬ Encloses s body)
    (hsep : ',' ∈ s ∨ 'x' ∈ s) {shape : Shape} :
    Spells s shape ↔ ∃ extents, Lists s extents ∧ .dims extents = shape := by
  constructor
  · intro h
    cases h with
    | scalar _ hcomma hletter _ => exact absurd hsep (not_or.2 ⟨hcomma, hletter⟩)
    | separated _ _ hlists => exact ⟨_, hlists, rfl⟩
    | enclosed hpair _ => exact absurd hpair (hnone _)
  · rintro ⟨extents, hlists, rfl⟩
    exact .separated hnone hsep hlists

/-- A text with neither brackets nor separators is a numeral. -/
theorem spells_of_plain {s : List Char} (hnone : ∀ body, ¬ Encloses s body)
    (hsep : ¬ (',' ∈ s ∨ 'x' ∈ s)) {shape : Shape} :
    Spells s shape ↔ ∃ n, Numeral s n ∧ .scalar n = shape := by
  obtain ⟨hcomma, hletter⟩ := not_or.1 hsep
  constructor
  · intro h
    cases h with
    | scalar _ _ _ hnumeral => exact ⟨_, hnumeral, rfl⟩
    | separated _ hsep' _ => exact absurd hsep' hsep
    | enclosed hpair _ => exact absurd hpair (hnone _)
  · rintro ⟨n, hnumeral, rfl⟩
    exact .scalar hnone hcomma hletter hnumeral

/-- **The texts of shapes** are those that are read. -/
theorem parse_eq_ok_iff {whole : String} {shape : Shape} :
    parse whole = .ok shape ↔ Spells (trim whole.toList) shape := by
  unfold parse
  dsimp only
  cases hpair : unbracket? (trim whole.toList) with
  | some body => rw [spells_of_encloses (unbracket?_eq_some_iff.1 hpair), readExtents_eq_ok]
  | none =>
    have hnone := unbracket?_eq_none_iff.1 hpair
    dsimp only
    by_cases hsep : hasSeparator (trim whole.toList) = true
    · rw [if_pos hsep, spells_of_separator hnone (hasSeparator_eq_true.1 hsep), readExtents_eq_ok]
    · rw [if_neg hsep, spells_of_plain hnone (mt hasSeparator_eq_true.2 hsep), except_map_eq_ok]
      simp only [readExtent_eq_ok, trim_trim]

/-- Blanks and leading zeros do not count, and a blank last token is no extent. -/
example : parse " (2, 03,)" = .ok (.dims [2, 3]) := by rfl

/-- No text is one of the shape without extents. -/
theorem parse_ne_dims_nil (whole : String) : parse whole ≠ .ok (.dims []) := by
  intro h
  cases parse_eq_ok_iff.1 h with
  | enclosed _ hlists => exact hlists.ne_nil rfl
  | separated _ _ hlists => exact hlists.ne_nil rfl

/-- A text that is refused has a token that is no numeral. -/
theorem parse_eq_error {whole : String} {e : Error} (h : parse whole = .error e) :
    ∃ token, (∀ n, ¬ Numeral token n) ∧ e = .notADimension (String.ofList token) whole := by
  unfold parse at h
  dsimp only at h
  split at h
  · exact readExtents_eq_error h
  · split at h
    · exact readExtents_eq_error h
    · rw [except_map_eq_error] at h
      exact ⟨_, readExtent_eq_error h⟩

/-- **The reader of shapes** gives a shape for the texts of that shape and for no other, and no text
is one of the shape without extents. All other texts are refused as shapes, each for a token that is
no numeral, and never for having no dimensions. -/
theorem parse_accepts_exactly (whole : String) :
    (∀ shape, parse whole = .ok shape ↔ Spells (trim whole.toList) shape) ∧
      ((∃ e, parse whole = .error e) ↔ ∀ shape, ¬ Spells (trim whole.toList) shape) ∧
      (∀ e, parse whole = .error e → e.category = .invalidShape ∧
        ∃ token, (∀ n, ¬ Numeral token n) ∧ e = .notADimension (String.ofList token) whole) ∧
      parse whole ≠ .ok (.dims []) ∧ ∀ text, parse whole ≠ .error (.noDimensions text) := by
  refine ⟨fun shape => parse_eq_ok_iff, ?_, fun e h => ?_, parse_ne_dims_nil whole,
    fun text h => ?_⟩
  · simp only [← parse_eq_ok_iff]
    cases parse whole with
    | ok shape => simp
    | error e => simp
  · obtain ⟨token, htoken, rfl⟩ := parse_eq_error h
    exact ⟨rfl, token, htoken, rfl⟩
  · obtain ⟨token, -, h⟩ := parse_eq_error h
    cases h

end ComputeGraph.Shape
