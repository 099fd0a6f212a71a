import ComputeGraph.Proofs.Json.RoundTrip
import Mathlib.Data.List.Forall2

/-!
# What documents say

What a document that has been read says: a text through whatever spelling, an integer, a list of
things, a thing or nothing, or things under keys. A document that is printed says what it is made
from once it is read back.

* `Spells` — the text that a spelling stands for;
* `IsText`, `IsInt`, `IsOptionOf`, `IsArrayOf`, `IsObjectOf` — what a document says;
* `isText_string`, `isInt_ofInt`, `isOptionOf_ofOption`, `isArrayOf_map`, `isObjectOf_object` — what
  is said by a document that is printed.
-/

namespace ComputeGraph.Json

variable {α : Type}

/-- The spelling stands for the text. -/
def Spells (pieces : Spelling) (text : String) : Prop :=
  spelledText? pieces = some text.toList

/-- The document is a string that stands for the text. -/
def IsText (document : Json Spelling) (text : String) : Prop :=
  ∃ pieces, document = .string pieces ∧ Spells pieces text

/-- The document is the literal of the integer, without a point or an exponent. -/
def IsInt (document : Json Spelling) (i : Int) : Prop :=
  ∃ negative whole, document = .number ⟨⟨negative, whole, []⟩, none⟩ ∧
    i = if negative then -(whole : Int) else whole

/-- The document says the value, or is `null` if there is none. -/
def IsOptionOf (Says : Json Spelling → α → Prop) (document : Json Spelling) : Option α → Prop
  | none => document = .null
  | some value => Says document value

/-- The document is an array whose items say the values in order. -/
def IsArrayOf (Says : Json Spelling → α → Prop) (document : Json Spelling) (values : List α) :
    Prop :=
  ∃ items, document = .array items ∧ List.Forall₂ Says items values

/-- The document is an object with the keys in order, and its members say the values. -/
def IsObjectOf (Says : Json Spelling → α → Prop) (document : Json Spelling)
    (entries : List (String × α)) : Prop :=
  ∃ members, document = .object members ∧
    List.Forall₂ (fun member entry => Spells member.1 entry.1 ∧ Says member.2 entry.2)
      members entries

/-! ### Spellings -/

theorem spells_spell (text : String) : Spells (spell text.toList) text :=
  spelledText?_spell text.toList

/-- A spelling stands for one text. -/
theorem Spells.unique {pieces : Spelling} {text text' : String} (h : Spells pieces text)
    (h' : Spells pieces text') : text = text' :=
  String.toList_inj.1 (Option.some.inj (h.symm.trans h'))

/-! ### Documents that are printed -/

theorem isText_string (text : String) : ((Json.string text.toList).map spell).IsText text :=
  ⟨_, rfl, spells_spell text⟩

theorem isInt_ofInt (i : Int) : ((ofInt i : Json (List Char)).map spell).IsInt i := by
  refine ⟨decide (i < 0), i.natAbs, rfl, ?_⟩
  split
  · rename_i h
    have hneg : i < 0 := of_decide_eq_true h
    omega
  · rename_i h
    have hnonneg : ¬ i < 0 := fun hneg => h (decide_eq_true hneg)
    omega

theorem isInt_ofNat (n : Nat) : ((ofNat n : Json (List Char)).map spell).IsInt n :=
  ⟨false, n, rfl, rfl⟩

theorem isOptionOf_ofOption {Says : Json Spelling → α → Prop} {f : α → Json (List Char)}
    (h : ∀ value, Says ((f value).map spell) value) (value : Option α) :
    IsOptionOf Says ((ofOption f value).map spell) value := by
  cases value with
  | none => rfl
  | some value => exact h value

theorem isArrayOf_array {Says : Json Spelling → α → Prop} {items : List (Json (List Char))}
    {values : List α}
    (h : List.Forall₂ (fun item value => Says (item.map spell) value) items values) :
    IsArrayOf Says ((Json.array items).map spell) values := by
  refine ⟨_, rfl, ?_⟩
  rw [mapItems_eq_map]
  exact List.forall₂_map_left_iff.2 h

theorem isArrayOf_map {Says : Json Spelling → α → Prop} {f : α → Json (List Char)}
    (h : ∀ value, Says ((f value).map spell) value) (values : List α) :
    IsArrayOf Says ((Json.array (values.map f)).map spell) values :=
  isArrayOf_array (List.forall₂_map_left_iff.2 (List.forall₂_same.2 fun value _ => h value))

theorem isObjectOf_object {Says : Json Spelling → α → Prop}
    {members : List (List Char × Json (List Char))} {entries : List (String × α)}
    (h : List.Forall₂ (fun member entry => member.1 = entry.1.toList ∧
      Says (member.2.map spell) entry.2) members entries) :
    IsObjectOf Says ((Json.object members).map spell) entries := by
  refine ⟨_, rfl, ?_⟩
  induction h with
  | nil => exact .nil
  | @cons member entry members entries hmember _ ih =>
    obtain ⟨key, value⟩ := member
    obtain ⟨hkey, hvalue⟩ := hmember
    obtain rfl : key = entry.1.toList := hkey
    exact .cons ⟨spells_spell entry.1, hvalue⟩ ih

end ComputeGraph.Json
