import ComputeGraph.Json.Reader
import ComputeGraph.Json.Double

/-!
# JSON values

What a document stands for as a value: every string has a text, numbers are machine words where
they can be and doubles elsewhere, and an object is a map from keys to values, listed in the order
of the keys, in which the last member of a key counts. Documents nested too deeply, strings without
a text and numbers too large for a double stand for no value.
-/

namespace ComputeGraph.Json

/-- Arrays and objects nest less deeply than this in a value. -/
def depthLimit : Nat := 128

/-- The number as a value: an integer of 64 bits, signed if negative, or else a double. -/
def Number.value? (n : Number) : Option Number :=
  if n.decimal.fraction = [] ∧ n.exponent = none ∧
      (if n.decimal.negative then 0 < n.decimal.whole ∧ n.decimal.whole ≤ Nat.pow 2 63
        else n.decimal.whole < UInt64.size) then some n
  else n.toDouble?.map .ofDouble

/-- Puts a member at its place in a list ordered by keys, in place of one with the same key. -/
def insertMember {α : Type} (key : List Char) (value : α) :
    List (List Char × α) → List (List Char × α)
  | [] => [(key, value)]
  | (k, v) :: members =>
    if key = k then (key, value) :: members
    else if key < k then (key, value) :: (k, v) :: members
    else (k, v) :: insertMember key value members

mutual

/-- The value of a document of any depth. -/
def anyValue? : Json Spelling → Option (Json (List Char))
  | .null => some .null
  | .bool b => some (.bool b)
  | .number n => n.value?.map .number
  | .string s => (spelledText? s).map .string
  | .array items => (itemValues? items).map .array
  | .object members => (memberValues? [] members).map .object
termination_by structural document => document

/-- The values of some documents. -/
def itemValues? : List (Json Spelling) → Option (List (Json (List Char)))
  | [] => some []
  | item :: items => do
    let item ← anyValue? item
    let items ← itemValues? items
    return item :: items
termination_by structural items => items

/-- The members read so far together with the values of further ones. -/
def memberValues? (known : List (List Char × Json (List Char))) :
    List (Spelling × Json Spelling) → Option (List (List Char × Json (List Char)))
  | [] => some known
  | (key, value) :: members => do
    let key ← spelledText? key
    let value ← anyValue? value
    memberValues? (insertMember key value known) members
termination_by structural members => members

end

/-- The value that a document stands for. -/
def value? (document : Json Spelling) : Option (Json (List Char)) :=
  if depth document < depthLimit then anyValue? document else none

end ComputeGraph.Json
