import ComputeGraph.Decimal

/-!
# JSON documents

A JSON document over a type `σ` of strings. Documents that are printed hold the text of each string
(`Json (List Char)`); a document just read holds how each string is spelled, since whether a
spelling stands for a text is decided only where the text is needed.

The members of an object keep their order, and a key may occur more than once.
-/

namespace ComputeGraph

/-- A JSON number: a decimal numeral and an optional power of ten. -/
structure Json.Number where
  decimal : Decimal
  exponent : Option Int
deriving DecidableEq, Repr

/-- A JSON document with strings in `σ`. -/
inductive Json (σ : Type) where
  | null
  | bool (value : Bool)
  | number (value : Json.Number)
  | string (value : σ)
  | array (items : List (Json σ))
  | object (members : List (σ × Json σ))

namespace Json

variable {σ τ : Type}

/-- The number of a natural number. -/
def Number.ofNat (n : Nat) : Number :=
  ⟨⟨false, n, []⟩, none⟩

/-- The number of an integer. -/
def Number.ofInt (i : Int) : Number :=
  ⟨⟨decide (i < 0), i.natAbs, []⟩, none⟩

/-- The document of a natural number. -/
def ofNat (n : Nat) : Json σ :=
  .number (.ofNat n)

/-- The document of an integer. -/
def ofInt (i : Int) : Json σ :=
  .number (.ofInt i)

/-- The document of a value that may be missing. -/
def ofOption (f : τ → Json σ) : Option τ → Json σ
  | none => .null
  | some value => f value

/-! ### Nesting -/

mutual

/-- How many arrays and objects stand inside one another. -/
def depth : Json σ → Nat
  | .null => 0
  | .bool _ => 0
  | .number _ => 0
  | .string _ => 0
  | .array items => depthItems items + 1
  | .object members => depthMembers members + 1
termination_by structural document => document

/-- The greatest depth of some documents. -/
def depthItems : List (Json σ) → Nat
  | [] => 0
  | item :: items => max (depth item) (depthItems items)
termination_by structural items => items

/-- The greatest depth of the values of some members. -/
def depthMembers : List (σ × Json σ) → Nat
  | [] => 0
  | (_, value) :: members => max (depth value) (depthMembers members)
termination_by structural members => members

end

end Json

end ComputeGraph
