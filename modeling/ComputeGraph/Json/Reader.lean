import ComputeGraph.Json.Spelling

/-!
# Reading JSON

The grammar of JSON without extensions: four blank characters between the parts, no leading zeros,
at least one digit after a point and after the mark of an exponent, no trailing comma.

* `readNumber` — the longest number at the front of a text;
* `readValue` — a document at the front of a text;
* `read?` — the document that a whole text is.

Nesting is not limited here, and numbers keep their digits.
-/

namespace ComputeGraph.Json

/-! ### Blanks and numbers -/

/-- The characters that may stand between the parts of a document. -/
def isSpace (c : Char) : Bool :=
  c = ' ' || c = '\n' || c = '\t' || c = '\r'

/-- A text without the blanks it begins with. -/
def skipSpace (s : List Char) : List Char :=
  s.dropWhile isSpace

/-- The run of digits at the front of a text, if there is one, and what follows it. -/
def readDigits (s : List Char) : Option (List Char × List Char) :=
  if s.takeWhile Char.isDigit = [] then none
  else some (s.takeWhile Char.isDigit, s.dropWhile Char.isDigit)

/-- The digits before the point: no zero stands in front of another digit. -/
def readWhole (s : List Char) : Option (Nat × List Char) := do
  let (digits, rest) ← readDigits s
  if digits.head? = some '0' ∧ digits.length ≠ 1 then none
  else return (Nat.ofDigitChars 10 digits 0, rest)

/-- The value of a digit character. -/
def digitOf (c : Char) : Fin 10 :=
  lastDigit (c.toNat - 0x30)

/-- The digits after a point, if there is a point. -/
def readFraction : List Char → Option (List (Fin 10) × List Char)
  | '.' :: s => do
    let (digits, rest) ← readDigits s
    return (digits.map digitOf, rest)
  | s => some ([], s)

/-- The sign of an exponent, and what follows it. -/
def readSign : List Char → Bool × List Char
  | '-' :: s => (true, s)
  | '+' :: s => (false, s)
  | s => (false, s)

/-- The exponent after its mark, if there is a mark. -/
def readExponent : List Char → Option (Option Int × List Char)
  | c :: s =>
    if c = 'e' ∨ c = 'E' then do
      let (negative, s) := readSign s
      let (digits, rest) ← readDigits s
      let n : Int := Nat.ofDigitChars 10 digits 0
      return (some (if negative then -n else n), rest)
    else some (none, c :: s)
  | [] => some (none, [])

/-- The sign of a number, and what follows it. -/
def readMinus : List Char → Bool × List Char
  | '-' :: s => (true, s)
  | s => (false, s)

/-- The number at the front of a text, and what follows it. -/
def readNumber (s : List Char) : Option (Number × List Char) := do
  let (negative, s) := readMinus s
  let (whole, s) ← readWhole s
  let (fraction, s) ← readFraction s
  let (exponent, s) ← readExponent s
  return (⟨⟨negative, whole, fraction⟩, exponent⟩, s)

/-! ### Documents -/

mutual

/-- The document at the front of a text, and what follows it. The first argument bounds the number
of nested calls. -/
def readValue : Nat → List Char → Option (Json Spelling × List Char)
  | 0, _ => none
  | bound + 1, s =>
    match skipSpace s with
    | 'n' :: 'u' :: 'l' :: 'l' :: rest => some (.null, rest)
    | 't' :: 'r' :: 'u' :: 'e' :: rest => some (.bool true, rest)
    | 'f' :: 'a' :: 'l' :: 's' :: 'e' :: rest => some (.bool false, rest)
    | '"' :: rest => do
      let (pieces, rest) ← readSpelling rest
      return (.string pieces, rest)
    | '[' :: rest =>
      match skipSpace rest with
      | ']' :: rest => some (.array [], rest)
      | _ => do
        let (items, rest) ← readItems bound rest
        return (.array items, rest)
    | '\x7b' :: rest =>
      match skipSpace rest with
      | '\x7d' :: rest => some (.object [], rest)
      | _ => do
        let (members, rest) ← readMembers bound rest
        return (.object members, rest)
    | rest => do
      let (n, rest) ← readNumber rest
      return (.number n, rest)

/-- One or more items and the bracket that closes them. -/
def readItems : Nat → List Char → Option (List (Json Spelling) × List Char)
  | 0, _ => none
  | bound + 1, s => do
    let (item, rest) ← readValue bound s
    match skipSpace rest with
    | ',' :: rest => do
      let (items, rest) ← readItems bound rest
      return (item :: items, rest)
    | ']' :: rest => return ([item], rest)
    | _ => none

/-- One or more members and the brace that closes them. -/
def readMembers : Nat → List Char → Option (List (Spelling × Json Spelling) × List Char)
  | 0, _ => none
  | bound + 1, s =>
    match skipSpace s with
    | '"' :: rest => do
      let (key, rest) ← readSpelling rest
      match skipSpace rest with
      | ':' :: rest => do
        let (value, rest) ← readValue bound rest
        match skipSpace rest with
        | ',' :: rest => do
          let (members, rest) ← readMembers bound rest
          return ((key, value) :: members, rest)
        | '\x7d' :: rest => return ([(key, value)], rest)
        | _ => none
      | _ => none
    | _ => none

end

/-- The document that a text is. Each bracket opens at most two nested calls. -/
def read? (text : String) : Option (Json Spelling) := do
  let s := text.toList
  let (document, rest) ← readValue (2 * s.length + 2) s
  if skipSpace rest = [] then return document else none

end ComputeGraph.Json
