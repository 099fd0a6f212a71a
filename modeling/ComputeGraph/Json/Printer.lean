import ComputeGraph.Json.Basic

/-!
# Printing JSON

A document is printed on one line without spaces, or over several lines with two spaces for each
level. Both are one function of a `Style`, which says what stands between the parts.

In a string the quote, the backslash and the control characters are escaped, and nothing else. An
empty array or object is written without a line break in either style.
-/

namespace ComputeGraph.Json

/-! ### Strings -/

/-- The hexadecimal digit of a number below sixteen, in lower case. -/
def hexDigit (n : Nat) : Char :=
  Nat.digitChar n

/-- How a character is written inside a string. -/
def escape (c : Char) : List Char :=
  if c = '"' then ['\\', '"']
  else if c = '\\' then ['\\', '\\']
  else if c = '\x08' then ['\\', 'b']
  else if c = '\x0c' then ['\\', 'f']
  else if c = '\n' then ['\\', 'n']
  else if c = '\r' then ['\\', 'r']
  else if c = '\t' then ['\\', 't']
  else if c.toNat < 0x20 then
    ['\\', 'u', '0', '0', hexDigit (c.toNat / 16), hexDigit (c.toNat % 16)]
  else [c]

/-- The characters of a string with its quotes. -/
def quoted (s : List Char) : List Char :=
  '"' :: (s.flatMap escape ++ ['"'])

/-! ### Numbers -/

/-- The power of ten of a number. A sign is always written. -/
def exponentText : Option Int → List Char
  | none => []
  | some e => 'e' :: (if e < 0 then '-' else '+') :: Nat.toDigits 10 e.natAbs

/-- The characters of a number. -/
def Number.text (n : Number) : List Char :=
  n.decimal.text ++ exponentText n.exponent

/-! ### Documents -/

/-- What is written between the parts of a document. -/
structure Style where
  /-- Before an item and before the closing bracket, at the given level. -/
  lineBreak : Nat → List Char
  /-- Between a key and its value. -/
  colon : List Char

/-- Everything on one line, without spaces. -/
def Style.compact : Style :=
  ⟨fun _ => [], [':']⟩

/-- An item on each line, two spaces to a level. -/
def Style.pretty : Style :=
  ⟨fun level => '\n' :: List.replicate (2 * level) ' ', [':', ' ']⟩

mutual

/-- The characters of a document at a level of nesting. -/
def render (style : Style) (level : Nat) : Json (List Char) → List Char
  | .null => ['n', 'u', 'l', 'l']
  | .bool true => ['t', 'r', 'u', 'e']
  | .bool false => ['f', 'a', 'l', 's', 'e']
  | .number n => n.text
  | .string s => quoted s
  | .array items => '[' :: (renderItems style level true items ++ [']'])
  | .object members => '\x7b' :: (renderMembers style level true members ++ ['\x7d'])
termination_by structural document => document

/-- The items of an array at a level, with the break before the closing bracket. The flag tells
the first item, which no comma precedes. -/
def renderItems (style : Style) (level : Nat) (first : Bool) : List (Json (List Char)) → List Char
  | [] => if first then [] else style.lineBreak level
  | item :: items =>
    (if first then [] else [',']) ++ style.lineBreak (level + 1) ++
      render style (level + 1) item ++ renderItems style level false items
termination_by structural items => items

/-- The members of an object at a level, as `renderItems` does it. -/
def renderMembers (style : Style) (level : Nat) (first : Bool) :
    List (List Char × Json (List Char)) → List Char
  | [] => if first then [] else style.lineBreak level
  | (key, value) :: members =>
    (if first then [] else [',']) ++ style.lineBreak (level + 1) ++ quoted key ++ style.colon ++
      render style (level + 1) value ++ renderMembers style level false members
termination_by structural members => members

end

/-- The text of a document on one line. -/
def compact (document : Json (List Char)) : String :=
  String.ofList (render .compact 0 document)

/-- The text of a document over several lines. -/
def pretty (document : Json (List Char)) : String :=
  String.ofList (render .pretty 0 document)

end ComputeGraph.Json
