import ComputeGraph.Json.Basic

/-!
# How strings are spelled

Between its quotes a string is spelled by plain characters and escapes. An escape with four
hexadecimal digits names a UTF-16 unit; a surrogate stands for a character only together with its
partner, so a spelling may stand for no text at all.

* `readSpelling` — the spelling up to the closing quote;
* `spelledText?` — the text it stands for.
-/

namespace ComputeGraph.Json

/-- A part of a spelling. -/
inductive Piece where
  /-- A character, plain or escaped. -/
  | char (c : Char)
  /-- One half of a pair of UTF-16 units. -/
  | surrogate (unit : Nat)
deriving DecidableEq, Repr

/-- The parts of a string in order. -/
abbrev Spelling := List Piece

/-- The plain spelling of a text. -/
def spell (s : List Char) : Spelling :=
  s.map .char

/-! ### Reading -/

/-- The value of a hexadecimal digit of either case. -/
def hexValue? (c : Char) : Option Nat :=
  if '0' ≤ c ∧ c ≤ '9' then some (c.toNat - 0x30)
  else if 'a' ≤ c ∧ c ≤ 'f' then some (c.toNat - 0x57)
  else if 'A' ≤ c ∧ c ≤ 'F' then some (c.toNat - 0x37)
  else none

/-- The piece for a UTF-16 unit. -/
def Piece.ofUnit (unit : Nat) : Piece :=
  if 0xD800 ≤ unit ∧ unit < 0xE000 then .surrogate unit else .char (Char.ofNat unit)

/-- The piece for the four digits of an escape. -/
def unitPiece? (a b c d : Char) : Option Piece := do
  let a ← hexValue? a
  let b ← hexValue? b
  let c ← hexValue? c
  let d ← hexValue? d
  return .ofUnit (a * 4096 + b * 256 + c * 16 + d)

/-- The character for a letter after a backslash. -/
def escaped? (c : Char) : Option Char :=
  if c = '"' then some '"'
  else if c = '\\' then some '\\'
  else if c = '/' then some '/'
  else if c = 'b' then some '\x08'
  else if c = 'f' then some '\x0c'
  else if c = 'n' then some '\n'
  else if c = 'r' then some '\r'
  else if c = 't' then some '\t'
  else none

/-- Reads a spelling up to and with the closing quote, and gives it with what follows. Control
characters have to be escaped. -/
def readSpelling : List Char → Option (Spelling × List Char)
  | [] => none
  | '"' :: rest => some ([], rest)
  | '\\' :: 'u' :: a :: b :: c :: d :: rest => do
    let piece ← unitPiece? a b c d
    let (pieces, rest) ← readSpelling rest
    return (piece :: pieces, rest)
  | '\\' :: c :: rest => do
    let c ← escaped? c
    let (pieces, rest) ← readSpelling rest
    return (.char c :: pieces, rest)
  | c :: rest =>
    if c = '\\' ∨ c.toNat < 0x20 then none
    else do
      let (pieces, rest) ← readSpelling rest
      return (.char c :: pieces, rest)

/-! ### The text of a spelling -/

/-- The character of two surrogates, which must be a leading and a trailing one. -/
def pairChar? (high low : Nat) : Option Char :=
  if high < 0xDC00 ∧ 0xDC00 ≤ low then
    some (Char.ofNat (0x10000 + (high - 0xD800) * 0x400 + (low - 0xDC00)))
  else none

/-- The text that a spelling stands for, if every surrogate has its partner. -/
def spelledText? : Spelling → Option (List Char)
  | [] => some []
  | .char c :: rest => (spelledText? rest).map (c :: ·)
  | .surrogate high :: .surrogate low :: rest => do
    let c ← pairChar? high low
    let s ← spelledText? rest
    return c :: s
  | .surrogate _ :: _ => none

theorem spelledText?_spell (s : List Char) : spelledText? (spell s) = some s := by
  induction s with
  | nil => rfl
  | cons c r ih =>
    show (spelledText? (spell r)).map (c :: ·) = some (c :: r)
    rw [ih]
    rfl

end ComputeGraph.Json
