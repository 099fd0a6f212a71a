import ComputeGraph.Error
import ComputeGraph.Text.Numeral

/-!
# Shapes written as text

A numeral alone is a scalar shape. Otherwise the extents stand between parentheses or brackets, or
are set apart by commas, or by the letter `x` where no comma occurs, or both. Blanks around the
text and around each numeral do not count, and a blank token after the last separator is no extent.
-/

namespace ComputeGraph.Shape

open Text

/-- The text between an outer pair of parentheses or of brackets. -/
def unbracket? : List Char → Option (List Char)
  | '(' :: s => if s.getLast? = some ')' then some s.dropLast else none
  | '[' :: s => if s.getLast? = some ']' then some s.dropLast else none
  | _ => none

/-- The character that sets the extents of a body apart. -/
def separator (body : List Char) : Char :=
  if 'x' ∈ body ∧ ',' ∉ body then 'x' else ','

/-- Leaves a blank last token out, unless there is no other token. -/
def dropBlankLast (tokens : List (List Char)) : List (List Char) :=
  if 1 < tokens.length ∧ tokens.getLast?.map trim = some [] then tokens.dropLast else tokens

/-- The tokens of a body that stand for extents. -/
def tokens (body : List Char) : List (List Char) :=
  dropBlankLast (body.splitOn (separator body))

/-- The extent that a token stands for; `whole` is the text that it comes from. -/
def readExtent (whole : String) (token : List Char) : Except Error UInt64 :=
  match word? (trim token) with
  | some n => .ok n
  | none => .error (.notADimension (String.ofList (trim token)) whole)

/-- The extents of a body, of which there is at least one. -/
def readExtents (whole : String) (body : List Char) : Except Error Shape := do
  let extents ← (tokens body).mapM (readExtent whole)
  if extents = [] then throw (.noDimensions whole)
  return .dims extents

/-- Whether a text without brackets holds a separator. -/
def hasSeparator (s : List Char) : Bool :=
  ',' ∈ s || 'x' ∈ s

/-- The shape that a text stands for. -/
def parse (whole : String) : Except Error Shape :=
  let s := trim whole.toList
  match unbracket? s with
  | some body => readExtents whole body
  | none => if hasSeparator s then readExtents whole s else (readExtent whole s).map .scalar

end ComputeGraph.Shape
