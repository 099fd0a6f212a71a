import ComputeGraph.Binary64.Fixed
import ComputeGraph.Shape.Engine
import ComputeGraph.Tensor.Basic

/-!
# Tensors as literals

The engine reads the initial value of a parameter from a matrix in text form. Its rows run over the
innermost axis and its columns over all others, so that going down the columns one after another
meets the elements in their order in memory. Each element is written with four decimal places.
-/

namespace ComputeGraph

/-- A tensor written for the engine. -/
structure MatrixLiteral where
  shape : EngineShape
  rows : Nat
  cols : Nat
  text : String
deriving DecidableEq, Repr

namespace Tensor

/-- The entry of the matrix in a row and a column. -/
def entry (t : Tensor) (rows row col : Nat) : List Char :=
  Binary64.fixedText 4 (t.data.getD (row + col * rows) 0)

/-- A row of the matrix with the line break after it. -/
def rowText (t : Tensor) (rows cols row : Nat) : List Char :=
  List.intercalate [' '] ((List.range cols).map fun col => t.entry rows row col) ++ ['\n']

/-- The rows of the matrix one below the other. -/
def matrixText (t : Tensor) (rows cols : Nat) : List Char :=
  (List.range rows).flatMap fun row => t.rowText rows cols row

/-- The number of rows: the innermost extent. -/
def rows (t : Tensor) : Nat :=
  (t.extents.getLast?.getD 1).toNat

/-- The number of columns: the product of the other extents. -/
def cols (t : Tensor) : Nat :=
  Extents.elementCount t.extents.dropLast

/-- The number of columns as it is formed, innermost extent first, if it stays below `2 ^ 64` at
every step. -/
def cols? (t : Tensor) : Option Nat :=
  Extents.elementCount? (Shape.dims t.extents).toEngine.extents.tail

/-- The literal of a tensor, which must have an element, and no more columns than a machine word
counts. -/
def literal (t : Tensor) : Except Error MatrixLiteral :=
  if 0 ∈ t.extents then .error (.emptyValue t.extents)
  else match t.cols? with
    | none => .error (.valueTooLarge t.extents)
    | some cols => .ok
      { shape := (Shape.dims t.extents).toEngine
        rows := t.rows
        cols
        text := String.ofList (t.matrixText t.rows cols) }

end Tensor

end ComputeGraph
