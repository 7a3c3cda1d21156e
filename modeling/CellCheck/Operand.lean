import CellCheck.Cell.Range

/-!
# Operands and targets

An operation addresses a cell or a declared name; an assignment may also address a range of cells.
-/

namespace CellCheck

inductive Operand where
  | cell (c : Cell)
  | name (n : String)
  deriving DecidableEq, Repr

inductive Target where
  | cell (c : Cell)
  | range (r : CellRange)
  | name (n : String)
  deriving DecidableEq, Repr

namespace Operand

/-- A token that reads as a cell is one, any other token a name. -/
def classify (token : Text) : Operand :=
  match Cell.ofText? token with
  | some c => cell c
  | none => name (String.ofList token)

def toText : Operand → Text
  | cell c => c.toText
  | name n => n.toList

end Operand

namespace Target

/-- The cells that an assignment writes; a name stands for none. -/
def cells : Target → List Cell
  | cell c => [c]
  | range r => r.cells
  | name _ => []

def toText : Target → Text
  | cell c => c.toText
  | range r => r.toText
  | name n => n.toList

end Target

end CellCheck
