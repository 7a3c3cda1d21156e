import CellCheck.Cell.List
import CellCheck.Statement.Basic

/-!
# Printing statements

Each command is one line of source. Loops do not nest in source, so a loop inside a loop is
printed as its first line alone.
-/

namespace CellCheck

namespace Command

def sizeText : Option Nat → Text
  | some size => '[' :: Numeral.decimal size ++ [']']
  | none => []

def valueText : Option Value → Text
  | some value => " = ".toList ++ value.toText
  | none => []

def declaredText (name : String) (cells : List Cell) : Text :=
  name.toList ++ " (".toList ++ CellList.toText cells ++ [')']

def toText : Command → Text
  | init i =>
    "INIT ".toList ++ i.syscall.toList ++ " AT ".toList ++ i.cell.toText ++ " WITH ".toList ++
      Numeral.decimal i.argumentCount
  | param p =>
    "PARAM ".toList ++ declaredText p.name p.cells ++ ": ".toList ++ p.kind.name.toList ++
      sizeText p.size ++ valueText p.value
  | var v => declaredText v.name v.cells ++ valueText (some v.value)
  | assign a => "SET ".toList ++ a.target.toText ++ ' ' :: a.value.toText
  | move m => "MOV ".toList ++ m.source.toText ++ ' ' :: m.destination.toText
  | call c =>
    c.syscall.toList ++ '(' :: Text.commaSeparated (c.arguments.map Operand.toText) ++ [')']

end Command

namespace Statement

def loopStartText : Text := "while:".toList

def loopEndText : Text := "endwhile".toList

/-- The line of a statement inside a loop. -/
def innerText : Statement → Text
  | command _ c => c.toText
  | loop _ _ => loopStartText

def toLines : Statement → List Text
  | command _ c => [c.toText]
  | loop _ body => loopStartText :: body.map innerText ++ [loopEndText]

def toText (s : Statement) : Text := ['\n'].intercalate s.toLines

end Statement

end CellCheck
