import CellCheck.Diagnostic.Printer
import CellCheck.Report.Basic

/-!
# Printing reports

The table of claimed cells, the history of touched cells, and the report as JSON, which leaves
out the numbers of claims and the history.
-/

namespace CellCheck

namespace ClaimKind

def color : ClaimKind → Style
  | data .int => .green
  | data .struct => .blue
  | data .pointer => .magenta
  | syscall => .red

end ClaimKind

namespace CellInfo

/-- The mark of a cell with more than one claim on it. -/
def sharedMark (claims : Nat) : Text :=
  if 1 < claims then ' ' :: Style.apply [.yellow] ("shared x".toList ++ Numeral.decimal claims)
  else []

def toRow (info : CellInfo) (claims : Nat) : Text :=
  "| ".toList ++ Text.alignRight 8 info.cell.toText ++ " | ".toList ++
    Style.apply [info.kind.color] (Text.alignLeft 8 info.kind.name.toList) ++ " | ".toList ++
    Style.apply [.bold] info.owner.toList ++ " (size ".toList ++ Numeral.decimal info.size ++
    ')' :: sharedMark claims

def toJson (info : CellInfo) : Json :=
  .object [("cell", .number info.cell.toNat), ("owner", .string info.owner),
    ("kind", .string info.kind.name), ("size", .number info.size)]

end CellInfo

/-- A cell without a known number of claims counts as claimed once. -/
def claimCount (claims : Std.TreeMap Cell Nat) (c : Cell) : Nat := claims[c]?.getD 1

def cellTable (cells : List CellInfo) (claims : Std.TreeMap Cell Nat) : Text :=
  let rows := cells.map fun info => info.toRow (claimCount claims info.cell)
  let head := "+--[Cell]--+--[Kind]--+------------------------------------------------------".toList
  let foot := "+----------+----------+------------------------------------------------------".toList
  (head :: rows ++ [foot]).flatMap (· ++ ['\n'])

namespace Event

def style : EventKind → Style
  | .allocation => .cyan
  | .usage => .yellow

def toRow (e : Event) : Text :=
  "  ".toList ++ Text.alignRight 4 (Numeral.decimal (e.line + 1)) ++ " | ".toList ++
    Style.apply [style e.kind] (Text.alignLeft 10 e.kind.name.toList) ++ ' ' :: e.owner.toList

end Event

/-- The events of each cell under the cell. -/
def historyTable (history : List (Cell × List Event)) : Text :=
  history.flatMap fun (c, events) =>
    (Style.apply [.bold] c.toText :: events.map Event.toRow).flatMap (· ++ ['\n'])

def Report.toJson (r : Report) : Json :=
  .object [("file", .string r.file), ("statements", .number r.statements),
    ("diagnostics", .array (r.diagnostics.map Diagnostic.toJson)),
    ("cells", .array (r.cells.map CellInfo.toJson))]

end CellCheck
