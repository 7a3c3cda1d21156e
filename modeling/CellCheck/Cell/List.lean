import CellCheck.Cell.Range

/-!
# Cell lists

A list of cells is written as cells and ranges between commas. Printing collects neighbours that
count up by one into ranges; reading expands every item in order and keeps repetitions.
-/

namespace CellCheck.CellList

/-- The next cell directly follows; the last of all cells has no successor. -/
def follows (c next : Cell) : Bool := c.toNat + 1 == next.toNat

/-- Puts a cell in front of runs, joining the first run if that run starts with its successor. -/
def consRun (c : Cell) : List CellRange → List CellRange
  | [] => [⟨c, c⟩]
  | run :: rest => if follows c run.first then ⟨c, run.last⟩ :: rest else ⟨c, c⟩ :: run :: rest

/-- The maximal runs of cells that count up by one. -/
def runs (cells : List Cell) : List CellRange := cells.foldr consRun []

@[simp] theorem runs_nil : runs [] = [] := rfl

@[simp] theorem runs_cons (c : Cell) (cells : List Cell) :
    runs (c :: cells) = consRun c (runs cells) := rfl

/-- A run of one cell is written as that cell. -/
def runText (run : CellRange) : Text :=
  if run.first = run.last then run.first.toText else run.toText

def toText (cells : List Cell) : Text := Text.commaSeparated ((runs cells).map runText)

/-- The cells of one item, a range if it has two dots in it. -/
def readItem (item : Text) : Except CellListError (List Cell) :=
  if item.hasPart ".." then (CellRange.ofText item).map CellRange.cells
  else if !item.startsWith "C" then .error (.cellPrefix (String.ofList item))
  else
    match Cell.ofText? item with
    | some c => .ok [c]
    | none => .error (.cellNumber (String.ofList item))

def ofText (s : Text) : Except CellListError (List Cell) :=
  (((s.splitOn ',').map Text.trim).mapM readItem).map List.flatten

end CellCheck.CellList
