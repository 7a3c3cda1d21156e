import CellCheck.Cell.Basic
import CellCheck.Text.Blank

/-!
# Cell ranges

A range `C1..C5` stands for its cells in ascending order, both ends included. A written range
covers at most `CellRange.maxWidth` cells.
-/

namespace CellCheck

/-- Why an item of a cell list was rejected; each cause carries the item. -/
inductive CellListError where
  | rangeFormat (item : String)
  | rangePrefix (item : String)
  | rangeNumber (item : String)
  | rangeInverted (item : String)
  | rangeTooWide (item : String)
  | cellPrefix (item : String)
  | cellNumber (item : String)
  deriving DecidableEq, Repr

structure CellRange where
  first : Cell
  last : Cell
  deriving DecidableEq, Repr

namespace CellRange

/-- The widest range that can be written. -/
def maxWidth : Nat := 65536

/-- The cells from first to last; none if the range is inverted. -/
def cells (r : CellRange) : List Cell :=
  (List.range' r.first.toNat (r.last.toNat + 1 - r.first.toNat)).map Cell.ofNat

def toText (r : CellRange) : Text := r.first.toText ++ "..".toList ++ r.last.toText

/-- Reads `C<a>..C<b>` with `a ≤ b`; blanks may surround both sides. -/
def ofText (item : Text) : Except CellListError CellRange :=
  let name := String.ofList item
  match item.cut? ".." with
  | none => .error (.rangeFormat name)
  | some (left, right) =>
    if right.hasPart ".." then .error (.rangeFormat name)
    else if !(left.trim.startsWith "C" && right.trim.startsWith "C") then
      .error (.rangePrefix name)
    else
      match Cell.ofText? left.trim, Cell.ofText? right.trim with
      | some first, some last =>
        if last.toNat < first.toNat then .error (.rangeInverted name)
        else if maxWidth ≤ last.toNat - first.toNat then .error (.rangeTooWide name)
        else .ok ⟨first, last⟩
      | _, _ => .error (.rangeNumber name)

end CellRange

def CellListError.message : CellListError → String
  | rangeFormat item => "Invalid cell range: \"" ++ item ++ "\". Expected format: C1..C5"
  | rangePrefix item => "Invalid cell range: \"" ++ item ++ "\". Both sides must start with 'C'"
  | rangeNumber item =>
    "Invalid cell range: \"" ++ item ++ "\". Cell numbers must be valid integers"
  | rangeInverted item =>
    "Invalid cell range: \"" ++ item ++ "\". Start cell must be <= end cell"
  | rangeTooWide item =>
    "Invalid cell range: \"" ++ item ++ "\". A range covers at most " ++
      toString CellRange.maxWidth ++ " cells"
  | cellPrefix item => "Invalid cell: \"" ++ item ++ "\". Must start with 'C'"
  | cellNumber item => "Invalid cell: \"" ++ item ++ "\". Cell number must be a valid integer"

end CellCheck
