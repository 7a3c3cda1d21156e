import CellCheck.Text.Cut

/-!
# Lines of a text

A line ends at a line feed, and a carriage return directly before the line feed belongs to the
line end. A last line without a line feed counts unless it is empty.
-/

namespace CellCheck.Text

def withoutReturn (line : Text) : Text := (line.before? "\r").getD line

def lines (s : Text) : List Text :=
  let pieces := s.splitOn '\n'
  pieces.dropLast.map withoutReturn ++ pieces.getLast?.toList.filter (!·.isEmpty)

@[simp] theorem lines_nil : lines [] = [] := rfl

end CellCheck.Text
