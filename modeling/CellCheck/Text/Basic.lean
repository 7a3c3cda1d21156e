/-!
# Text

A text that is read or printed is a list of characters. Its size is counted in UTF-8 bytes, its
width in characters.
-/

namespace CellCheck

abbrev Text := List Char

namespace Text

/-- The number of bytes of the text in UTF-8. -/
def byteSize (s : Text) : Nat := s.foldr (fun c n => c.utf8Size + n) 0

@[simp] theorem byteSize_nil : byteSize [] = 0 := rfl

@[simp] theorem byteSize_cons (c : Char) (s : Text) :
    byteSize (c :: s) = c.utf8Size + byteSize s := rfl

@[simp] theorem byteSize_append (s t : Text) : byteSize (s ++ t) = byteSize s + byteSize t := by
  induction s with
  | nil => simp
  | cons c s ih => rw [List.cons_append, byteSize_cons, byteSize_cons, ih, Nat.add_assoc]

/-- Joins the printed items of a list with a comma and a space. -/
def commaSeparated (items : List Text) : Text := [',', ' '].intercalate items

/-- Fills up with blanks on the left; a wider text stays as it is. -/
def alignRight (width : Nat) (s : Text) : Text := s.leftpad width ' '

/-- Fills up with blanks on the right; a wider text stays as it is. -/
def alignLeft (width : Nat) (s : Text) : Text := s.rightpad width ' '

/-- Membership of a code point in a table of inclusive ranges. -/
def inRanges (table : List (Nat × Nat)) (c : Char) : Bool :=
  table.any fun range => range.1 ≤ c.toNat && c.toNat ≤ range.2

end Text

end CellCheck
