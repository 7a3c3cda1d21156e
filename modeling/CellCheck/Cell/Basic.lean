import CellCheck.Text.Cut
import CellCheck.Text.Numeral

/-!
# Cells

A storage cell is addressed by a 32-bit number and written `C` with that number in decimal.
-/

namespace CellCheck

@[ext] structure Cell where
  number : UInt32
  deriving DecidableEq, Repr

namespace Cell

instance : Ord Cell := ⟨compareOn Cell.number⟩

instance : Std.TransOrd Cell := inferInstanceAs (Std.TransCmp (compareOn Cell.number))

instance : Std.LawfulEqOrd Cell where
  eq_of_compare h := Cell.ext (Std.LawfulEqOrd.eq_of_compare h)

def ofNat (n : Nat) : Cell := ⟨UInt32.ofNat n⟩

def toNat (c : Cell) : Nat := c.number.toNat

theorem toNat_lt (c : Cell) : c.toNat < UInt32.size := c.number.toNat_lt

@[simp] theorem ofNat_toNat (c : Cell) : ofNat c.toNat = c := by
  simp [ofNat, toNat]

theorem toNat_ofNat {n : Nat} (h : n < UInt32.size) : (ofNat n).toNat = n := by
  simpa [ofNat, toNat] using Nat.mod_eq_of_lt h

def toText (c : Cell) : Text := 'C' :: Numeral.decimal c.toNat

/-- `C` with one or more digits, of whatever value. -/
def isShaped (s : Text) : Bool :=
  match s with
  | 'C' :: digits => Numeral.isDigits digits
  | _ => false

/-- The cell of a token that is shaped like one and whose number fits. -/
def ofText? (s : Text) : Option Cell :=
  match s with
  | 'C' :: digits => (Numeral.readBelow? UInt32.size digits).map ofNat
  | _ => none

theorem ofText?_toText (c : Cell) : ofText? c.toText = some c := by
  simp only [ofText?, toText, Numeral.readBelow?_decimal c.toNat_lt, Option.map_some, ofNat_toNat]

end Cell

end CellCheck
