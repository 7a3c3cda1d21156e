import CellCheck.Binary64.Nearest
import CellCheck.Text.Numeral

/-!
# Decimal numerals

A decimal numeral has an optional sign, digits with an optional point among or around them, and an
optional exponent. It stands for the number nearest to its value.
-/

namespace CellCheck.Binary64

/-- Splits off an optional sign; `true` is the negative one. -/
def readSign : Text → Bool × Text
  | '-' :: rest => (true, rest)
  | '+' :: rest => (false, rest)
  | s => (false, s)

/-- The exponent part of a numeral: nothing, or a mark, an optional sign and digits. -/
def readExponent? : Text → Option Int
  | [] => some 0
  | mark :: rest =>
    if mark = 'e' || mark = 'E' then
      let (negative, digits) := readSign rest
      (Numeral.readDecimal? digits).map fun n => if negative then -(n : Int) else n
    else none

def splitDigits (s : Text) : Text × Text := (s.takeWhile Char.isDigit, s.dropWhile Char.isDigit)

/-- The digits after a point, if a point follows. -/
def splitFraction : Text → Text × Text
  | '.' :: rest => splitDigits rest
  | s => ([], s)

def ofText? (s : Text) : Option Binary64 :=
  let (negative, body) := readSign s
  let (whole, afterWhole) := splitDigits body
  let (fraction, afterFraction) := splitFraction afterWhole
  match Numeral.readDecimal? (whole ++ fraction), readExponent? afterFraction with
  | some digits, some exponent => some (ofDecimal negative digits (exponent - fraction.length))
  | _, _ => none

end CellCheck.Binary64
