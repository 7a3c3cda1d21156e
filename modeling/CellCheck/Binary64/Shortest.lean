import CellCheck.Binary64.Nearest
import CellCheck.Text.Numeral

/-!
# The shortest decimal

A finite number is printed with the fewest significant digits that read back as the same number,
and among those as the decimal nearest to it, a tie going up. The notation is positional without
an exponent, and without a point for whole numbers.
-/

namespace CellCheck.Binary64

/-- Decimals are counted in units of `10 ^ (-1074)`, in which every finite magnitude is whole. -/
def decimalPlaces : Nat := 1074

/-- A decimal of `digits * 10 ^ zeros` units. -/
structure Decimal where
  digits : Nat
  zeros : Nat
  deriving DecidableEq, Repr

def Decimal.units (d : Decimal) : Nat := d.digits * Nat.pow 10 d.zeros

/-- The magnitude of a rank in units. -/
def exactUnits (rank : Nat) : Nat := magnitude rank * Nat.pow 5 decimalPlaces

/-- The decimal reads back as the magnitude of this rank. -/
def readsBack (rank : Nat) (d : Decimal) : Bool :=
  nearestRank d.units (Nat.pow 10 decimalPlaces) == rank

/-- Of two decimals around the exact magnitude the one that reads back, or the nearer one if both
do. -/
def pick? (reads : Decimal → Bool) (exact : Nat) (low high : Decimal) : Option Decimal :=
  match reads low, reads high with
  | true, true => some (if exact - low.units < high.units - exact then low else high)
  | true, false => some low
  | false, true => some high
  | false, false => none

/-- The pick of the two decimals with so many zeros around the exact magnitude. -/
def neighbour? (rank zeros : Nat) : Option Decimal :=
  let digits := exactUnits rank / Nat.pow 10 zeros
  pick? (readsBack rank) (exactUnits rank) ⟨digits, zeros⟩ ⟨digits + 1, zeros⟩

/-- The number of digits or one more, where a bit makes up for 0.30103 digits. -/
def widthBound (n : Nat) : Nat := n.log2 * 30103 / 100000 + 2

/-- Few digits are tried before many. With 18 of them below the bound at least 17 are significant,
and these are always enough; the exact magnitude reads back in any case. -/
def shortestDecimal (rank : Nat) : Decimal :=
  let exact := exactUnits rank
  ((List.range 18).findSome? fun n => neighbour? rank (widthBound exact - (n + 1))).getD ⟨exact, 0⟩

/-- Drops the zeros at the end of a fraction. -/
def withoutTrailingZeros (s : Text) : Text := (s.reverse.dropWhile (· == '0')).reverse

/-- The text of a number of units of `10 ^ (-places)`. -/
def positional (digits places : Nat) : Text :=
  let whole := Numeral.decimal (digits / Nat.pow 10 places)
  let fraction := (Numeral.decimal (digits % Nat.pow 10 places)).leftpad places '0'
  match withoutTrailingZeros fraction with
  | [] => whole
  | fraction => whole ++ '.' :: fraction

def Decimal.toText (d : Decimal) : Text :=
  if d.zeros ≤ decimalPlaces then positional d.digits (decimalPlaces - d.zeros)
  else Numeral.decimal (d.digits * Nat.pow 10 (d.zeros - decimalPlaces))

def signText (negative : Bool) : Text := if negative then ['-'] else []

def toText : Binary64 → Text
  | nan => "NaN".toList
  | infinite negative => signText negative ++ "inf".toList
  | finite negative rank => signText negative ++ (shortestDecimal rank).toText

end CellCheck.Binary64
