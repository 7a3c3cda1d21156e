import CellCheck.Binary64.Basic

/-!
# Rounding to the nearest number

The quotient of two natural numbers is rounded to the nearest magnitude, a tie to the even rank.
Decimals are read through this rounding.
-/

namespace CellCheck.Binary64

/-- The quotient rounded to the nearest natural number, a half to the even one. -/
def divideToEven (numerator denominator : Nat) : Nat :=
  let quotient := numerator / denominator
  let twice := 2 * (numerator % denominator)
  if denominator < twice || (denominator == twice && quotient % 2 == 1) then quotient + 1
  else quotient

/-- The rank of the magnitude nearest to a quotient, where ranks go on past the finite ones. The
exponent is chosen so that the rounded quotient keeps 53 bits; rounding up to 54 bits then is the
first rank of the next exponent. -/
def nearestRank (numerator denominator : Nat) : Nat :=
  let units := numerator * Nat.pow 2 1074
  let exponent := Nat.log2 (units / denominator) - 52
  exponent * Nat.pow 2 52 + divideToEven units (denominator * Nat.pow 2 exponent)

def ofRank (negative : Bool) (rank : Nat) : Binary64 :=
  if h : rank < magnitudeCount then finite negative ⟨rank, h⟩ else infinite negative

/-- The number nearest to `digits * 10 ^ exponent`. Decimals that are surely too big or too small
are decided before their powers of ten are formed. -/
def ofDecimal (negative : Bool) (digits : Nat) (exponent : Int) : Binary64 :=
  if digits = 0 then ofRank negative 0
  else
    match exponent with
    | .ofNat up =>
      if 400 ≤ up then infinite negative
      else ofRank negative (nearestRank (digits * Nat.pow 10 up) 1)
    | .negSucc n =>
      if digits.log2 + 1076 ≤ 3 * (n + 1) then ofRank negative 0
      else ofRank negative (nearestRank digits (Nat.pow 10 (n + 1)))

end CellCheck.Binary64
