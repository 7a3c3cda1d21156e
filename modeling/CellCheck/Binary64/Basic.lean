/-!
# Double precision numbers

A finite number is a sign and the rank of its magnitude among the finite magnitudes in ascending
order, so that zero has rank 0 and the least positive number rank 1. Magnitudes are counted in
units of the least positive number, `2 ^ (-1074)`.
-/

namespace CellCheck

namespace Binary64

/-- The number of finite magnitudes: 2047 exponents with 52 bits of fraction each. -/
def magnitudeCount : Nat := 2047 * Nat.pow 2 52

end Binary64

inductive Binary64 where
  | nan
  | infinite (negative : Bool)
  | finite (negative : Bool) (rank : Fin Binary64.magnitudeCount)
  deriving DecidableEq, Repr

namespace Binary64

/-- The magnitude of a rank in units of `2 ^ (-1074)`. Up to twice the least normal magnitude the
ranks are the magnitudes; beyond, each exponent doubles the distance between neighbours. -/
def magnitude (rank : Nat) : Nat :=
  if rank < Nat.pow 2 53 then rank
  else (rank % Nat.pow 2 52 + Nat.pow 2 52) * Nat.pow 2 (rank / Nat.pow 2 52 - 1)

def isFinite : Binary64 → Bool
  | finite _ _ => true
  | _ => false

/-- Equality of numbers: both zeros are equal, and NaN differs from everything. -/
def sameNumber : Binary64 → Binary64 → Bool
  | nan, _ => false
  | _, nan => false
  | finite negative rank, finite negative' rank' =>
    rank = rank' && (negative = negative' || rank.val = 0)
  | x, y => x = y

end Binary64

end CellCheck
