import CellCheck.Binary64.Nearest
import Mathlib.Tactic.Positivity

/-!
# Rounding quotients

The rank nearest to a quotient does not change when the quotient is extended, it is zero for a
quotient below half the least positive number, and it is the rank of a magnitude for the magnitude
itself.
-/

namespace CellCheck.Binary64

theorem divideToEven_mul_right (a b : Nat) {k : Nat} (hk : 0 < k) :
    divideToEven (a * k) (b * k) = divideToEven a b := by
  have hmul : 2 * (a * k % (b * k)) = 2 * (a % b) * k := by
    rw [Nat.mul_mod_mul_right, Nat.mul_assoc]
  have hlt : b * k < 2 * (a % b) * k ↔ b < 2 * (a % b) := Nat.mul_lt_mul_right hk
  have heq : b * k = 2 * (a % b) * k ↔ b = 2 * (a % b) :=
    ⟨Nat.eq_of_mul_eq_mul_right hk, fun h => by rw [← h]⟩
  simp only [divideToEven, hmul, Nat.mul_div_mul_right a b hk, hlt, Bool.or_eq_true,
    Bool.and_eq_true, beq_iff_eq, decide_eq_true_eq, heq]

theorem divideToEven_mul_self (a : Nat) {k : Nat} (hk : 0 < k) : divideToEven (a * k) k = a := by
  have hmod : a * k % k = 0 := Nat.mul_mod_left a k
  simp [divideToEven, Nat.mul_div_cancel a hk, hmod, hk.ne']

theorem divideToEven_eq_zero {a b : Nat} (h : 2 * a < b) : divideToEven a b = 0 := by
  have hlt : a < b := by omega
  have hnot : ¬ b < 2 * a := by omega
  have hne : ¬ b = 2 * a := by omega
  simp [divideToEven, Nat.div_eq_of_lt hlt, Nat.mod_eq_of_lt hlt, hnot]

theorem nearestRank_eq {a b e : Nat} (h : Nat.log2 (a * 2 ^ 1074 / b) - 52 = e) :
    nearestRank a b = e * 2 ^ 52 + divideToEven (a * 2 ^ 1074) (b * 2 ^ e) := by
  subst h
  rfl

theorem nearestRank_mul_right (a b : Nat) {k : Nat} (hk : 0 < k) :
    nearestRank (a * k) (b * k) = nearestRank a b := by
  have hexponent : a * k * 2 ^ 1074 / (b * k) = a * 2 ^ 1074 / b := by
    rw [Nat.mul_right_comm, Nat.mul_div_mul_right _ _ hk]
  have hround (e : Nat) : divideToEven (a * k * 2 ^ 1074) (b * k * 2 ^ e) =
      divideToEven (a * 2 ^ 1074) (b * 2 ^ e) := by
    rw [Nat.mul_right_comm, Nat.mul_right_comm b k, divideToEven_mul_right _ _ hk]
  rw [nearestRank_eq rfl, hexponent, hround, nearestRank_eq rfl]

theorem nearestRank_eq_zero {a b : Nat} (h : 2 * (a * 2 ^ 1074) < b) : nearestRank a b = 0 := by
  have hlt : a * 2 ^ 1074 < b := by
    generalize a * 2 ^ 1074 = c at h ⊢
    omega
  have hexponent : Nat.log2 (a * 2 ^ 1074 / b) - 52 = 0 := by
    rw [Nat.div_eq_of_lt hlt, Nat.log2_zero]
  rw [nearestRank_eq hexponent, Nat.zero_mul, Nat.zero_add, Nat.pow_zero, Nat.mul_one]
  exact divideToEven_eq_zero h

theorem magnitude_of_lt {rank : Nat} (h : rank < 2 ^ 53) : magnitude rank = rank := if_pos h

theorem magnitude_of_le {rank : Nat} (h : 2 ^ 53 ≤ rank) :
    magnitude rank = (rank % 2 ^ 52 + 2 ^ 52) * 2 ^ (rank / 2 ^ 52 - 1) := if_neg (Nat.not_lt.2 h)

/-- The magnitude of a normal rank has 53 bits before its zeros. -/
theorem log2_magnitude {rank : Nat} (h : 2 ^ 53 ≤ rank) :
    Nat.log2 (magnitude rank) = 52 + (rank / 2 ^ 52 - 1) := by
  have hfraction : rank % 2 ^ 52 < 2 ^ 52 := Nat.mod_lt _ (by decide)
  rw [magnitude_of_le h]
  generalize rank / 2 ^ 52 - 1 = e
  generalize rank % 2 ^ 52 = fraction at hfraction
  have hpow : 0 < 2 ^ e := Nat.pow_pos (by decide)
  have hne : (fraction + 2 ^ 52) * 2 ^ e ≠ 0 := by positivity
  rw [Nat.log2_eq_iff hne]
  constructor
  · rw [Nat.pow_add]
    exact Nat.mul_le_mul_right _ (by omega)
  · rw [show 52 + e + 1 = 53 + e by omega, Nat.pow_add]
    exact Nat.mul_lt_mul_of_pos_right (by omega) hpow

theorem nearestRank_magnitude (rank : Nat) : nearestRank (magnitude rank) (2 ^ 1074) = rank := by
  have hunit : 0 < 2 ^ 1074 := by positivity
  have hquotient : magnitude rank * 2 ^ 1074 / 2 ^ 1074 = magnitude rank :=
    Nat.mul_div_cancel _ hunit
  by_cases h : rank < 2 ^ 53
  · have hmagnitude : magnitude rank = rank := magnitude_of_lt h
    have hexponent : Nat.log2 (magnitude rank * 2 ^ 1074 / 2 ^ 1074) - 52 = 0 := by
      rw [hquotient, hmagnitude]
      by_cases hzero : rank = 0
      · rw [hzero, Nat.log2_zero]
      · have := (Nat.log2_lt hzero).2 h
        omega
    rw [nearestRank_eq hexponent, Nat.zero_mul, Nat.zero_add, Nat.pow_zero, Nat.mul_one,
      divideToEven_mul_self _ hunit, hmagnitude]
  · have hexponent : Nat.log2 (magnitude rank * 2 ^ 1074 / 2 ^ 1074) - 52 =
        rank / 2 ^ 52 - 1 := by
      rw [hquotient, log2_magnitude (by omega)]
      omega
    have hpow : 0 < 2 ^ 1074 * 2 ^ (rank / 2 ^ 52 - 1) :=
      Nat.mul_pos hunit (Nat.two_pow_pos _)
    have hproduct : magnitude rank * 2 ^ 1074 =
        (rank % 2 ^ 52 + 2 ^ 52) * (2 ^ 1074 * 2 ^ (rank / 2 ^ 52 - 1)) := by
      rw [magnitude_of_le (Nat.not_lt.1 h), Nat.mul_right_comm, Nat.mul_assoc]
    rw [nearestRank_eq hexponent, hproduct, divideToEven_mul_self _ hpow]
    omega

end CellCheck.Binary64
