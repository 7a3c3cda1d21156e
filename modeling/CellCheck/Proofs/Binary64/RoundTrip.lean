import CellCheck.Binary64.Numeral
import CellCheck.Binary64.Shortest
import CellCheck.Proofs.Binary64.Rounding
import CellCheck.Proofs.Traversal

/-!
# Printed numbers read back

A decimal in positional notation is read as the number nearest to its value, and the shortest
decimal of a finite number has that number nearest to it. Hence the text of a finite number is
read as the number itself.
-/

namespace CellCheck.Binary64

/-- A whole part and the digits of a fraction, with a point only if there is a fraction. -/
def pointed (whole : Text) : Text → Text
  | [] => whole
  | fraction => whole ++ '.' :: fraction

theorem readSign_signText {body : Text} (h : ∀ c ∈ body.head?, c.isDigit) (negative : Bool) :
    readSign (signText negative ++ body) = (negative, body) := by
  cases negative with
  | true => rfl
  | false =>
    cases body with
    | nil => rfl
    | cons c rest =>
      have hdigit : c.isDigit := h c rfl
      have hminus : c ≠ '-' := by rintro rfl; exact absurd hdigit (by decide)
      have hplus : c ≠ '+' := by rintro rfl; exact absurd hdigit (by decide)
      simp [signText, readSign, hminus, hplus]

theorem splitDigits_append {digits rest : Text} (hdigits : ∀ c ∈ digits, c.isDigit)
    (hrest : ∀ c ∈ rest.head?, ¬ c.isDigit) : splitDigits (digits ++ rest) = (digits, rest) := by
  obtain ⟨htake, hdrop⟩ := takeWhile_dropWhile_append hdigits fun c hc => by simpa using hrest c hc
  rw [splitDigits, htake, hdrop]

theorem splitDigits_self {digits : Text} (hdigits : ∀ c ∈ digits, c.isDigit) :
    splitDigits digits = (digits, []) := by
  simpa using @splitDigits_append digits [] hdigits (by simp)

theorem readDecimal?_of_digits {digits : Text} (hne : digits ≠ [])
    (hdigits : ∀ c ∈ digits, c.isDigit) :
    Numeral.readDecimal? digits = some (Nat.ofDigitChars 10 digits 0) := by
  rw [Numeral.readDecimal?, if_pos]
  simp only [Numeral.isDigits, Bool.and_eq_true, Bool.not_eq_true', List.isEmpty_eq_false_iff,
    List.all_eq_true]
  exact ⟨hne, hdigits⟩

theorem ofText?_pointed (negative : Bool) {whole fraction : Text} (hne : whole ≠ [])
    (hwhole : ∀ c ∈ whole, c.isDigit) (hfraction : ∀ c ∈ fraction, c.isDigit) :
    ofText? (signText negative ++ pointed whole fraction) =
      some (ofDecimal negative (Nat.ofDigitChars 10 (whole ++ fraction) 0)
        (-(fraction.length : Int))) := by
  have hdigits : ∀ c ∈ whole ++ fraction, c.isDigit := by
    intro c hc
    exact (List.mem_append.1 hc).elim (hwhole c) (hfraction c)
  have hread := readDecimal?_of_digits (List.append_ne_nil_of_left_ne_nil hne fraction) hdigits
  have hhead : ∀ rest : Text, ∀ c ∈ (whole ++ rest).head?, c.isDigit := by
    obtain ⟨d, digits, rfl⟩ := List.exists_cons_of_ne_nil hne
    intro rest c hc
    obtain rfl : d = c := by simpa using hc
    exact hwhole d (by simp)
  cases fraction with
  | nil =>
    have hsign : readSign (signText negative ++ whole) = (negative, whole) :=
      readSign_signText (by simpa using hhead []) negative
    rw [List.append_nil] at hread ⊢
    simp [ofText?, pointed, hsign, splitDigits_self hwhole, splitFraction, hread, readExponent?]
  | cons d digits =>
    have hsign := readSign_signText (hhead ('.' :: d :: digits)) negative
    have hsplit : splitDigits (whole ++ '.' :: d :: digits) = (whole, '.' :: d :: digits) :=
      splitDigits_append hwhole (by simp)
    simp only [ofText?, pointed, hsign, hsplit, splitFraction, splitDigits_self hfraction, hread,
      readExponent?, Int.zero_sub]

/-- Shortcuts for very small numbers aside, a numeral with a fraction is rounded as a quotient. -/
theorem ofDecimal_neg (negative : Bool) (digits places : Nat) :
    ofDecimal negative digits (-(places : Int)) =
      ofRank negative (nearestRank digits (10 ^ places)) := by
  unfold ofDecimal
  split_ifs with hzero
  · rw [hzero, nearestRank_eq_zero]
    rw [Nat.zero_mul, Nat.mul_zero]
    exact Nat.pow_pos (by decide)
  · cases places with
    | zero => simp
    | succ n =>
      rw [show -((n + 1 : Nat) : Int) = Int.negSucc n from rfl]
      dsimp only
      split_ifs with hsmall
      · have hdigits : digits < 2 ^ (digits.log2 + 1) := Nat.lt_log2_self
        have hquotient : 2 * (digits * 2 ^ 1074) < 10 ^ (n + 1) := by
          calc 2 * (digits * 2 ^ 1074) = digits * 2 ^ 1075 := by
                rw [Nat.mul_left_comm, ← Nat.pow_succ']
            _ < 2 ^ (digits.log2 + 1) * 2 ^ 1075 :=
                Nat.mul_lt_mul_of_pos_right hdigits (by positivity)
            _ = 2 ^ (digits.log2 + 1076) := by rw [← Nat.pow_add]
            _ ≤ 2 ^ (3 * (n + 1)) := Nat.pow_le_pow_right (by decide) hsmall
            _ = 8 ^ (n + 1) := by rw [Nat.pow_mul]
            _ ≤ 10 ^ (n + 1) := Nat.pow_le_pow_left (by decide) _
        rw [nearestRank_eq_zero hquotient]
      · rfl

theorem eq_withoutTrailingZeros_append (s : Text) :
    ∃ zeros, s = withoutTrailingZeros s ++ List.replicate zeros '0' := by
  refine ⟨(s.reverse.takeWhile (· == '0')).length, ?_⟩
  have hzeros : s.reverse.takeWhile (· == '0') =
      List.replicate (s.reverse.takeWhile (· == '0')).length '0' := by
    refine List.eq_replicate_iff.2 ⟨rfl, ?_⟩
    intro c hc
    simpa using List.all_eq_true.1 (List.all_takeWhile (p := (· == '0')) (l := s.reverse)) c hc
  have hsplit := List.takeWhile_append_dropWhile (p := (· == '0')) (l := s.reverse)
  rw [← List.reverse_inj, List.reverse_append, withoutTrailingZeros, List.reverse_reverse,
    List.reverse_replicate, ← hzeros, hsplit]

theorem isDigit_of_mem_decimal {n : Nat} {c : Char} (h : c ∈ Numeral.decimal n) : c.isDigit :=
  Nat.isDigit_of_mem_toDigits (by decide) (by decide) h

theorem ofDigitChars_decimal (n : Nat) : Nat.ofDigitChars 10 (Numeral.decimal n) 0 = n :=
  Nat.ofDigitChars_ten_toDigits

theorem ofDigitChars_decimal_append_leftpad (whole fraction : Nat) {places : Nat}
    (h : (Numeral.decimal fraction).length ≤ places) :
    Nat.ofDigitChars 10
        (Numeral.decimal whole ++ (Numeral.decimal fraction).leftpad places '0') 0 =
      10 ^ places * whole + fraction := by
  rw [Nat.ofDigitChars_append, ofDigitChars_decimal, Nat.ofDigitChars_eq_ofDigitChars_zero,
    List.length_leftpad, max_eq_left h, List.leftpad, Nat.ofDigitChars_append,
    Nat.ofDigitChars_replicate_zero, Nat.mul_zero, ofDigitChars_decimal]

theorem positional_eq (digits places : Nat) :
    positional digits places = pointed (Numeral.decimal (digits / 10 ^ places))
      (withoutTrailingZeros ((Numeral.decimal (digits % 10 ^ places)).leftpad places '0')) := by
  show (match withoutTrailingZeros
      ((Numeral.decimal (digits % 10 ^ places)).leftpad places '0') with
    | [] => Numeral.decimal (digits / 10 ^ places)
    | fraction => Numeral.decimal (digits / 10 ^ places) ++ '.' :: fraction) = _
  cases withoutTrailingZeros ((Numeral.decimal (digits % 10 ^ places)).leftpad places '0') <;> rfl

theorem positional_eq_pointed (digits places : Nat) :
    ∃ fraction zeros, positional digits places =
        pointed (Numeral.decimal (digits / 10 ^ places)) fraction ∧
      (∀ c ∈ fraction, c.isDigit) ∧ fraction.length + zeros = places ∧
      Nat.ofDigitChars 10 (Numeral.decimal (digits / 10 ^ places) ++ fraction) 0 * 10 ^ zeros =
        digits := by
  by_cases hplaces : places = 0
  · subst hplaces
    refine ⟨[], 0, ?_, by simp, rfl, ?_⟩
    · rw [positional_eq, Nat.pow_zero, Nat.mod_one]
      rfl
    · rw [List.append_nil, Numeral.decimal, Nat.ofDigitChars_ten_toDigits, Nat.pow_zero,
        Nat.mul_one, Nat.div_one]
  · have hpow : 0 < 10 ^ places := Nat.pow_pos (by decide)
    have hlt : digits % 10 ^ places < 10 ^ places := Nat.mod_lt _ hpow
    have hlength : (Numeral.decimal (digits % 10 ^ places)).length ≤ places :=
      (Nat.length_toDigits_le_iff (by decide) (by omega)).2 hlt
    obtain ⟨zeros, hzeros⟩ := eq_withoutTrailingZeros_append
      ((Numeral.decimal (digits % 10 ^ places)).leftpad places '0')
    set fraction := withoutTrailingZeros
      ((Numeral.decimal (digits % 10 ^ places)).leftpad places '0') with hfraction
    have hdigit : ∀ c ∈ fraction, c.isDigit := by
      intro c hc
      have hmem := hzeros ▸ List.mem_append_left (List.replicate zeros '0') hc
      rcases List.mem_append.1 hmem with hpad | hdecimal
      · rw [List.eq_of_mem_replicate hpad]
        decide
      · exact isDigit_of_mem_decimal hdecimal
    have hcount : fraction.length + zeros = places := by
      have hsize := congrArg List.length hzeros
      rw [List.length_leftpad, List.length_append, List.length_replicate] at hsize
      omega
    have hvalue : Nat.ofDigitChars 10 (Numeral.decimal (digits / 10 ^ places) ++
        (Numeral.decimal (digits % 10 ^ places)).leftpad places '0') 0 = digits := by
      rw [ofDigitChars_decimal_append_leftpad _ _ hlength, Nat.div_add_mod]
    refine ⟨fraction, zeros, positional_eq digits places, hdigit, hcount, ?_⟩
    rw [hzeros, ← List.append_assoc, Nat.ofDigitChars_append,
      Nat.ofDigitChars_replicate_zero] at hvalue
    rw [Nat.mul_comm, hvalue]

theorem Decimal.units_eq (d : Decimal) : d.units = d.digits * 10 ^ d.zeros := rfl

theorem Decimal.toText_eq_pointed (d : Decimal) :
    ∃ whole fraction, d.toText = pointed whole fraction ∧ whole ≠ [] ∧
      (∀ c ∈ whole, c.isDigit) ∧ (∀ c ∈ fraction, c.isDigit) ∧
      Nat.ofDigitChars 10 (whole ++ fraction) 0 * 10 ^ decimalPlaces =
        d.units * 10 ^ fraction.length := by
  by_cases h : d.zeros ≤ decimalPlaces
  · obtain ⟨fraction, zeros, htext, hdigits, hcount, hvalue⟩ :=
      positional_eq_pointed d.digits (decimalPlaces - d.zeros)
    refine ⟨Numeral.decimal (d.digits / 10 ^ (decimalPlaces - d.zeros)), fraction, ?_,
      Nat.toDigits_ne_nil, fun c => isDigit_of_mem_decimal, hdigits, ?_⟩
    · rw [toText, if_pos h, htext]
    · have hplaces : decimalPlaces = zeros + (d.zeros + fraction.length) := by omega
      rw [hplaces, Nat.pow_add, ← Nat.mul_assoc, ← hplaces, hvalue, Decimal.units_eq, Nat.pow_add,
        Nat.mul_assoc]
  · refine ⟨Numeral.decimal (d.digits * 10 ^ (d.zeros - decimalPlaces)), [], ?_,
      Nat.toDigits_ne_nil, fun c => isDigit_of_mem_decimal, by simp, ?_⟩
    · rw [toText, if_neg h]
      rfl
    · have hzeros : d.zeros = d.zeros - decimalPlaces + decimalPlaces := by omega
      rw [List.append_nil, ofDigitChars_decimal, Decimal.units_eq,
        List.length_nil, Nat.pow_zero, Nat.mul_one, Nat.mul_assoc, ← Nat.pow_add, ← hzeros]

/-- A printed decimal is read as the number nearest to it. -/
theorem ofText?_decimal (negative : Bool) (d : Decimal) :
    ofText? (signText negative ++ d.toText) =
      some (ofRank negative (nearestRank d.units (10 ^ decimalPlaces))) := by
  obtain ⟨whole, fraction, htext, hne, hwhole, hfraction, hvalue⟩ := d.toText_eq_pointed
  have hpow (n : Nat) : 0 < 10 ^ n := Nat.pow_pos (by decide)
  rw [htext, ofText?_pointed negative hne hwhole hfraction, ofDecimal_neg,
    ← nearestRank_mul_right _ _ (hpow decimalPlaces), hvalue, Nat.mul_comm (10 ^ fraction.length),
    nearestRank_mul_right _ _ (hpow fraction.length)]

theorem reads_of_pick? {reads : Decimal → Bool} {exact : Nat} {low high d : Decimal}
    (h : pick? reads exact low high = some d) : reads d := by
  unfold pick? at h
  split at h
  · next hlow hhigh =>
    obtain rfl := Option.some.inj h
    split
    · exact hlow
    · exact hhigh
  · next hlow _ =>
    obtain rfl := Option.some.inj h
    exact hlow
  · next hhigh =>
    obtain rfl := Option.some.inj h
    exact hhigh
  · cases h

theorem readsBack_iff {rank : Nat} {d : Decimal} :
    readsBack rank d ↔ nearestRank d.units (10 ^ decimalPlaces) = rank := beq_iff_eq

/-- The exact magnitude reads back. -/
theorem readsBack_exactUnits (rank : Nat) : readsBack rank ⟨exactUnits rank, 0⟩ := by
  have hmagnitude : nearestRank (magnitude rank) (2 ^ decimalPlaces) = rank :=
    nearestRank_magnitude rank
  have hunits : Decimal.units ⟨exactUnits rank, 0⟩ = magnitude rank * 5 ^ decimalPlaces := by
    rw [Decimal.units_eq, Nat.pow_zero, Nat.mul_one]
    rfl
  have hten : 10 ^ decimalPlaces = 2 ^ decimalPlaces * 5 ^ decimalPlaces := by
    rw [← Nat.mul_pow]
  have hfive : 0 < 5 ^ decimalPlaces := Nat.pow_pos (by decide)
  rw [readsBack_iff, hunits, hten, nearestRank_mul_right _ _ hfive, hmagnitude]

theorem readsBack_shortestDecimal (rank : Nat) : readsBack rank (shortestDecimal rank) := by
  unfold shortestDecimal
  dsimp only
  cases hfound : (List.range 18).findSome? fun n =>
      neighbour? rank (widthBound (exactUnits rank) - (n + 1)) with
  | none =>
    rw [Option.getD_none]
    exact readsBack_exactUnits rank
  | some d =>
    rw [Option.getD_some]
    obtain ⟨n, _, hn⟩ := List.exists_of_findSome?_eq_some hfound
    rw [neighbour?] at hn
    exact reads_of_pick? hn

/-- The text of a finite number is read as that number. -/
theorem ofText?_toText (negative : Bool) (rank : Fin magnitudeCount) :
    ofText? (toText (finite negative rank)) = some (finite negative rank) := by
  have hrank : nearestRank (shortestDecimal rank).units (10 ^ decimalPlaces) = rank :=
    readsBack_iff.1 (readsBack_shortestDecimal rank)
  rw [toText, ofText?_decimal, hrank, ofRank, dif_pos rank.isLt]

theorem ofRank_ne_nan (negative : Bool) (rank : Nat) : ofRank negative rank ≠ nan := by
  unfold ofRank
  split_ifs
  · exact nofun
  · exact nofun

theorem ofDecimal_ne_nan (negative : Bool) (digits : Nat) (exponent : Int) :
    ofDecimal negative digits exponent ≠ nan := by
  unfold ofDecimal
  split_ifs
  · exact ofRank_ne_nan negative 0
  · cases exponent with
    | ofNat up =>
      dsimp only
      split_ifs
      · exact nofun
      · exact ofRank_ne_nan negative _
    | negSucc n =>
      dsimp only
      split_ifs
      · exact ofRank_ne_nan negative _
      · exact ofRank_ne_nan negative _

/-- What a numeral stands for is a number. -/
theorem ne_nan_of_ofText? {s : Text} {x : Binary64} (h : ofText? s = some x) : x ≠ nan := by
  unfold ofText? at h
  dsimp only at h
  split at h
  · rw [← Option.some.inj h]
    exact ofDecimal_ne_nan _ _ _
  · cases h

theorem mem_pointed {whole fraction : Text} {c : Char} (h : c ∈ pointed whole fraction) :
    c ∈ whole ∨ c ∈ fraction ∨ c = '.' := by
  cases fraction with
  | nil => exact .inl h
  | cons d digits =>
    simp only [pointed, List.mem_append, List.mem_cons] at h ⊢
    tauto

theorem toText_finite_ne_nil (negative : Bool) (rank : Fin magnitudeCount) :
    toText (finite negative rank) ≠ [] := by
  obtain ⟨whole, fraction, htext, hne, -⟩ := (shortestDecimal rank).toText_eq_pointed
  cases fraction <;> simp [toText, htext, pointed, hne]

theorem mem_toText_finite {negative : Bool} {rank : Fin magnitudeCount} {c : Char}
    (h : c ∈ toText (finite negative rank)) : c.isDigit ∨ c = '-' ∨ c = '.' := by
  obtain ⟨whole, fraction, htext, -, hwhole, hfraction, -⟩ :=
    (shortestDecimal rank).toText_eq_pointed
  rw [toText, htext, List.mem_append] at h
  rcases h with hsign | hbody
  · cases negative
    · cases hsign
    · exact .inr (.inl (List.mem_singleton.1 hsign))
  · rcases mem_pointed hbody with hc | hc | rfl
    · exact .inl (hwhole c hc)
    · exact .inl (hfraction c hc)
    · exact .inr (.inr rfl)

end CellCheck.Binary64
