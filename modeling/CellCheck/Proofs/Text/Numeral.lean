import CellCheck.Proofs.Text
import Mathlib.Data.List.Induction
import Mathlib.Data.Nat.Digits.Defs

/-!
# What numerals stand for

A numeral consists of one or more digits, the most significant one first. Any number of zeros may
stand at its front, and a digit that is a letter may be written in either case.
-/

namespace CellCheck.Numeral

/-- The value of a digit, and sixteen for a character that is none. -/
def digitValue (c : Char) : Nat := "0123456789abcdef".toList.idxOf c.toLower

structure Writes (base : Nat) (s : Text) (n : Nat) : Prop where
  ne_nil : s ≠ []
  digits : ∀ c ∈ s, digitValue c < base
  value : Nat.ofDigits base (s.reverse.map digitValue) = n

section Digits

variable {c : Char}

/-- What the two notions of a digit say about ASCII characters, found by going through them. -/
theorem digits_of_ascii : ∀ n < 128,
    (Char.isDigit (Char.ofNat n) ↔ digitValue (Char.ofNat n) < 10) ∧
    (isHexDigit (Char.ofNat n) ↔ digitValue (Char.ofNat n) < 16) ∧
    (digitValue (Char.ofNat n) < 16 →
      hexDigitValue (Char.ofNat n) = digitValue (Char.ofNat n)) := by
  decide +kernel

theorem digits_of_not_ascii (h : 128 ≤ c.toNat) :
    c.isDigit = false ∧ isHexDigit c = false ∧ digitValue c = 16 := by
  have hle {d : Char} (hd : d.toNat < 128) : ¬ c ≤ d := by
    intro hcd
    have hnat : c.toNat ≤ d.toNat := hcd
    omega
  have hdigit : c.isDigit = false := by
    rw [Bool.eq_false_iff, ne_eq, Char.isDigit_iff_toNat]
    exact fun hrange => hle (d := '9') (by decide) hrange.2
  have hlower : c.toLower = c := dif_neg fun hrange => hle (d := 'Z') (by decide) hrange.2
  have hmem : c ∉ "0123456789abcdef".toList := by
    intro hc
    have hall : "0123456789abcdef".toList.all (fun d => d.toNat < 128) := by decide +kernel
    have hlt : c.toNat < 128 := of_decide_eq_true (List.all_eq_true.1 hall c hc)
    omega
  refine ⟨hdigit, ?_, ?_⟩
  · simp only [isHexDigit, hdigit, hle (d := 'f') (by decide), hle (d := 'F') (by decide),
      decide_false, Bool.and_false, Bool.or_false]
  · rw [digitValue, hlower, List.idxOf_of_notMem hmem]
    rfl

theorem isDigit_iff : c.isDigit ↔ digitValue c < 10 := by
  by_cases h : c.toNat < 128
  · rw [← Char.ofNat_toNat c]
    exact (digits_of_ascii c.toNat h).1
  · obtain ⟨hdigit, -, hvalue⟩ := digits_of_not_ascii (Nat.not_lt.1 h)
    simp [hdigit, hvalue]

theorem isHexDigit_iff : isHexDigit c ↔ digitValue c < 16 := by
  by_cases h : c.toNat < 128
  · rw [← Char.ofNat_toNat c]
    exact (digits_of_ascii c.toNat h).2.1
  · obtain ⟨-, hdigit, hvalue⟩ := digits_of_not_ascii (Nat.not_lt.1 h)
    simp [hdigit, hvalue]

theorem hexDigitValue_eq (hc : digitValue c < 16) : hexDigitValue c = digitValue c := by
  by_cases h : c.toNat < 128
  · rw [← Char.ofNat_toNat c] at hc ⊢
    exact (digits_of_ascii c.toNat h).2.2 hc
  · obtain ⟨-, -, hvalue⟩ := digits_of_not_ascii (Nat.not_lt.1 h)
    omega

end Digits

section Readers

variable {s : Text} {n bound : Nat}

/-- A left fold over the digits adds them up to the value of the numeral. -/
theorem foldl_eq_ofDigits {base : Nat} {value : Char → Nat}
    (h : ∀ c ∈ s, value c = digitValue c) :
    s.foldl (fun n c => base * n + value c) 0 = Nat.ofDigits base (s.reverse.map digitValue) := by
  induction s using List.reverseRecOn with
  | nil => rfl
  | append_singleton s c ih =>
    have hc : value c = digitValue c := h c (by simp)
    rw [List.foldl_append, ih fun d hd => h d (List.mem_append_left _ hd), List.reverse_concat,
      List.map_cons, Nat.ofDigits_cons, Nat.add_comm, ← hc]
    rfl

theorem isDigits_iff : isDigits s ↔ s ≠ [] ∧ ∀ c ∈ s, c.isDigit := by
  simp [isDigits]

theorem readDecimal?_eq_some_iff : readDecimal? s = some n ↔ Writes 10 s n := by
  rw [readDecimal?]
  split_ifs with h
  · obtain ⟨hne, hall⟩ := isDigits_iff.1 h
    have hdigits : ∀ c ∈ s, digitValue c < 10 := fun c hc => isDigit_iff.1 (hall c hc)
    have hvalue : Nat.ofDigitChars 10 s 0 = Nat.ofDigits 10 (s.reverse.map digitValue) := by
      refine foldl_eq_ofDigits fun c hc => ?_
      have hlt := hdigits c hc
      rw [← hexDigitValue_eq (by omega), hexDigitValue, if_pos (hall c hc)]
    rw [Option.some.injEq, hvalue]
    exact ⟨fun hn => ⟨hne, hdigits, hn⟩, fun hn => hn.value⟩
  · constructor
    · intro hn
      cases hn
    · intro hn
      exact absurd (isDigits_iff.2 ⟨hn.ne_nil, fun c hc => isDigit_iff.2 (hn.digits c hc)⟩) h

theorem readHexadecimal?_eq_some_iff : readHexadecimal? s = some n ↔ Writes 16 s n := by
  have hcheck : (!s.isEmpty && s.all isHexDigit) = true ↔ s ≠ [] ∧ ∀ c ∈ s, digitValue c < 16 := by
    simp [← isHexDigit_iff]
  rw [readHexadecimal?]
  split_ifs with h
  · obtain ⟨hne, hdigits⟩ := hcheck.1 h
    have hvalue : s.foldl (fun n c => n * 16 + hexDigitValue c) 0 =
        Nat.ofDigits 16 (s.reverse.map digitValue) := by
      simp only [Nat.mul_comm _ 16]
      exact foldl_eq_ofDigits fun c hc => hexDigitValue_eq (hdigits c hc)
    rw [Option.some.injEq, hvalue]
    exact ⟨fun hn => ⟨hne, hdigits, hn⟩, fun hn => hn.value⟩
  · constructor
    · intro hn
      cases hn
    · intro hn
      exact absurd (hcheck.2 ⟨hn.ne_nil, hn.digits⟩) h

theorem readBelow?_eq_some_iff : readBelow? bound s = some n ↔ Writes 10 s n ∧ n < bound := by
  rw [readBelow?, Option.filter_eq_some_iff, readDecimal?_eq_some_iff, decide_eq_true_iff]

theorem writes_decimal (n : Nat) : Writes 10 (decimal n) n :=
  readDecimal?_eq_some_iff.1 (readDecimal?_decimal n)

theorem isDigits_of_writes (h : Writes 10 s n) : isDigits s :=
  isDigits_iff.2 ⟨h.ne_nil, fun c hc => isDigit_iff.2 (h.digits c hc)⟩

theorem Writes.isWord (h : Writes 10 s n) : Text.isWord s :=
  Text.isWord_iff.2 ⟨h.ne_nil, fun c hc =>
    Text.isWordChar_of_isDigit (isDigit_iff.2 (h.digits c hc))⟩

end Readers

end CellCheck.Numeral
