import CellCheck.Text.Basic

/-!
# Numerals

Natural numbers in decimal and hexadecimal digits. Reading asks for at least one digit and allows
leading zeros; printing writes none.
-/

namespace CellCheck.Numeral

def decimal (n : Nat) : Text := Nat.toDigits 10 n

/-- The text consists of one or more decimal digits. -/
def isDigits (s : Text) : Bool := !s.isEmpty && s.all Char.isDigit

def readDecimal? (s : Text) : Option Nat :=
  if isDigits s then some (Nat.ofDigitChars 10 s 0) else none

/-- Hexadecimal digits are printed in upper case. -/
def hexadecimal (n : Nat) : Text := (Nat.toDigits 16 n).map Char.toUpper

def isHexDigit (c : Char) : Bool :=
  c.isDigit || ('a' ≤ c && c ≤ 'f') || ('A' ≤ c && c ≤ 'F')

def hexDigitValue (c : Char) : Nat :=
  if c.isDigit then c.toNat - '0'.toNat
  else if 'a' ≤ c then c.toNat - 'a'.toNat + 10
  else c.toNat - 'A'.toNat + 10

/-- Hexadecimal digits are read in either case. -/
def readHexadecimal? (s : Text) : Option Nat :=
  if !s.isEmpty && s.all isHexDigit then
    some (s.foldl (fun n c => n * 16 + hexDigitValue c) 0)
  else none

theorem readDecimal?_decimal (n : Nat) : readDecimal? (decimal n) = some n := by
  have hne : Nat.toDigits 10 n ≠ [] := Nat.toDigits_ne_nil
  have hall : (Nat.toDigits 10 n).all Char.isDigit = true :=
    List.all_eq_true.2 fun c hc => Nat.isDigit_of_mem_toDigits (by decide) (by decide) hc
  simp [readDecimal?, isDigits, decimal, hne, hall]

/-- A decimal numeral whose value is below the bound. -/
def readBelow? (bound : Nat) (s : Text) : Option Nat :=
  (readDecimal? s).filter fun n => n < bound

theorem readBelow?_decimal {bound n : Nat} (h : n < bound) :
    readBelow? bound (decimal n) = some n := by
  simp [readBelow?, readDecimal?_decimal, h]

end CellCheck.Numeral
