import CellCheck.Value.Basic
import CellCheck.Text.Word

/-!
# Reading values

The first characters of the trimmed text choose the form: `&` a reference, `0x` hexadecimal
digits, `{` an object, `[` an array, and digits alone an integer. Reading never fails.
-/

namespace CellCheck.Value

/-- A number that fits into 64 bits. -/
def word? (n : Nat) : Option UInt64 := if n < UInt64.size then some (UInt64.ofNat n) else none

/-- The value of a literal form, where the form starts as `s` does. -/
def literalForm? (s : Text) : Option Value :=
  match s with
  | '&' :: target =>
    if Text.isWord (Text.trim target) then
      some (reference (String.ofList (Text.trim target)))
    else none
  | '0' :: 'x' :: digits => ((Numeral.readHexadecimal? digits).bind word?).map hex
  | '{' :: _ => (Literal.objectOfText s).toOption.map object
  | '[' :: _ => (Literal.arrayOfText s).toOption.map array
  | _ => ((Numeral.readDecimal? s).bind word?).map int

/-- The text starts like one of the literal forms. -/
def startsForm (s : Text) : Bool :=
  match s with
  | '&' :: _ | '0' :: 'x' :: _ | '{' :: _ | '[' :: _ => true
  | _ => Numeral.isDigits s

def ofText (s : Text) : Value :=
  let form := s.trim
  if startsForm form then (literalForm? form).getD (raw (String.ofList form))
  else text (String.ofList form)

end CellCheck.Value
