import CellCheck.Text.Unprintable

/-!
# Quoted texts

A text between double quotes on one line of printable characters. The quote, the backslash and
four control characters have short escapes; any other unprintable character is written by its
code point.
-/

namespace CellCheck.Text

def escapeChar (c : Char) : Text :=
  match c with
  | '\x00' => ['\\', '0']
  | '\t' => ['\\', 't']
  | '\r' => ['\\', 'r']
  | '\n' => ['\\', 'n']
  | '"' => ['\\', '"']
  | '\\' => ['\\', '\\']
  | c => if isUnprintable c then "\\u\x7b".toList ++ Nat.toDigits 16 c.toNat ++ ['}'] else [c]

def quoted (s : Text) : Text := '"' :: s.flatMap escapeChar ++ ['"']

end CellCheck.Text
