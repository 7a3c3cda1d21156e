import CellCheck.Text.Numeral

/-!
# Terminal styles

A styled text stands between escape sequences, one for each style that it opens and closes.
-/

namespace CellCheck

inductive Style where
  | bold
  | underline
  | red
  | green
  | yellow
  | blue
  | magenta
  | cyan
  deriving DecidableEq, Repr

namespace Style

def openingCode : Style → Nat
  | bold => 1
  | underline => 4
  | red => 31
  | green => 32
  | yellow => 33
  | blue => 34
  | magenta => 35
  | cyan => 36

/-- All colours are closed by the same code. -/
def closingCode : Style → Nat
  | bold => 22
  | underline => 24
  | _ => 39

def escape (code : Nat) : Text := '\x1b' :: '[' :: Numeral.decimal code ++ ['m']

/-- The text between the opening and the closing sequences, both in the order of the styles. -/
def apply (styles : List Style) (s : Text) : Text :=
  styles.flatMap (fun style => escape style.openingCode) ++ s ++
    styles.flatMap fun style => escape style.closingCode

end Style

end CellCheck
