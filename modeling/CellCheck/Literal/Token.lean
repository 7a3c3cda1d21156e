import CellCheck.Text.Quoted

/-!
# Tokens of a literal

A token has a kind and the column, in bytes, at which it starts.
-/

namespace CellCheck

inductive TokenKind where
  | colon
  | comma
  | openBracket
  | closeBracket
  | openBrace
  | closeBrace
  | quoted (content : String)
  | bare (content : String)
  | error (message : String)
  deriving DecidableEq, Repr

structure Token where
  kind : TokenKind
  column : Nat
  deriving DecidableEq, Repr

namespace TokenKind

/-- The token of a character that stands for itself everywhere outside quotes. -/
def ofStructural? : Char → Option TokenKind
  | ':' => some colon
  | ',' => some comma
  | '[' => some openBracket
  | ']' => some closeBracket
  | '{' => some openBrace
  | '}' => some closeBrace
  | _ => none

def describe : TokenKind → Text
  | colon => "Colon".toList
  | comma => "Comma".toList
  | openBracket => "LBracket".toList
  | closeBracket => "RBracket".toList
  | openBrace => "LCurly".toList
  | closeBrace => "RCurly".toList
  | quoted content => "Text(".toList ++ Text.quoted content.toList ++ [')']
  | bare content => "Bare(".toList ++ Text.quoted content.toList ++ [')']
  | error message => "Error(".toList ++ Text.quoted message.toList ++ [')']

end TokenKind

def Token.describe (t : Token) : Text :=
  t.kind.describe ++ " at column ".toList ++ Nat.toDigits 10 t.column

end CellCheck
