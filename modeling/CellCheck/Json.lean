import CellCheck.Text.Numeral

/-!
# JSON

The values that a report consists of, printed on one line or indented by two blanks a level.
-/

namespace CellCheck

inductive Json where
  | number (n : Nat)
  | string (s : String)
  | array (items : List Json)
  | object (fields : List (String × Json))

namespace Json

/-- Four hexadecimal digits. -/
def codePoint (c : Char) : Text := (Nat.toDigits 16 c.toNat).leftpad 4 '0'

/-- Only quotes, backslashes and the control characters below U+0020 are escaped. -/
def escapeChar (c : Char) : Text :=
  match c with
  | '"' => ['\\', '"']
  | '\\' => ['\\', '\\']
  | '\x08' => ['\\', 'b']
  | '\x0c' => ['\\', 'f']
  | '\n' => ['\\', 'n']
  | '\r' => ['\\', 'r']
  | '\t' => ['\\', 't']
  | c => if c.toNat < 0x20 then '\\' :: 'u' :: codePoint c else [c]

def quoted (s : String) : Text := '"' :: s.toList.flatMap escapeChar ++ ['"']

mutual

def compact : Json → Text
  | number n => Numeral.decimal n
  | string s => quoted s
  | array items => '[' :: [','].intercalate (compactItems items) ++ [']']
  | object fields => '\x7b' :: [','].intercalate (compactFields fields) ++ ['\x7d']

def compactItems : List Json → List Text
  | [] => []
  | item :: rest => compact item :: compactItems rest

def compactFields : List (String × Json) → List Text
  | [] => []
  | (key, value) :: rest => (quoted key ++ ':' :: compact value) :: compactFields rest

end

def newline (level : Nat) : Text := '\n' :: List.replicate (2 * level) ' '

/-- Entries on lines of their own, one level deeper than their brackets; nothing if there are
none. -/
def block (level : Nat) : List Text → Text
  | [] => []
  | entries =>
    newline (level + 1) ++ (',' :: newline (level + 1)).intercalate entries ++ newline level

mutual

def indented (level : Nat) : Json → Text
  | number n => Numeral.decimal n
  | string s => quoted s
  | array items => '[' :: block level (indentedItems (level + 1) items) ++ [']']
  | object fields => '\x7b' :: block level (indentedFields (level + 1) fields) ++ ['\x7d']

def indentedItems (level : Nat) : List Json → List Text
  | [] => []
  | item :: rest => indented level item :: indentedItems level rest

def indentedFields (level : Nat) : List (String × Json) → List Text
  | [] => []
  | (key, value) :: rest =>
    (quoted key ++ ':' :: ' ' :: indented level value) :: indentedFields level rest

end

def pretty (j : Json) : Text := indented 0 j

end Json

end CellCheck
