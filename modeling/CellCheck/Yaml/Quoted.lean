import CellCheck.Text.Numeral
import CellCheck.Yaml.Fold

/-!
# Quoted scalars

Between single quotes only a doubled quote stands for something else. Between double quotes a
backslash starts an escape, and before a line break it joins the lines. No document mark may stand
inside.
-/

namespace CellCheck.Yaml

/-- The character that an escape of one letter stands for. -/
def escaped? : Char → Option Char
  | '0' => some '\x00'
  | 'a' => some '\x07'
  | 'b' => some '\x08'
  | 't' | '\t' => some '\t'
  | 'n' => some '\n'
  | 'v' => some '\x0b'
  | 'f' => some '\x0c'
  | 'r' => some '\r'
  | 'e' => some '\x1b'
  | ' ' => some ' '
  | '"' => some '"'
  | '/' => some '/'
  | '\\' => some '\\'
  | 'N' => some '\x85'
  | '_' => some '\xa0'
  | 'L' => some '\u2028'
  | 'P' => some '\u2029'
  | _ => none

/-- The number of hexadecimal digits behind an escape that takes some. -/
def escapeDigits : Char → Nat
  | 'x' => 2
  | 'u' => 4
  | 'U' => 8
  | _ => 0

def ofCodePoint? (n : Nat) : Option Char := if n.isValidChar then some (Char.ofNat n) else none

/-- The character that the first `count` characters write in hexadecimal digits. -/
def codePoint? (count : Nat) (s : Source) : Option Char :=
  let digits := Source.toText (s.take count)
  if digits.length = count then (Numeral.readHexadecimal? digits).bind ofCodePoint? else none

/-- Reads on up to the closing single quote. -/
def readSingleQuoted (reversed : Text) (gap : Gap) (s : Source) : Option (Text × Source) :=
  match s with
  | [] => none
  | g :: rest =>
    if isBlank g.char || isBreak g.char then readSingleQuoted reversed (gap.push g.char) rest
    else if Source.atDocumentMark (g :: rest) then none
    else if g.char != '\'' then readSingleQuoted (g.char :: gap.after reversed) .empty rest
    else
      match rest with
      | [] => some ((gap.after reversed).reverse, [])
      | h :: rest' =>
        if h.char == '\'' then readSingleQuoted ('\'' :: gap.after reversed) .empty rest'
        else some ((gap.after reversed).reverse, h :: rest')
termination_by s.length

/-- Reads on up to the closing double quote. -/
def readDoubleQuoted (reversed : Text) (gap : Gap) (s : Source) : Option (Text × Source) :=
  match s with
  | [] => none
  | g :: rest =>
    if isBlank g.char || isBreak g.char then readDoubleQuoted reversed (gap.push g.char) rest
    else if Source.atDocumentMark (g :: rest) then none
    else if g.char == '"' then some ((gap.after reversed).reverse, rest)
    else if g.char != '\\' then readDoubleQuoted (g.char :: gap.after reversed) .empty rest
    else
      match rest with
      | [] => none
      | h :: rest' =>
        if isBreak h.char then readDoubleQuoted (gap.after reversed) (.breaks none []) rest'
        else
          match escaped? h.char with
          | some c => readDoubleQuoted (c :: gap.after reversed) .empty rest'
          | none =>
            match codePoint? (escapeDigits h.char) rest' with
            | some c =>
              readDoubleQuoted (c :: gap.after reversed) .empty
                (rest'.drop (escapeDigits h.char))
            | none => none
termination_by s.length
decreasing_by all_goals simp only [List.length_cons, List.length_drop]; omega

end CellCheck.Yaml
