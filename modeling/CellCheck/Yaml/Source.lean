import CellCheck.Text.Cut

/-!
# The source of a document

Each character of a document stands at a line and a column, both counted from zero. The carriage
return, the line feed, both together and the next-line character are one and the same line break;
the line and paragraph separators break lines as well and stay what they are.
-/

namespace CellCheck.Yaml

structure Glyph where
  char : Char
  line : Nat
  column : Nat
  deriving DecidableEq, Repr

abbrev Source := List Glyph

def isBreak (c : Char) : Bool := c == '\n' || c == '\u2028' || c == '\u2029'

def isBlank (c : Char) : Bool := c == ' ' || c == '\t'

/-- The characters that may stand in a document. -/
def isAllowed (c : Char) : Bool :=
  let n := c.toNat
  c == '\t' || c == '\n' || c == '\r' || (0x20 ≤ n && n ≤ 0x7E) || n == 0x85 ||
    (0xA0 ≤ n && n != 0xFFFE && n != 0xFFFF)

/-- Writes every line break but the two separators as a line feed. -/
def unifyBreaks : Text → Text
  | [] => []
  | '\r' :: '\n' :: rest => '\n' :: unifyBreaks rest
  | c :: rest => (if c == '\r' || c == '\x85' then '\n' else c) :: unifyBreaks rest

def placeFrom (line column : Nat) : Text → Source
  | [] => []
  | c :: rest =>
    ⟨c, line, column⟩ ::
      if isBreak c then placeFrom (line + 1) 0 rest else placeFrom line (column + 1) rest

namespace Source

def ofText (s : Text) : Source := placeFrom 0 0 (unifyBreaks s)

def toText (s : Source) : Text := s.map Glyph.char

/-- A blank, a line break or the end comes next. -/
def atGap : Source → Bool
  | [] => true
  | g :: _ => isBlank g.char || isBreak g.char

/-- Three marks stand alone at the start of a line. -/
def atMark (mark : Char) : Source → Bool
  | a :: b :: c :: rest =>
    a.column == 0 && a.char == mark && b.char == mark && c.char == mark && atGap rest
  | _ => false

def atDocumentMark (s : Source) : Bool := s.atMark '-' || s.atMark '.'

def dropBlanks (s : Source) : Source := s.dropWhile fun g => isBlank g.char

def dropLine (s : Source) : Source := s.dropWhile fun g => !isBreak g.char

theorem length_lt_of_dropLine {s rest : Source} {g : Glyph} (h : s.dropLine = g :: rest) :
    rest.length < s.length := by
  have hle : s.dropLine.length ≤ s.length := (List.dropWhile_sublist _).length_le
  rw [h, List.length_cons] at hle
  exact hle

/-- What follows the line, on which only blanks and a comment may be left. -/
def afterLine? (s : Source) : Option Source :=
  match s.dropBlanks with
  | [] => some []
  | g :: rest =>
    if isBreak g.char then some rest
    else if g.char == '#' then some ((dropLine rest).drop 1)
    else none

/-- Letters, digits, the underscore and the hyphen make up names. -/
def isNameChar (c : Char) : Bool := c.isAlphanum || c == '_' || c == '-'

/-- The name that comes next, which may be empty, and what follows it. -/
def readName (s : Source) : Text × Source :=
  let (name, rest) := s.span fun g => isNameChar g.char
  (toText name, rest)

/-- Goes to the next token, past white space and comments. A tab is no white space where a key
may start, and outside braces a key may start on every new line. A byte order mark may stand at
the start of a line. -/
def skipGaps (inBraces inComment keyAllowed : Bool) : Source → Bool × Source
  | [] => (keyAllowed, [])
  | g :: rest =>
    if isBreak g.char then skipGaps inBraces false (keyAllowed || !inBraces) rest
    else if inComment || g.char == ' ' || (g.char == '\ufeff' && g.column == 0) ||
        (g.char == '\t' && (inBraces || !keyAllowed)) then
      skipGaps inBraces inComment keyAllowed rest
    else if g.char == '#' then skipGaps inBraces true keyAllowed rest
    else (keyAllowed, g :: rest)

end Source

end CellCheck.Yaml
