import CellCheck.Yaml.Fold

/-!
# Plain scalars

A scalar without quotes ends before a colon with a gap behind it, before a comment or a document
mark, and before a line that is not indented enough. Between braces it also ends before a comma
or a bracket.
-/

namespace CellCheck.Yaml

structure PlainScalar where
  content : Text
  rest : Source
  /-- The white space behind it holds a line break. -/
  endsLine : Bool

namespace PlainScalar

def isFlowIndicator (c : Char) : Bool :=
  c == ',' || c == '[' || c == ']' || c == '\x7b' || c == '\x7d'

/-- Between braces a colon right before one of these characters is an error. -/
def isAmbiguous : Source → Bool
  | a :: b :: _ => a.char == ':' && (isFlowIndicator b.char || b.char == '?')
  | _ => false

/-- The scalar ends before its next character, which is not white space. -/
def endsBefore (inBraces : Bool) (least : Nat) (gap : Gap) (g : Glyph) (rest : Source) : Bool :=
  (!inBraces && gap.hasBreak && g.column < least) || Source.atDocumentMark (g :: rest) ||
    (g.char == '#' && gap != .empty)

def endsAt (inBraces : Bool) (g : Glyph) (rest : Source) : Bool :=
  (g.char == ':' && rest.atGap) || (inBraces && isFlowIndicator g.char)

/-- Reads on behind the characters in `reversed` and the white space in `gap`. Lines outside
braces have to be indented up to the column `least`. -/
def readFrom (inBraces : Bool) (least : Nat) (reversed : Text) (gap : Gap) :
    Source → Option PlainScalar
  | [] => some ⟨reversed.reverse, [], gap.hasBreak⟩
  | g :: rest =>
    if isBlank g.char || isBreak g.char then
      if g.char == '\t' && gap.hasBreak && g.column < least then none
      else readFrom inBraces least reversed (gap.push g.char) rest
    else if endsBefore inBraces least gap g rest then
      some ⟨reversed.reverse, g :: rest, gap.hasBreak⟩
    else if inBraces && isAmbiguous (g :: rest) then none
    else if endsAt inBraces g rest then some ⟨reversed.reverse, g :: rest, gap.hasBreak⟩
    else readFrom inBraces least (g.char :: gap.after reversed) .empty rest

def read (inBraces : Bool) (least : Nat) (s : Source) : Option PlainScalar :=
  readFrom inBraces least [] .empty s

end PlainScalar

end CellCheck.Yaml
