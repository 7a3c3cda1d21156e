import CellCheck.Yaml.Source

/-!
# Folding lines

Inside a scalar that runs over several lines, a single line break stands for a space, and of
several the first one is dropped. Blanks around line breaks do not count.
-/

namespace CellCheck.Yaml

/-- White space between two characters of a scalar. The first line break is missing if it is
escaped; the characters are kept in reverse. -/
inductive Gap where
  | blanks (reversed : Text)
  | breaks (first : Option Char) (reversed : Text)
  deriving DecidableEq, Repr

namespace Gap

def empty : Gap := blanks []

def hasBreak : Gap → Bool
  | blanks _ => false
  | breaks _ _ => true

/-- Extends the white space by a blank or a line break. -/
def push (c : Char) : Gap → Gap
  | blanks reversed => if isBreak c then breaks (some c) [] else blanks (c :: reversed)
  | breaks first reversed => breaks first (if isBreak c then c :: reversed else reversed)

/-- What the white space stands for. -/
def toText : Gap → Text
  | blanks reversed => reversed.reverse
  | breaks none reversed => reversed.reverse
  | breaks (some first) reversed =>
    if first != '\n' then first :: reversed.reverse
    else if reversed.isEmpty then [' ']
    else reversed.reverse

/-- Writes the white space behind a text that is kept in reverse. -/
def after (gap : Gap) (reversed : Text) : Text := gap.toText.reverseAux reversed

end Gap

end CellCheck.Yaml
