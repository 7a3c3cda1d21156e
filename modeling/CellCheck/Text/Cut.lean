import CellCheck.Text.Basic

/-!
# Cutting a text

A text is cut at the first occurrence of a separator, or loses a given beginning or end.
-/

namespace CellCheck.Text

/-- The rest of the text after the given beginning. -/
def after? (s : Text) (beginning : String) : Option Text := beginning.toList.isPrefixOf? s

/-- The rest of the text before the given end. -/
def before? (s : Text) (ending : String) : Option Text := ending.toList.isSuffixOf? s

/-- The parts before and after the first occurrence of the separator. -/
def cutAt? (separator : Text) : Text → Option (Text × Text)
  | [] => if separator.isEmpty then some ([], []) else none
  | c :: rest =>
    match separator.isPrefixOf? (c :: rest) with
    | some tail => some ([], tail)
    | none => (cutAt? separator rest).map fun parts => (c :: parts.1, parts.2)

def cut? (s : Text) (separator : String) : Option (Text × Text) := cutAt? separator.toList s

/-- The text occurs in `s` as a contiguous part. -/
def hasPart (s : Text) (part : String) : Bool := (s.cut? part).isSome

def startsWith (s : Text) (beginning : String) : Bool := (s.after? beginning).isSome

end CellCheck.Text
