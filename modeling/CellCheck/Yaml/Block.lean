import CellCheck.Yaml.Source

/-!
# Block scalars

The content of a block scalar is made of the lines below its header that are indented to a common
column. Literal style keeps the line breaks, folded style joins neighbouring lines that do not
start with a blank. The header chooses the indentation and what becomes of the last line breaks.
-/

namespace CellCheck.Yaml

inductive Chomping where
  | strip
  | clip
  | keep
  deriving DecidableEq, Repr

namespace BlockScalar

def chomping? : Source → Option (Chomping × Source)
  | [] => none
  | g :: rest =>
    if g.char == '-' then some (.strip, rest)
    else if g.char == '+' then some (.keep, rest)
    else none

/-- The indentation that the header asks for, if it does; zero is refused. -/
def increment? : Source → Option (Option Nat × Source)
  | [] => some (none, [])
  | g :: rest =>
    if !g.char.isDigit then some (none, g :: rest)
    else if g.char == '0' then none
    else some (some (g.char.toNat - '0'.toNat), rest)

/-- The two indicators of the header, in either order. -/
def indicators? (s : Source) : Option (Chomping × Option Nat × Source) :=
  match chomping? s with
  | some (chomping, rest) =>
    (increment? rest).map fun (increment, rest) => (chomping, increment, rest)
  | none =>
    (increment? s).map fun (increment, rest) =>
      let (chomping, rest) := (chomping? rest).getD (.clip, rest)
      (chomping, increment, rest)

/-- The column of the content where the header does not say it: that of the first line with
something else than spaces in it, or of a longer line before it, and at least `least`. -/
def contentColumn? (least : Nat) (s : Source) : Option Nat :=
  match s with
  | [] => some least
  | g :: s' =>
    let line := (g :: s').takeWhile fun g => !isBreak g.char
    let column := max least (line.takeWhile (·.char == ' ')).length
    match line.dropWhile (·.char == ' '), h : Source.dropLine (g :: s') with
    | [], [] => some column
    | [], _ :: rest =>
      have := Source.length_lt_of_dropLine h
      contentColumn? column rest
    | first :: _, _ => if first.char == '\t' then none else some column
termination_by s.length
decreasing_by assumption

/-- The content read so far, in reverse. Line breaks wait until it is known what follows them. -/
structure Content where
  reversed : Text
  lastBreak : Option Char
  blankLines : Text
  startsBlank : Bool

namespace Content

def empty : Content := ⟨[], none, [], false⟩

def addBlankLine (content : Content) (lineBreak : Char) : Content :=
  { content with blankLines := lineBreak :: content.blankLines }

/-- What stands for the break before a line. -/
def joint (content : Content) (folded startsBlank : Bool) : Text :=
  if folded && content.lastBreak == some '\n' && !content.startsBlank && !startsBlank then
    if content.blankLines.isEmpty then [' '] else []
  else content.lastBreak.toList

def addLine (content : Content) (folded : Bool) (line : Text) (lineBreak : Option Char) :
    Content :=
  let startsBlank := line.head?.any isBlank
  { reversed := line.reverseAux
      (content.blankLines ++ content.joint folded startsBlank ++ content.reversed)
    lastBreak := lineBreak
    blankLines := []
    startsBlank }

def toText (content : Content) : Chomping → Text
  | .strip => content.reversed.reverse
  | .clip => (content.lastBreak.toList ++ content.reversed).reverse
  | .keep => (content.blankLines ++ content.lastBreak.toList ++ content.reversed).reverse

end Content

/-- Reads the lines whose content starts at the given column. -/
def readLines (folded : Bool) (column : Nat) (content : Content) (s : Source) :
    Option (Content × Source) :=
  match s with
  | [] => some (content, [])
  | g :: s' =>
    let line := (g :: s').takeWhile fun g => !isBreak g.char
    let indent := min column (line.takeWhile (·.char == ' ')).length
    match line.drop indent, h : Source.dropLine (g :: s') with
    | [], [] => some (content, [])
    | [], b :: rest =>
      have := Source.length_lt_of_dropLine h
      readLines folded column (content.addBlankLine b.char) rest
    | first :: text, after =>
      if indent < column then
        if first.char == '\t' then none else some (content, g :: s')
      else
        match after, h with
        | [], _ => some (content.addLine folded (Source.toText (first :: text)) none, [])
        | b :: rest, h =>
          have := Source.length_lt_of_dropLine h
          readLines folded column
            (content.addLine folded (Source.toText (first :: text)) (some b.char)) rest
termination_by s.length
decreasing_by all_goals assumption

/-- Reads a block scalar behind its first indicator. The content of an enclosing entry starts at
the column `least` or behind it. -/
def read (folded : Bool) (least : Nat) (s : Source) : Option (Text × Source) :=
  (indicators? s).bind fun (chomping, increment, rest) =>
    rest.afterLine?.bind fun body =>
      let column? :=
        match increment with
        | some n => some (least - 1 + n)
        | none => contentColumn? (max least 1) body
      column?.bind fun column =>
        (readLines folded column .empty body).map fun (content, rest) =>
          (content.toText chomping, rest)

end BlockScalar

end CellCheck.Yaml
