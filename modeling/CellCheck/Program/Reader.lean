import CellCheck.Program.Basic
import CellCheck.Statement.Line
import CellCheck.Text.Line

/-!
# Reading programs

A comment runs from the first `#` to the end of its line. A loop takes the lines up to the next
`endwhile`, or up to the end of the source; a loop line among them makes an empty loop. The first
line that does not read is the error, wherever it stands.
-/

namespace CellCheck

/-- The first rejected line, counted from one. -/
structure ParseError where
  line : Nat
  error : SyntaxError
  deriving DecidableEq, Repr

def ParseError.message (e : ParseError) : String :=
  "Line " ++ toString e.line ++ ": " ++ e.error.message

namespace Program

/-- The line without its comment and the white space at its ends. -/
def stripComment (line : Text) : Text := Text.trim (line.takeWhile (· != '#'))

/-- The lines with code in them, numbered from zero. -/
def codeLines (source : Text) : List (Nat × Text) :=
  ((source.lines.map stripComment).zipIdx.map Prod.swap).filter fun line => !line.2.isEmpty

def readLine (line : Nat × Text) : Except ParseError (Nat × Line) :=
  match Line.ofCode line.2 with
  | .ok reading => .ok (line.1, reading)
  | .error e => .error ⟨line.1 + 1, e⟩

def isInside (line : Nat × Line) : Bool :=
  match line.2 with
  | .loopEnd => false
  | _ => true

/-- The statements of the lines inside a loop. -/
def bodyOf (lines : List (Nat × Line)) : List Statement :=
  lines.filterMap fun line => line.2.statement? line.1

/-- Puts the lines of each loop into its body. -/
def group : List (Nat × Line) → List Statement
  | [] => []
  | (number, .command c) :: rest => .command ⟨number, 0⟩ c :: group rest
  | (number, .loopStart) :: rest =>
    have : (rest.dropWhile isInside).length ≤ rest.length := (List.dropWhile_sublist _).length_le
    .loop ⟨number, 0⟩ (bodyOf (rest.takeWhile isInside)) :: group (rest.dropWhile isInside)
  | (_, .nothing) :: rest => group rest
  | (_, .loopEnd) :: rest => group rest
termination_by lines => lines.length

def ofText (source : Text) : Except ParseError Program :=
  ((codeLines source).mapM readLine).map fun lines => ⟨group lines⟩

end Program

end CellCheck
