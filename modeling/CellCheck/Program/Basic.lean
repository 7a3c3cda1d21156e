import CellCheck.Statement.Printer

/-!
# Programs

A program is a list of statements. Flattened, it is the list of its commands in source order with
the bodies of loops in place of the loops.
-/

namespace CellCheck

structure Program where
  statements : List Statement
  deriving DecidableEq, Repr

/-- A command at its place in the source. -/
structure Placed where
  position : Position
  command : Command
  deriving DecidableEq, Repr

mutual

def Statement.flatten : Statement → List Placed
  | .command position c => [⟨position, c⟩]
  | .loop _ body => Statement.flattenAll body

def Statement.flattenAll : List Statement → List Placed
  | [] => []
  | s :: rest => s.flatten ++ Statement.flattenAll rest

end

theorem Statement.flattenAll_append (front back : List Statement) :
    Statement.flattenAll (front ++ back) =
      Statement.flattenAll front ++ Statement.flattenAll back := by
  induction front with
  | nil => rfl
  | cons s rest ih =>
    rw [List.cons_append, Statement.flattenAll, ih, Statement.flattenAll, List.append_assoc]

namespace Program

def flatten (p : Program) : List Placed := Statement.flattenAll p.statements

/-- The source form, each line with its line feed. -/
def toText (p : Program) : Text :=
  (p.statements.flatMap Statement.toLines).flatMap (· ++ ['\n'])

end Program

end CellCheck
