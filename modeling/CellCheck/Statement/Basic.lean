import CellCheck.Kind
import CellCheck.Operand
import CellCheck.Value.Basic

/-!
# Statements

A command declares or uses names and cells. A statement is a command at its place in the source,
or a loop around further statements. Lines and columns count from zero.
-/

namespace CellCheck

/-- `INIT SYS_name AT C0 WITH 3`: the cell holds the handle of the syscall. -/
structure SyscallInit where
  syscall : String
  cell : Cell
  argumentCount : Nat
  deriving DecidableEq, Repr

/-- `PARAM name (C0..C4): TYPE[size] = value` -/
structure Param where
  name : String
  cells : List Cell
  kind : DataKind
  size : Option Nat
  value : Option Value
  deriving DecidableEq, Repr

/-- `name (C0, C1) = value` -/
structure Variable where
  name : String
  cells : List Cell
  value : Value
  deriving DecidableEq, Repr

/-- `SET target value` -/
structure Assign where
  target : Target
  value : Value
  deriving DecidableEq, Repr

/-- `MOV source destination` -/
structure Move where
  source : Operand
  destination : Operand
  deriving DecidableEq, Repr

/-- `SYS_name(C0, name)` -/
structure Call where
  syscall : String
  arguments : List Operand
  deriving DecidableEq, Repr

inductive Command where
  | init (i : SyscallInit)
  | param (p : Param)
  | var (v : Variable)
  | assign (a : Assign)
  | move (m : Move)
  | call (c : Call)
  deriving DecidableEq, Repr

structure Position where
  line : Nat
  column : Nat
  deriving DecidableEq, Inhabited, Repr

inductive Statement where
  | command (position : Position) (c : Command)
  | loop (position : Position) (body : List Statement)
  deriving Inhabited, Repr

namespace Statement

mutual

def decEq : (s t : Statement) → Decidable (s = t)
  | command p c, command q d => decidable_of_iff (p = q ∧ c = d) (by simp)
  | loop p body, loop q body' =>
    have := decEqBody body body'
    decidable_of_iff (p = q ∧ body = body') (by simp)
  | command _ _, loop _ _ | loop _ _, command _ _ => isFalse nofun

def decEqBody : (body body' : List Statement) → Decidable (body = body')
  | [], [] => isTrue rfl
  | s :: rest, t :: rest' =>
    have := decEq s t
    have := decEqBody rest rest'
    decidable_of_iff (s = t ∧ rest = rest') (by simp)
  | [], _ :: _ | _ :: _, [] => isFalse nofun

end

instance : DecidableEq Statement := decEq

def position : Statement → Position
  | command position _ => position
  | loop position _ => position

end Statement

end CellCheck
