import CellCheck.CellMap.Basic
import CellCheck.Diagnostic.Basic
import CellCheck.Statement.Basic

/-!
# Findings

What the analysis can find, each with its wording, its severity and the length of its span.
-/

namespace CellCheck

inductive Cause where
  /-- A declared name is declared again. -/
  | redeclared (name : String)
  | undefinedTarget (name : String)
  | undefinedReference (target : String)
  | unallocatedReference (target : String)
  | undefinedOperand (name : String)
  | undefinedSyscall (syscall : String)
  | argumentCount (syscall : String) (expected got : Nat)
  | undefinedArgument (name : String)
  /-- Several owners claim a cell. -/
  | sharedCell (shared : Shared)
  deriving DecidableEq, Repr

namespace Cause

def severity : Cause → Severity
  | unallocatedReference _ => .warning
  | sharedCell _ => .warning
  | _ => .error

/-- A span covers a name where there is one to point at, and has a fixed length otherwise. -/
def length : Cause → Nat
  | redeclared name => name.utf8ByteSize
  | undefinedTarget name => name.utf8ByteSize
  | undefinedReference target => target.utf8ByteSize
  | unallocatedReference target => target.utf8ByteSize
  | undefinedOperand _ => 10
  | undefinedSyscall syscall => syscall.utf8ByteSize
  | argumentCount _ _ _ => 20
  | undefinedArgument _ => 10
  | sharedCell shared => shared.latest.owner.utf8ByteSize

def message : Cause → String
  | redeclared name => "Variable '" ++ name ++ "' already declared"
  | undefinedTarget name => "Undefined variable '" ++ name ++ "'"
  | undefinedReference target => "Reference to undefined variable '" ++ target ++ "'"
  | unallocatedReference target =>
    "Reference to unallocated cell '" ++ target ++ "'. Consider declaring it first"
  | undefinedOperand name => "Undefined variable '" ++ name ++ "'"
  | undefinedSyscall syscall =>
    "Undefined syscall '" ++ syscall ++ "'. Use INIT to declare it."
  | argumentCount syscall expected got =>
    syscall ++ " expects " ++ toString expected ++ " arguments, got " ++ toString got
  | undefinedArgument name => "Undefined variable '" ++ name ++ "' in syscall"
  | sharedCell shared =>
    "Cell " ++ String.ofList shared.cell.toText ++ " shared between: " ++
      ", ".intercalate shared.owners ++ ". Ensure this is intentional for space optimization."

end Cause

structure Finding where
  position : Position
  cause : Cause
  deriving DecidableEq, Repr

namespace Finding

def isError (f : Finding) : Bool := f.cause.severity = .error

def diagnostic (f : Finding) : Diagnostic where
  line := f.position.line
  column := f.position.column
  length := f.cause.length
  message := f.cause.message
  severity := f.cause.severity

end Finding

end CellCheck
