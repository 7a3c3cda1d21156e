/-!
# Diagnostics

A diagnostic is a message about a span of a source line. Lines and columns count from zero, and
columns and lengths in bytes.
-/

namespace CellCheck

inductive Severity where
  | error
  | warning
  deriving DecidableEq, Repr

def Severity.name : Severity → String
  | error => "error"
  | warning => "warning"

structure Diagnostic where
  line : Nat
  column : Nat
  length : Nat
  message : String
  severity : Severity
  deriving DecidableEq, Repr

namespace Diagnostic

def isError (d : Diagnostic) : Bool := d.severity = .error

/-- The column behind the span. -/
def endColumn (d : Diagnostic) : Nat := d.column + d.length

end Diagnostic

def hasError (diagnostics : List Diagnostic) : Bool := diagnostics.any Diagnostic.isError

end CellCheck
