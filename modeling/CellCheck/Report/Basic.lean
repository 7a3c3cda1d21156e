import CellCheck.Analysis.Basic
import CellCheck.Program.Reader

/-!
# Reports

The outcome of checking one source. A source that does not read has its error as the only
diagnostic, on the rejected line.
-/

namespace CellCheck

structure Report where
  file : String
  statements : Nat
  diagnostics : List Diagnostic
  cells : List CellInfo
  claims : Std.TreeMap Cell Nat
  history : List (Cell × List Event)

namespace Report

def ofAnalysis (file : String) (program : Program) (a : Analysis) : Report where
  file
  statements := program.statements.length
  diagnostics := a.diagnostics
  cells := a.cells.snapshot
  claims := Std.TreeMap.ofList (a.cells.claimed.map fun (c, claims) => (c, claims.length))
  history := a.cells.touched

def ofParseError (file : String) (e : ParseError) : Report where
  file
  statements := 0
  diagnostics := [⟨e.line - 1, 0, 0, e.message, .error⟩]
  cells := []
  claims := ∅
  history := []

/-- Reads and analyses a source. -/
def check (file : String) (source : Text) : Report :=
  match Program.ofText source with
  | .error e => ofParseError file e
  | .ok program => ofAnalysis file program (Analysis.ofProgram program)

def count (r : Report) (severity : Severity) : Nat :=
  r.diagnostics.countP fun d => d.severity = severity

def errors (r : Report) : Nat := r.count .error

def warnings (r : Report) : Nat := r.count .warning

/-- Errors always fail, warnings only where they are denied. -/
def failed (r : Report) (denyWarnings : Bool) : Bool :=
  hasError r.diagnostics || (denyWarnings && r.warnings > 0)

end Report

end CellCheck
