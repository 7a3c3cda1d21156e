import CellCheck.Analysis.Usage

/-!
# Analysis of a program

All declarations are collected first, then every command is checked against them and its touches
are recorded, and at last the cells with several owners are found. The findings are listed in this
order.
-/

namespace CellCheck

structure Analysis where
  symbols : NameTable Declaration
  syscalls : NameTable InitAt
  cells : CellMap
  findings : List Finding

namespace Analysis

def recordTouches (cells : CellMap) (touches : List Touch) : CellMap :=
  touches.foldl (fun cells touch => cells.touch touch.cell touch.tag touch.line) cells

/-- The warning about a shared cell stands at its current claim. -/
def sharedFinding (shared : Shared) : Finding := ⟨⟨shared.latest.line, 0⟩, .sharedCell shared⟩

def ofCommands (commands : List Placed) : Analysis :=
  let tables := Tables.ofCommands commands
  let cells := commands.foldl (fun cells p => recordTouches cells (tables.touches p)) tables.cells
  { symbols := tables.symbols
    syscalls := tables.syscalls
    cells
    findings := tables.redeclarations.toList ++ commands.flatMap tables.findings ++
      cells.shared.map sharedFinding }

def ofProgram (p : Program) : Analysis := ofCommands p.flatten

def diagnostics (a : Analysis) : List Diagnostic := a.findings.map Finding.diagnostic

end Analysis

end CellCheck
