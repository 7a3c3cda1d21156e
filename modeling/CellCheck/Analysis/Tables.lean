import CellCheck.Analysis.Finding
import CellCheck.Program.Basic

/-!
# Declarations

Going through the commands of a program, the first declaration of a name counts and claims its
cells, and every later one is an error without effect. Each `INIT` claims its cell, and the last
one of a syscall counts.
-/

namespace CellCheck

/-- A name with the cells it stands for. -/
structure Declaration where
  name : String
  cells : List Cell
  kind : ClaimKind
  position : Position
  deriving DecidableEq, Repr

namespace Declaration

/-- Variables claim cells as integers. -/
def ofCommand? (position : Position) : Command → Option Declaration
  | .param p => some ⟨p.name, p.cells, .data p.kind, position⟩
  | .var v => some ⟨v.name, v.cells, .data .int, position⟩
  | _ => none

def claim (d : Declaration) : Claim := ⟨d.name, d.kind, d.cells.length, d.position.line⟩

end Declaration

/-- An `INIT` at its place. -/
structure InitAt where
  position : Position
  init : SyscallInit
  deriving DecidableEq, Repr

def InitAt.claim (i : InitAt) : Claim := ⟨i.init.syscall, .syscall, 1, i.position.line⟩

/-- What is declared up to some place of a program. -/
structure Tables where
  symbols : NameTable Declaration
  syscalls : NameTable InitAt
  cells : CellMap
  redeclarations : Array Finding

namespace Tables

def empty : Tables := ⟨.empty, .empty, .empty, #[]⟩

def init (t : Tables) (i : InitAt) : Tables :=
  { t with
    syscalls := t.syscalls.insert i.init.syscall i
    cells := t.cells.allocate i.init.cell i.claim }

def declare (t : Tables) (d : Declaration) : Tables :=
  if t.symbols.contains d.name then
    { t with redeclarations := t.redeclarations.push ⟨d.position, .redeclared d.name⟩ }
  else
    let claim := d.claim
    { t with
      symbols := t.symbols.insert d.name d
      cells := d.cells.foldl (fun cells c => cells.allocate c claim) t.cells }

def add (t : Tables) (p : Placed) : Tables :=
  match p.command with
  | .init i => t.init ⟨p.position, i⟩
  | c =>
    match Declaration.ofCommand? p.position c with
    | some d => t.declare d
    | none => t

def ofCommands (commands : List Placed) : Tables := commands.foldl add empty

end Tables

end CellCheck
