import CellCheck.Analysis.Tables

/-!
# Uses

What a command finds wrong and which cells it touches, given what the whole program declares.
Declarations further down count as well, and a faulty operand does not hide the others.
-/

namespace CellCheck

/-- A use of a cell under the tag of an operation. -/
structure Touch where
  cell : Cell
  tag : String
  line : Nat
  deriving DecidableEq, Repr

namespace Tables

def declares (t : Tables) (name : String) : Bool := t.symbols.contains name

/-- A cell whose number does not fit cannot have been claimed. -/
def isAllocatedToken (t : Tables) (token : Text) : Bool :=
  (Cell.ofText? token).any t.cells.isAllocated

def targetCauses (t : Tables) : Target → List Cause
  | .name n => if t.declares n then [] else [.undefinedTarget n]
  | _ => []

def referenceCauses (t : Tables) (value : Value) : List Cause :=
  match value.reference? with
  | none => []
  | some target =>
    if Cell.isShaped target.toList then
      if t.isAllocatedToken target.toList then [] else [.unallocatedReference target]
    else if t.declares target then []
    else [.undefinedReference target]

def operandCauses (t : Tables) : Operand → List Cause
  | .name n => if t.declares n then [] else [.undefinedOperand n]
  | .cell _ => []

def argumentCauses (t : Tables) : Operand → List Cause
  | .name n => if t.declares n then [] else [.undefinedArgument n]
  | .cell _ => []

def callCauses (t : Tables) (c : Call) : List Cause :=
  match t.syscalls.get? c.syscall with
  | none => [.undefinedSyscall c.syscall]
  | some i =>
    let got := c.arguments.length
    let expected := i.init.argumentCount
    (if got = expected then [] else [.argumentCount c.syscall expected got]) ++
      c.arguments.flatMap t.argumentCauses

def causes (t : Tables) : Command → List Cause
  | .assign a => t.targetCauses a.target ++ t.referenceCauses a.value
  | .move m => t.operandCauses m.source ++ t.operandCauses m.destination
  | .call c => t.callCauses c
  | _ => []

def findings (t : Tables) (p : Placed) : List Finding :=
  (t.causes p.command).map fun cause => ⟨p.position, cause⟩

/-- The cells that an argument stands for. -/
def argumentCells (t : Tables) : Operand → List Cell
  | .cell c => [c]
  | .name n =>
    match t.symbols.get? n with
    | some d => d.cells
    | none => []

def operandTouches (operand : Operand) (tag : String) (line : Nat) : List Touch :=
  match operand with
  | .cell c => [⟨c, tag, line⟩]
  | .name _ => []

def callTouches (t : Tables) (c : Call) (line : Nat) : List Touch :=
  match t.syscalls.get? c.syscall with
  | none => []
  | some _ =>
    let tag := c.syscall ++ "_arg"
    (c.arguments.flatMap t.argumentCells).map fun cell => ⟨cell, tag, line⟩

def touches (t : Tables) (p : Placed) : List Touch :=
  let line := p.position.line
  match p.command with
  | .assign a => a.target.cells.map fun cell => ⟨cell, "SET_operation", line⟩
  | .move m =>
    operandTouches m.source "MOV_source" line ++ operandTouches m.destination "MOV_target" line
  | .call c => t.callTouches c line
  | _ => []

end Tables

end CellCheck
