import CellCheck.Cell.List
import CellCheck.Statement.Basic
import CellCheck.Value.Reader

/-!
# Reading a line

What a line of source stands for is decided by how it starts; a line that starts no statement
stands for nothing. A line is read without its comment and without white space at its ends.
-/

namespace CellCheck

/-- Why a line was rejected. -/
inductive SyntaxError where
  | invalidInit
  | invalidParam (code : String)
  | invalidVariable
  | invalidAssign
  | invalidMove
  | invalidCall
  | unknownKind (name : String)
  | cells (error : CellListError)
  deriving DecidableEq, Repr

def SyntaxError.message : SyntaxError → String
  | invalidInit => "Invalid INIT syntax"
  | invalidParam code => "Invalid PARAM syntax: \"" ++ code ++ "\""
  | invalidVariable => "Invalid variable syntax"
  | invalidAssign => "Invalid SET syntax"
  | invalidMove => "Invalid MOV syntax"
  | invalidCall => "Invalid SYSCALL syntax"
  | unknownKind name => "Unknown data type: \"" ++ name ++ "\""
  | cells error => error.message

/-- What a line stands for. -/
inductive Line where
  | nothing
  | command (c : Command)
  | loopStart
  | loopEnd
  deriving DecidableEq, Repr

namespace Line

/-- The words after `INIT`, with single blanks between them. -/
def readInit? (rest : Text) : Option SyscallInit :=
  match rest.splitOn ' ' with
  | [name, before, cell, after, count] =>
    if Text.isSyscallName name && before = "AT".toList && after = "WITH".toList then
      match Cell.ofText? cell, Numeral.readBelow? UInt64.size count with
      | some cell, some argumentCount => some ⟨String.ofList name, cell, argumentCount⟩
      | _, _ => none
    else none
  | _ => none

/-- The texts of a parameter declaration before its kind and cells are looked at. -/
structure ParamParts where
  name : Text
  cells : Text
  kind : Text
  size : Option Nat
  value : Option Text

/-- Splits `TYPE[size]`. -/
def kindAndSize? (declared : Text) : Option (Text × Option Nat) :=
  match declared.cut? "[" with
  | none => some (declared, none)
  | some (kind, size) =>
    ((size.before? "]").bind (Numeral.readBelow? UInt32.size)).map fun n => (kind, some n)

/-- Splits `TYPE[size] = value` at the equals sign, if there is one. -/
def declaredAndValue (rest : Text) : Text × Option Text :=
  match rest.cut? "=" with
  | some (declared, value) => (declared.trim, some value.trim)
  | none => (rest.trim, none)

/-- Splits what follows `PARAM`. -/
def paramParts? (rest : Text) : Option ParamParts :=
  match rest.cut? " (" with
  | none => none
  | some (name, rest) =>
    match rest.cut? "):" with
    | none => none
    | some (cells, rest) =>
      let (declared, value) := declaredAndValue rest
      if Text.isWord name && value != some [] then
        match kindAndSize? declared with
        | some (kind, size) =>
          if Text.isWord kind then some ⟨name, cells, kind, size, value⟩ else none
        | none => none
      else none

def readParam (code rest : Text) : Except SyntaxError Param :=
  match paramParts? rest with
  | none => .error (.invalidParam (String.ofList code))
  | some parts =>
    match DataKind.ofName (String.ofList parts.kind) with
    | .error e => .error (.unknownKind e.name)
    | .ok kind =>
      match CellList.ofText parts.cells with
      | .error e => .error (.cells e)
      | .ok cells =>
        .ok ⟨String.ofList parts.name, cells, kind, parts.size, parts.value.map Value.ofText⟩

/-- A range if it has two dots in it, else a cell or a name. -/
def readTarget (s : Text) : Except SyntaxError Target :=
  if s.hasPart ".." then
    match CellRange.ofText s with
    | .ok range => .ok (.range range)
    | .error e => .error (.cells e)
  else if Cell.isShaped s then
    match Cell.ofText? s with
    | some c => .ok (.cell c)
    | none => .error .invalidAssign
  else if Text.isWord s then .ok (.name (String.ofList s))
  else .error .invalidAssign

def readAssign (rest : Text) : Except SyntaxError Assign :=
  match rest.cut? " " with
  | none => .error .invalidAssign
  | some (target, value) => (readTarget target).map fun target => ⟨target, Value.ofText value⟩

/-- A word, unless it is shaped like a cell whose number does not fit. -/
def readOperand? (s : Text) : Option Operand :=
  if Text.isWord s && !(Cell.isShaped s && (Cell.ofText? s).isNone) then
    some (Operand.classify s)
  else none

def readMove? (rest : Text) : Option Move :=
  match rest.splitOn ' ' with
  | [source, destination] =>
    match readOperand? source, readOperand? destination with
    | some source, some destination => some ⟨source, destination⟩
    | _, _ => none
  | _ => none

def readArguments? (s : Text) : Option (List Operand) :=
  if s.trim.isEmpty then some [] else ((s.splitOn ',').map Text.trim).mapM readOperand?

def readCall? (code : Text) : Option Call :=
  match code.cut? "(" with
  | none => none
  | some (name, rest) =>
    match rest.before? ")" with
    | none => none
    | some arguments =>
      if Text.isSyscallName name && !arguments.contains ')' then
        (readArguments? arguments).map fun arguments => ⟨String.ofList name, arguments⟩
      else none

def readVariable (code : Text) : Except SyntaxError Variable :=
  match code.cut? " (" with
  | none => .error .invalidVariable
  | some (name, rest) =>
    match rest.cut? ") = " with
    | none => .error .invalidVariable
    | some (cells, value) =>
      if Text.isWord name && !value.trim.isEmpty then
        match CellList.ofText cells with
        | .error e => .error (.cells e)
        | .ok cells => .ok ⟨String.ofList name, cells, Value.ofText value⟩
      else .error .invalidVariable

/-- The line has the marks of a variable declaration somewhere in it. -/
def looksLikeVariable (code : Text) : Bool :=
  code.hasPart "(C" && code.contains ')' && code.contains '='

def orError {α : Type} (error : SyntaxError) : Option α → Except SyntaxError α
  | some a => .ok a
  | none => .error error

/-- What follows the keyword of an `INIT` line, which names a syscall. -/
def afterInit? (code : Text) : Option Text :=
  (code.after? "INIT ").filter (·.startsWith "SYS_")

def ofCode (code : Text) : Except SyntaxError Line :=
  match afterInit? code with
  | some rest => (orError .invalidInit (readInit? rest)).map (command ∘ .init)
  | none =>
  match code.after? "PARAM " with
  | some rest => (readParam code rest).map (command ∘ .param)
  | none =>
  match code.after? "SET " with
  | some rest => (readAssign rest).map (command ∘ .assign)
  | none =>
  match code.after? "MOV " with
  | some rest => (orError .invalidMove (readMove? rest)).map (command ∘ .move)
  | none =>
  if code = "while:".toList then .ok loopStart
  else if code = "endwhile".toList then .ok loopEnd
  else if code.startsWith "SYS_" then
    (orError .invalidCall (readCall? code)).map (command ∘ .call)
  else if looksLikeVariable code then (readVariable code).map (command ∘ .var)
  else .ok nothing

/-- The statement that the line makes by itself, where a loop is still empty. -/
def statement? (line : Nat) : Line → Option Statement
  | command c => some (.command ⟨line, 0⟩ c)
  | loopStart => some (.loop ⟨line, 0⟩ [])
  | nothing => none
  | loopEnd => none

end Line

end CellCheck
