import CellCheck.Settings.Basic

/-!
# Command-line arguments

Options start with a dash and may stand anywhere among the files. Short options can be combined in
one argument, and a value follows its option directly, behind an equals sign or as the next
argument. After `--` every argument is a file.
-/

namespace CellCheck

inductive Flag where
  | cellMap
  | history
  | denyWarnings
  | quiet
  | help
  | version
  deriving DecidableEq, Repr

inductive Parameter where
  | config
  | format
  deriving DecidableEq, Repr

inductive OptionName where
  | flag (f : Flag)
  | parameter (p : Parameter)
  deriving DecidableEq, Repr

/-- Why the arguments lead to no run. -/
inductive Refusal where
  | unknownArgument
  | invalidValue
  | argumentConflict
  | tooManyValues
  | helpRequested
  | versionRequested
  deriving DecidableEq, Repr

def Refusal.exitCode : Refusal → Nat
  | helpRequested => 0
  | versionRequested => 0
  | _ => 2

namespace OptionName

def ofLong? (name : Text) : Option OptionName :=
  if name = "cell-map".toList then some (.flag .cellMap)
  else if name = "history".toList then some (.flag .history)
  else if name = "deny-warnings".toList then some (.flag .denyWarnings)
  else if name = "quiet".toList then some (.flag .quiet)
  else if name = "help".toList then some (.flag .help)
  else if name = "version".toList then some (.flag .version)
  else if name = "config".toList then some (.parameter .config)
  else if name = "format".toList then some (.parameter .format)
  else none

def ofShort? : Char → Option OptionName
  | 'm' => some (.flag .cellMap)
  | 'D' => some (.flag .denyWarnings)
  | 'q' => some (.flag .quiet)
  | 'h' => some (.flag .help)
  | 'V' => some (.flag .version)
  | 'c' => some (.parameter .config)
  | 'f' => some (.parameter .format)
  | _ => none

end OptionName

/-- What the arguments ask for. -/
structure Invocation where
  files : List String := []
  config : Option String := none
  format : Option OutputFormat := none
  cellMap : Bool := false
  history : Bool := false
  denyWarnings : Bool := false
  quiet : Bool := false
  deriving DecidableEq, Repr

namespace Invocation

def defaultFile : String := "main.pseudo"

/-- No option may be given twice. -/
def setFlag (inv : Invocation) : Flag → Except Refusal Invocation
  | .cellMap => if inv.cellMap then .error .argumentConflict else .ok { inv with cellMap := true }
  | .history => if inv.history then .error .argumentConflict else .ok { inv with history := true }
  | .denyWarnings =>
    if inv.denyWarnings then .error .argumentConflict else .ok { inv with denyWarnings := true }
  | .quiet => if inv.quiet then .error .argumentConflict else .ok { inv with quiet := true }
  | .help => .error .helpRequested
  | .version => .error .versionRequested

def setParameter (inv : Invocation) (value : Text) : Parameter → Except Refusal Invocation
  | .config =>
    if inv.config.isSome then .error .argumentConflict
    else .ok { inv with config := some (String.ofList value) }
  | .format =>
    if inv.format.isSome then .error .argumentConflict
    else
      match OutputFormat.ofName? value with
      | some format => .ok { inv with format := some format }
      | none => .error .invalidValue

def addFile (inv : Invocation) (file : String) : Invocation :=
  { inv with files := inv.files ++ [file] }

end Invocation

/-- The arguments read so far. The last parameter is looked at only when the next option or file
comes, with its value if that was a separate argument. -/
structure ArgumentReader where
  invocation : Invocation
  pending : Option (Parameter × Option Text)
  deriving DecidableEq, Repr

namespace ArgumentReader

/-- Takes over the pending parameter. -/
def settle (r : ArgumentReader) : Except Refusal Invocation :=
  match r.pending with
  | none => .ok r.invocation
  | some (_, none) => .error .invalidValue
  | some (p, some value) => r.invocation.setParameter value p

def readFlag (r : ArgumentReader) (f : Flag) : Except Refusal ArgumentReader :=
  r.settle.bind fun inv => (inv.setFlag f).map fun inv => ⟨inv, none⟩

/-- A parameter with its value in the same argument. -/
def readAttached (r : ArgumentReader) (p : Parameter) (value : Text) :
    Except Refusal ArgumentReader :=
  r.settle.bind fun inv => (inv.setParameter value p).map fun inv => ⟨inv, none⟩

/-- A parameter whose value has to be the next argument. -/
def readParameter (r : ArgumentReader) (p : Parameter) : Except Refusal ArgumentReader :=
  r.settle.map fun inv => ⟨inv, some (p, none)⟩

def readFile (r : ArgumentReader) (file : String) : Except Refusal ArgumentReader :=
  r.settle.map fun inv => ⟨inv.addFile file, none⟩

/-- A long option behind its two dashes. -/
def readLong (r : ArgumentReader) (body : Text) : Except Refusal ArgumentReader :=
  let name := body.takeWhile (· != '=')
  match OptionName.ofLong? name, body.dropWhile (· != '=') with
  | none, _ => .error .unknownArgument
  | some (.flag f), [] => r.readFlag f
  | some (.flag _), _ :: _ => .error .tooManyValues
  | some (.parameter p), [] => r.readParameter p
  | some (.parameter p), _ :: value => r.readAttached p value

/-- Short options behind their dash. A parameter takes the rest of the argument as its value,
without an equals sign in front. -/
def readShort (r : ArgumentReader) : Text → Except Refusal ArgumentReader
  | [] => .ok r
  | c :: rest =>
    match OptionName.ofShort? c with
    | none => .error .unknownArgument
    | some (.flag f) => (r.readFlag f).bind fun r => readShort r rest
    | some (.parameter p) =>
      match rest with
      | [] => r.readParameter p
      | '=' :: value => r.readAttached p value
      | value => r.readAttached p value

/-- An argument that is no option is the value of a parameter that waits for one, or a file. -/
def readPlain (r : ArgumentReader) (argument : String) : Except Refusal ArgumentReader :=
  match r.pending with
  | some (p, none) => .ok ⟨r.invocation, some (p, some argument.toList)⟩
  | _ => r.readFile argument

def readArgument (r : ArgumentReader) (argument : String) : Except Refusal ArgumentReader :=
  match argument.toList with
  | '-' :: '-' :: body => r.readLong body
  | '-' :: c :: rest => r.readShort (c :: rest)
  | _ => r.readPlain argument

def read (r : ArgumentReader) : List String → Except Refusal ArgumentReader
  | [] => .ok r
  | argument :: rest =>
    if argument = "--" then rest.foldlM readFile r
    else (r.readArgument argument).bind fun r => read r rest

end ArgumentReader

/-- What the arguments ask for; without a file it is the default one. -/
def Invocation.ofArguments (arguments : List String) : Except Refusal Invocation :=
  (ArgumentReader.read ⟨{}, none⟩ arguments).bind fun r =>
    r.settle.map fun inv =>
      if inv.files.isEmpty then inv.addFile Invocation.defaultFile else inv

end CellCheck
