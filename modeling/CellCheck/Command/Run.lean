import CellCheck.Command.Arguments
import CellCheck.Report.Printer

/-!
# Running a check

A run loads its settings, checks one file after the other and sums up. What it prints and what
comes of it depend only on the arguments, on what is found under the paths and on how the text of a
settings file is read.
-/

namespace CellCheck

/-- What is found under a path. Something that is there but has no bytes is unreadable. -/
inductive FileState where
  | missing
  | unreadable
  | content (bytes : ByteArray)

abbrev Files := String → FileState

inductive RunError where
  | fileOpen (path : String)
  | invalidConfig (path : String)
  deriving DecidableEq, Repr

def RunError.message : RunError → String
  | fileOpen path => "Failed to open file: " ++ path
  | invalidConfig path => "Invalid config file: " ++ path

/-- What a run prints, and whether all files passed unless it was broken off. -/
structure Outcome where
  output : Text
  result : Except RunError Bool

namespace FileState

def text? : FileState → Option Text
  | content bytes => (String.fromUTF8? bytes).map String.toList
  | _ => none

end FileState

namespace Settings

/-- A way to read the text of a settings file, which fails if the file is invalid. -/
abbrev Reader := Text → Option Settings

def load (read : Reader) (files : Files) (path : String) : Except RunError Settings :=
  match files path with
  | .missing => .error (.fileOpen path)
  | found =>
    match found.text?.bind read with
    | some settings => .ok settings
    | none => .error (.invalidConfig path)

/-- Options add to the settings, and a format on the command line replaces theirs. -/
def withOptions (settings : Settings) (inv : Invocation) : Settings where
  cellMap := settings.cellMap || inv.cellMap
  history := settings.history || inv.history
  denyWarnings := settings.denyWarnings || inv.denyWarnings
  format := inv.format.getD settings.format

def ofInvocation (read : Reader) (files : Files) (inv : Invocation) : Except RunError Settings :=
  match inv.config with
  | none => .ok (withOptions {} inv)
  | some path => (load read files path).map (·.withOptions inv)

/-- The steps of a run are announced in text format unless it is quiet. -/
def announces (settings : Settings) (quiet : Bool) : Bool := settings.format = .text && !quiet

end Settings

namespace Run

def textLines (lines : List String) : Text := lines.flatMap fun line => line.toList ++ ['\n']

/-- What is printed before a file is opened. -/
def announcement (settings : Settings) (quiet : Bool) (path : String) : Text :=
  if settings.announces quiet then textLines ["1. Parse", "  < " ++ path] else []

def countLine (settings : Settings) (quiet : Bool) (report : Report) : Text :=
  if settings.announces quiet then
    textLines ["2. Validate", "  " ++ toString report.statements ++ " statements"]
  else []

def cellMapText (settings : Settings) (quiet : Bool) (report : Report) : Text :=
  if settings.cellMap then
    (if settings.announces quiet then textLines ["3. Cell Map"] else []) ++
      cellTable report.cells report.claims
  else []

def historyText (settings : Settings) (report : Report) : Text :=
  if settings.history then historyTable report.history else []

/-- What is printed about a file, which in JSON format is nothing. -/
def findingsText (settings : Settings) (quiet : Bool) (source : Text) (report : Report) : Text :=
  match settings.format with
  | .json => []
  | .text =>
    countLine settings quiet report ++
      (report.diagnostics.flatMap fun d => d.toText report.file source) ++
      cellMapText settings quiet report ++ historyText settings report

/-- Checks the files in order up to the first one that cannot be read. -/
def checkFiles (files : Files) (settings : Settings) (quiet : Bool) :
    List String → Text × Except RunError (List Report)
  | [] => ([], .ok [])
  | path :: rest =>
    match (files path).text? with
    | none => (announcement settings quiet path, .error (.fileOpen path))
    | some source =>
      let report := Report.check path source
      let (output, result) := checkFiles files settings quiet rest
      (announcement settings quiet path ++ findingsText settings quiet source report ++ output,
        result.map (report :: ·))

def passed (settings : Settings) (reports : List Report) : Bool :=
  !reports.any fun report => report.failed settings.denyWarnings

def summaryLine (passed : Bool) (reports : List Report) : Text :=
  let mark :=
    if passed then Style.apply [.green, .bold] "ok".toList
    else Style.apply [.red, .bold] "failed".toList
  let total (count : Report → Nat) := reports.foldr (fun r n => count r + n) 0
  mark ++ ": ".toList ++ Numeral.decimal (total Report.errors) ++ " error(s), ".toList ++
    Numeral.decimal (total Report.warnings) ++ " warning(s)".toList

def conclusion (settings : Settings) (reports : List Report) : Text :=
  match settings.format with
  | .json => (Json.array (reports.map Report.toJson)).pretty ++ ['\n']
  | .text => summaryLine (passed settings reports) reports ++ ['\n']

def withSettings (files : Files) (inv : Invocation) (settings : Settings) : Outcome :=
  match checkFiles files settings inv.quiet inv.files with
  | (output, .error e) => ⟨output, .error e⟩
  | (output, .ok reports) =>
    ⟨output ++ conclusion settings reports, .ok (passed settings reports)⟩

end Run

def run (files : Files) (inv : Invocation) (read : Settings.Reader := Settings.ofText?) : Outcome :=
  match Settings.ofInvocation read files inv with
  | .error e => ⟨[], .error e⟩
  | .ok settings => Run.withSettings files inv settings

namespace Outcome

def exitCode (o : Outcome) : Nat :=
  match o.result with
  | .ok true => 0
  | _ => 1

/-- All that goes to standard output, an error that broke off the run last. -/
def standardOutput (o : Outcome) : Text :=
  match o.result with
  | .ok _ => o.output
  | .error e =>
    o.output ++ Style.apply [.red, .bold] "error".toList ++ ": ".toList ++ e.message.toList ++
      ['\n']

end Outcome

end CellCheck
