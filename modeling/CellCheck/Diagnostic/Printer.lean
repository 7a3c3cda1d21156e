import CellCheck.Diagnostic.Basic
import CellCheck.Json
import CellCheck.Style
import CellCheck.Text.Line

/-!
# Printing diagnostics

A diagnostic is printed with its place, the line it is about and a marker under its span, or as a
JSON object.
-/

namespace CellCheck

namespace Severity

def style : Severity → List Style
  | error => [.red, .bold]
  | warning => [.yellow, .bold]

def label : Severity → String
  | error => "error"
  | warning => "warn"

end Severity

namespace Diagnostic

/-- The marker is at least one character wide. -/
def marker (d : Diagnostic) : Text :=
  List.replicate d.column ' ' ++ List.replicate (max d.length 1) '^'

def heading (d : Diagnostic) : Text :=
  Style.apply d.severity.style d.severity.label.toList ++ ": ".toList ++ d.message.toList

def place (d : Diagnostic) (file : String) : Text :=
  "     ".toList ++ Style.apply [.blue] "-->".toList ++
    ' ' :: Style.apply [.underline] (file.toList ++ ':' :: Numeral.decimal (d.line + 1))

def bar : Text := "      ".toList ++ Style.apply [.blue] ['|']

def sourceLine (d : Diagnostic) (source : Text) : Text :=
  let number := Text.alignRight 4 (Numeral.decimal (d.line + 1))
  ' ' :: Style.apply [.blue] (number ++ " |".toList) ++ ' ' :: (source.lines[d.line]?).getD []

/-- The diagnostic with its line of the source. -/
def toLines (d : Diagnostic) (file : String) (source : Text) : List Text :=
  [d.heading, d.place file, bar, d.sourceLine source,
    bar ++ ' ' :: Style.apply d.severity.style d.marker]

def toText (d : Diagnostic) (file : String) (source : Text) : Text :=
  (d.toLines file source).flatMap (· ++ ['\n'])

def toJson (d : Diagnostic) : Json :=
  .object [("line", .number d.line), ("column", .number d.column), ("length", .number d.length),
    ("message", .string d.message), ("severity", .string d.severity.name)]

end Diagnostic

end CellCheck
