import CellCheck.Yaml.Tag

/-!
# Directives

A line with a percent sign in front says something about the document that follows: the version of
the format, or what the handle of a tag stands for.
-/

namespace CellCheck.Yaml

inductive Directive where
  | version (major minor : Nat)
  | handle (name : Text) (beginning : Octets)
  deriving DecidableEq, Repr

namespace Directive

/-- A number of at most nine digits. -/
def number? (s : Source) : Option (Nat × Source) :=
  let (digits, rest) := s.span fun g => g.char.isDigit
  if digits.length ≤ 9 then (Numeral.readDecimal? (Source.toText digits)).map fun n => (n, rest)
  else none

def version? (s : Source) : Option (Directive × Source) :=
  (number? s.dropBlanks).bind fun (major, rest) =>
    if rest.head?.map Glyph.char = some '.' then
      (number? (rest.drop 1)).map fun (minor, rest) => (version major minor, rest)
    else none

/-- One exclamation mark, or a name between two of them that may be empty. -/
def handleName? (s : Source) : Option (Text × Source) :=
  if s.head?.map Glyph.char = some '!' then
    let (name, rest) := Source.readName (s.drop 1)
    if rest.head?.map Glyph.char = some '!' then some ('!' :: name ++ ['!'], rest.drop 1)
    else if name.isEmpty then some (['!'], rest)
    else none
  else none

def handle? (s : Source) : Option (Directive × Source) :=
  (handleName? s.dropBlanks).bind fun (name, rest) =>
    if rest.head?.any fun g => isBlank g.char then
      (Octets.read? true rest.dropBlanks).bind fun (beginning, rest) =>
        if rest.atGap then some (handle name beginning, rest) else none
    else none

/-- Reads a directive behind its percent sign, with its line. -/
def read? (s : Source) : Option (Directive × Source) :=
  let (name, rest) := s.readName
  let directive :=
    if !rest.atGap then none
    else if name = "YAML".toList then version? rest
    else if name = "TAG".toList then handle? rest
    else none
  directive.bind fun (directive, rest) => rest.afterLine?.map fun rest => (directive, rest)

/-- The handles of directives, which may name one version and each handle once. -/
def handles? (directives : List Directive) : Option Handles :=
  let versions := directives.filterMap fun
    | version major minor => some (major, minor)
    | handle _ _ => none
  let handles := directives.filterMap fun
    | version _ _ => none
    | handle name beginning => some (name, beginning)
  if versions.length ≤ 1 && versions.all (fun v => v.1 = 1 && (v.2 = 1 || v.2 = 2)) &&
      (handles.map Prod.fst).Nodup then some handles
  else none

end Directive

end CellCheck.Yaml
