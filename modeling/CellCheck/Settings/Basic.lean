import CellCheck.Yaml.Mapping

/-!
# Settings

What a settings file can choose. Keys that it leaves out keep their defaults; an unknown key, a
key given twice or a value of another type makes the whole file invalid.
-/

namespace CellCheck

inductive OutputFormat where
  | text
  | json
  deriving DecidableEq, Repr

namespace OutputFormat

def ofName? (name : Text) : Option OutputFormat :=
  if name = "text".toList then some .text
  else if name = "json".toList then some .json
  else none

/-- The name in a tag that is one exclamation mark and a name, or that mark alone. A tag that is
no text names nothing. -/
def taggedName? : Yaml.Octets → Option Text
  | 0x21 :: [] => some ['!']
  | 0x21 :: name => (String.fromUTF8? name.toByteArray).map String.toList
  | _ => none

def isNull (value : Yaml.Scalar) : Bool :=
  value.style == .plain && ["", "~", "null", "Null", "NULL"].any (·.toList == value.content)

/-- A format is a text, or a tag on nothing. -/
def ofScalar? (value : Yaml.Scalar) : Option OutputFormat :=
  match value.tag.bind taggedName? with
  | some name => if isNull value then ofName? name else none
  | none => ofName? value.content

end OutputFormat

structure Settings where
  cellMap : Bool := false
  history : Bool := false
  denyWarnings : Bool := false
  format : OutputFormat := .text
  deriving DecidableEq, Repr

namespace Settings

/-- Truth values have no quotes, and as block scalars they need the tag of their type. -/
def isTruthForm (value : Yaml.Scalar) : Bool :=
  match value.style with
  | .plain => true
  | .literal => value.tag.any (·.spell "tag:yaml.org,2002:bool")
  | _ => false

/-- A truth value has three spellings. -/
def truth? (value : Yaml.Scalar) : Option Bool :=
  if !isTruthForm value then none
  else if value.content ∈ ["true".toList, "True".toList, "TRUE".toList] then some true
  else if value.content ∈ ["false".toList, "False".toList, "FALSE".toList] then some false
  else none

def set? (settings : Settings) (key : Text) (value : Yaml.Scalar) : Option Settings :=
  if key = "cell_map".toList then (truth? value).map fun b => { settings with cellMap := b }
  else if key = "history".toList then (truth? value).map fun b => { settings with history := b }
  else if key = "deny_warnings".toList then
    (truth? value).map fun b => { settings with denyWarnings := b }
  else if key = "format".toList then
    (OutputFormat.ofScalar? value).map fun f => { settings with format := f }
  else none

def ofText? (source : Text) : Option Settings :=
  (Yaml.Document.entries? source).bind fun entries =>
    if (entries.map fun entry => entry.1.content).Nodup then
      entries.foldlM (fun settings entry => set? settings entry.1.content entry.2) {}
    else none

end Settings

end CellCheck
