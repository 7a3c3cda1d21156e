import CellCheck.Yaml.Directive

/-!
# Tokens of a document

A block mapping has no brackets of its own in the source; its start and end are tokens here, and
so is the start of a key wherever it shows only by the colon behind the key.
-/

namespace CellCheck.Yaml

inductive ScalarStyle where
  | plain
  | quoted
  | literal
  | folded
  deriving DecidableEq, Repr

inductive Token where
  | directive (d : Directive)
  | documentStart
  | documentEnd
  | blockStart
  | blockEnd
  | openBrace
  | closeBrace
  | comma
  | key
  | value
  | anchor (name : Text)
  | aliasOf (name : Text)
  | tag (t : Tag)
  | scalar (style : ScalarStyle) (content : Text)
  deriving DecidableEq, Repr

end CellCheck.Yaml
