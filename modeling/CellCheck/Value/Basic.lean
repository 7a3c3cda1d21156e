import CellCheck.Literal.Printer

/-!
# Values

The right-hand side of a declaration or an assignment. A text that starts like one of the literal
forms and does not read as one is kept as it is, marked raw; every other text is free text.
-/

namespace CellCheck

inductive Value where
  | int (n : UInt64)
  | hex (n : UInt64)
  | reference (target : String)
  | object (fields : Fields)
  | array (items : List Literal)
  | text (content : String)
  | raw (content : String)
  deriving DecidableEq, Repr

namespace Value

def reference? : Value → Option String
  | reference target => some target
  | _ => none

def isRaw : Value → Bool
  | raw _ => true
  | _ => false

def toText : Value → Text
  | int n => Numeral.decimal n.toNat
  | hex n => '0' :: 'x' :: Numeral.hexadecimal n.toNat
  | reference target => '&' :: target.toList
  | object fields => Literal.objectText fields
  | array items => Literal.arrayText items
  | text content => content.toList
  | raw content => content.toList

/-- Equality of values with numbers compared as numbers and fields in any order. -/
def same : Value → Value → Bool
  | int n, int m => n = m
  | hex n, hex m => n = m
  | reference t, reference u => t = u
  | object fields, object fields' => Literal.sameFields fields fields'
  | array items, array items' => Literal.sameItems items items'
  | text s, text t => s = t
  | raw s, raw t => s = t
  | _, _ => false

end Value

end CellCheck
