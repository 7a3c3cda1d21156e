import CellCheck.Binary64.Basic
import CellCheck.NameTable

/-!
# Literals

The items of objects and arrays: numbers, texts and arrays of items. Objects do not nest, so the
fields of an object are a table of literals.
-/

namespace CellCheck

inductive Literal where
  | number (value : Binary64)
  | text (content : String)
  | array (items : List Literal)
  deriving Inhabited, Repr

abbrev Fields := NameTable Literal

namespace Literal

mutual

def decEq : (x y : Literal) → Decidable (x = y)
  | number x, number y => decidable_of_iff (x = y) (by simp)
  | text x, text y => decidable_of_iff (x = y) (by simp)
  | array xs, array ys =>
    have := decEqItems xs ys
    decidable_of_iff (xs = ys) (by simp)
  | number _, text _ | number _, array _ | text _, number _ | text _, array _
  | array _, number _ | array _, text _ => isFalse nofun

def decEqItems : (xs ys : List Literal) → Decidable (xs = ys)
  | [], [] => isTrue rfl
  | x :: xs, y :: ys =>
    have := decEq x y
    have := decEqItems xs ys
    decidable_of_iff (x = y ∧ xs = ys) (by simp)
  | [], _ :: _ | _ :: _, [] => isFalse nofun

end

instance : DecidableEq Literal := decEq

mutual

/-- Equality of literals with numbers compared as numbers. -/
def same : Literal → Literal → Bool
  | number x, number y => x.sameNumber y
  | text x, text y => x = y
  | array xs, array ys => sameItems xs ys
  | _, _ => false

def sameItems : List Literal → List Literal → Bool
  | [], [] => true
  | x :: xs, y :: ys => same x y && sameItems xs ys
  | _, _ => false

end

/-- Equality of fields in any order. -/
def sameFields (fields fields' : Fields) : Bool :=
  fields.size == fields'.size &&
    fields.entries.all fun entry => (fields'.get? entry.1).any (same entry.2)

end Literal

end CellCheck
