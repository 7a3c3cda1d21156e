import CellCheck.Cell.Basic
import Std.Data.TreeMap

/-!
# Logs by cell

Entries are recorded under cells and kept in the order of recording. The cells with entries are
listed in ascending order.
-/

namespace CellCheck

structure CellLog (α : Type) where
  entries : Std.TreeMap Cell (Array α)

namespace CellLog

variable {α : Type}

def empty : CellLog α := ⟨∅⟩

def push (log : CellLog α) (c : Cell) (a : α) : CellLog α :=
  ⟨log.entries.alter c fun recorded => some ((recorded.getD #[]).push a)⟩

/-- The entries of one cell. -/
def get (log : CellLog α) (c : Cell) : List α := (log.entries[c]?.getD #[]).toList

def contains (log : CellLog α) (c : Cell) : Bool := log.entries.contains c

def toList (log : CellLog α) : List (Cell × List α) :=
  log.entries.toList.map fun entry => (entry.1, entry.2.toList)

@[simp] theorem get_empty (c : Cell) : (empty : CellLog α).get c = [] := by
  simp [get, empty]

theorem get_push (log : CellLog α) (c d : Cell) (a : α) :
    (log.push c a).get d = if c = d then log.get d ++ [a] else log.get d := by
  simp only [get, push, Std.TreeMap.getElem?_alter, Std.LawfulEqCmp.compare_eq_iff_eq]
  split
  · next h => subst h; simp
  · rfl

@[simp] theorem contains_empty (c : Cell) : (empty : CellLog α).contains c = false := by
  simp [contains, empty]

theorem contains_push (log : CellLog α) (c d : Cell) (a : α) :
    (log.push c a).contains d = (decide (c = d) || log.contains d) := by
  simp only [contains, push, Std.TreeMap.contains_alter, Std.LawfulEqCmp.compare_eq_iff_eq]
  split <;> simp [*]

end CellLog

end CellCheck
