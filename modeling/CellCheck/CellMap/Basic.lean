import CellCheck.CellMap.Log
import CellCheck.Kind

/-!
# The cell map

Declarations claim cells and operations touch them. The map keeps all claims on a cell, of which
the last one is current, and the events on it: its claims and touches in order.
-/

namespace CellCheck

/-- A claim on a cell by a declaration that claims `size` cells. -/
structure Claim where
  owner : String
  kind : ClaimKind
  size : Nat
  line : Nat
  deriving DecidableEq, Repr

inductive EventKind where
  | allocation
  | usage
  deriving DecidableEq, Repr

def EventKind.name : EventKind → String
  | allocation => "allocation"
  | usage => "usage"

/-- Something that happened to a cell. The owner of a usage is the tag of the operation. -/
structure Event where
  owner : String
  line : Nat
  kind : EventKind
  deriving DecidableEq, Repr

/-- The current claim on a cell. -/
structure CellInfo where
  cell : Cell
  owner : String
  kind : ClaimKind
  size : Nat
  deriving DecidableEq, Repr

/-- A cell that several owners claim. -/
structure Shared where
  cell : Cell
  owners : List String
  latest : Claim
  deriving DecidableEq, Repr

structure CellMap where
  claims : CellLog Claim
  events : CellLog Event

namespace CellMap

def empty : CellMap := ⟨.empty, .empty⟩

def allocate (m : CellMap) (c : Cell) (claim : Claim) : CellMap where
  claims := m.claims.push c claim
  events := m.events.push c ⟨claim.owner, claim.line, .allocation⟩

def touch (m : CellMap) (c : Cell) (tag : String) (line : Nat) : CellMap where
  claims := m.claims
  events := m.events.push c ⟨tag, line, .usage⟩

def isAllocated (m : CellMap) (c : Cell) : Bool := m.claims.contains c

def claimsOn (m : CellMap) (c : Cell) : List Claim := m.claims.get c

def history (m : CellMap) (c : Cell) : List Event := m.events.get c

def current? (m : CellMap) (c : Cell) : Option Claim := (m.claimsOn c).getLast?

/-- The claimed cells in ascending order with their claims. -/
def claimed (m : CellMap) : List (Cell × List Claim) := m.claims.toList

/-- The cells with events in ascending order with their events. -/
def touched (m : CellMap) : List (Cell × List Event) := m.events.toList

/-- The current claims in ascending order of cells. -/
def snapshot (m : CellMap) : List CellInfo :=
  m.claimed.filterMap fun (c, claims) =>
    claims.getLast?.map fun latest => ⟨c, latest.owner, latest.kind, latest.size⟩

/-- The owners of claims, each once, in the order of their first claims. -/
def owners (claims : List Claim) : List String := (claims.map Claim.owner).eraseDups

/-- The cells with claims of two or more owners. -/
def shared (m : CellMap) : List Shared :=
  m.claimed.filterMap fun (c, claims) =>
    if (owners claims).length < 2 then none
    else claims.getLast?.map fun latest => ⟨c, owners claims, latest⟩

@[simp] theorem claimsOn_empty (c : Cell) : empty.claimsOn c = [] := CellLog.get_empty c

@[simp] theorem history_empty (c : Cell) : empty.history c = [] := CellLog.get_empty c

theorem claimsOn_allocate (m : CellMap) (c d : Cell) (claim : Claim) :
    (m.allocate c claim).claimsOn d =
      if c = d then m.claimsOn d ++ [claim] else m.claimsOn d :=
  CellLog.get_push m.claims c d claim

theorem history_allocate (m : CellMap) (c d : Cell) (claim : Claim) :
    (m.allocate c claim).history d =
      if c = d then m.history d ++ [⟨claim.owner, claim.line, .allocation⟩] else m.history d :=
  CellLog.get_push m.events c d _

@[simp] theorem claimsOn_touch (m : CellMap) (c d : Cell) (tag : String) (line : Nat) :
    (m.touch c tag line).claimsOn d = m.claimsOn d := rfl

theorem history_touch (m : CellMap) (c d : Cell) (tag : String) (line : Nat) :
    (m.touch c tag line).history d =
      if c = d then m.history d ++ [⟨tag, line, .usage⟩] else m.history d :=
  CellLog.get_push m.events c d _

end CellMap

end CellCheck
