import CellCheck.Proofs.CellMap.Sharing
import Mathlib.Data.List.Induction

/-!
# Operations on a cell map

The claims and the events of a map are stored apart from each other, and only claims change both.
After any sequence of operations the two agree, and every view of the map shows what the operations
did to its cells.
-/

namespace CellCheck

def Claim.event (claim : Claim) : Event := ⟨claim.owner, claim.line, .allocation⟩

namespace CellLog

variable {α : Type} {log : CellLog α}

/-- Nothing is stored for a cell without entries. -/
def Filled (log : CellLog α) : Prop := ∀ c, log.contains c = true ↔ log.get c ≠ []

theorem filled_empty : (empty : CellLog α).Filled := by
  intro c
  simp

theorem Filled.push (h : log.Filled) (c : Cell) (a : α) : (log.push c a).Filled := by
  intro d
  rw [contains_push, get_push]
  by_cases hd : c = d
  · simp [hd]
  · simpa [hd] using h d

theorem Filled.mem_toList_iff (h : log.Filled) {c : Cell} {as : List α} :
    (c, as) ∈ log.toList ↔ as ≠ [] ∧ log.get c = as := by
  constructor
  · intro hmem
    have hget := get_of_mem_toList hmem
    obtain ⟨⟨d, recorded⟩, hentry, he⟩ := List.mem_map.1 hmem
    obtain ⟨rfl, -⟩ := Prod.mk.inj he
    have hcontains : log.contains d = true := by
      rw [contains, Std.TreeMap.contains_eq_isSome_getElem?,
        Std.TreeMap.mem_toList_iff_getElem?_eq_some.1 hentry]
      rfl
    exact ⟨hget ▸ (h d).1 hcontains, hget⟩
  · rintro ⟨hne, rfl⟩
    exact mem_toList_of_get_ne_nil hne

end CellLog

namespace CellMap

inductive Operation where
  | allocate (c : Cell) (claim : Claim)
  | touch (c : Cell) (tag : String) (line : Nat)
  deriving DecidableEq, Repr

namespace Operation

def cell : Operation → Cell
  | allocate c _ => c
  | touch c _ _ => c

def claimOn? (c : Cell) : Operation → Option Claim
  | allocate d claim => if d = c then some claim else none
  | touch _ _ _ => none

def usageOn? (c : Cell) : Operation → Option Event
  | allocate _ _ => none
  | touch d tag line => if d = c then some ⟨tag, line, .usage⟩ else none

def eventOn? (c : Cell) (op : Operation) : Option Event :=
  ((op.claimOn? c).map Claim.event).or (op.usageOn? c)

/-- The event of an operation tells its kind. -/
theorem filter_eventOn? (op : Operation) (c : Cell) :
    (op.eventOn? c).filter (·.kind = .allocation) = (op.claimOn? c).map Claim.event ∧
      (op.eventOn? c).filter (·.kind = .usage) = op.usageOn? c := by
  cases op with
  | allocate d claim =>
    by_cases hd : d = c <;> simp [eventOn?, claimOn?, usageOn?, Claim.event, Option.filter, hd]
  | touch d tag line =>
    by_cases hd : d = c <;> simp [eventOn?, claimOn?, usageOn?, Option.filter, hd]

theorem eq_none_of_cell_ne {op : Operation} {c : Cell} (h : op.cell ≠ c) :
    op.claimOn? c = none ∧ op.eventOn? c = none := by
  cases op with
  | allocate d claim =>
    have hne : ¬ d = c := h
    simp [eventOn?, claimOn?, usageOn?, hne]
  | touch d tag line =>
    have hne : ¬ d = c := h
    simp [eventOn?, claimOn?, usageOn?, hne]

end Operation

def apply (m : CellMap) : Operation → CellMap
  | .allocate c claim => m.allocate c claim
  | .touch c tag line => m.touch c tag line

def ofOperations (ops : List Operation) : CellMap := ops.foldl apply empty

/-- The views of the map agree with each other and show the operations. -/
structure Shows (m : CellMap) (ops : List Operation) : Prop where
  claimsOn_eq : ∀ c, m.claimsOn c = ops.filterMap (Operation.claimOn? c)
  allocations_eq : ∀ c,
    (m.history c).filter (·.kind = .allocation) = (m.claimsOn c).map Claim.event
  usages_eq : ∀ c, (m.history c).filter (·.kind = .usage) = ops.filterMap (Operation.usageOn? c)
  mem_claimed_iff : ∀ c claims, (c, claims) ∈ m.claimed ↔ claims ≠ [] ∧ m.claimsOn c = claims
  mem_touched_iff : ∀ c events, (c, events) ∈ m.touched ↔ events ≠ [] ∧ m.history c = events
  isAllocated_iff : ∀ c, m.isAllocated c = true ↔ m.claimsOn c ≠ []
  isSome_current_iff : ∀ c, (m.current? c).isSome = true ↔ m.claimsOn c ≠ []
  mem_cells_snapshot_iff : ∀ c, c ∈ m.snapshot.map CellInfo.cell ↔ m.claimsOn c ≠ []
  current_eq_some_iff : ∀ c latest,
    m.current? c = some latest ↔ ∃ front, m.claimsOn c = front ++ [latest]
  mem_snapshot_iff : ∀ info, info ∈ m.snapshot ↔ ∃ latest,
    m.current? info.cell = some latest ∧
      info = ⟨info.cell, latest.owner, latest.kind, latest.size⟩
  claimed_ascending : m.claimed.Pairwise fun x y => x.1.toNat < y.1.toNat
  touched_ascending : m.touched.Pairwise fun x y => x.1.toNat < y.1.toNat
  snapshot_ascending : m.snapshot.Pairwise fun x y => x.cell.toNat < y.cell.toNat
  shared_ascending : m.shared.Pairwise fun x y => x.cell.toNat < y.cell.toNat
  claimed_subset_touched : m.claimed.map Prod.fst ⊆ m.touched.map Prod.fst
  mem_cells_shared_iff : ∀ c, c ∈ m.shared.map Shared.cell ↔
    ∃ a ∈ m.claimsOn c, ∃ b ∈ m.claimsOn c, a.owner ≠ b.owner
  owners_of_shared : ∀ s ∈ m.shared, OwnersOf (m.claimsOn s.cell) s.owners
  latest_of_shared : ∀ s ∈ m.shared, m.current? s.cell = some s.latest
  others_unchanged : ∀ op c, op.cell ≠ c →
    (m.apply op).claimsOn c = m.claimsOn c ∧ (m.apply op).history c = m.history c

structure Follows (m : CellMap) (ops : List Operation) : Prop where
  claimsOn_eq : ∀ c, m.claimsOn c = ops.filterMap (Operation.claimOn? c)
  history_eq : ∀ c, m.history c = ops.filterMap (Operation.eventOn? c)
  claims_filled : m.claims.Filled
  events_filled : m.events.Filled

section Runs

theorem claimsOn_apply (m : CellMap) (op : Operation) (c : Cell) :
    (m.apply op).claimsOn c = m.claimsOn c ++ (op.claimOn? c).toList := by
  cases op with
  | allocate d claim =>
    rw [apply, claimsOn_allocate, Operation.claimOn?]
    split <;> simp
  | touch d tag line => exact (List.append_nil _).symm

theorem history_apply (m : CellMap) (op : Operation) (c : Cell) :
    (m.apply op).history c = m.history c ++ (op.eventOn? c).toList := by
  cases op with
  | allocate d claim =>
    rw [apply, history_allocate, Operation.eventOn?, Operation.claimOn?]
    split <;> simp [Claim.event, Operation.usageOn?]
  | touch d tag line =>
    rw [apply, history_touch, Operation.eventOn?, Operation.usageOn?]
    split <;> simp [Operation.claimOn?]

theorem follows_empty : empty.Follows [] where
  claimsOn_eq := claimsOn_empty
  history_eq := history_empty
  claims_filled := CellLog.filled_empty
  events_filled := CellLog.filled_empty

/-- An operation adds at most one claim and one event, both on its cell. -/
theorem Follows.apply {m : CellMap} {ops : List Operation} (h : m.Follows ops) (op : Operation) :
    (m.apply op).Follows (ops ++ [op]) where
  claimsOn_eq c := by
    rw [claimsOn_apply, h.claimsOn_eq, List.filterMap_append]
    cases hop : op.claimOn? c <;> simp [hop]
  history_eq c := by
    rw [history_apply, h.history_eq, List.filterMap_append]
    cases hop : op.eventOn? c <;> simp [hop]
  claims_filled := by
    cases op with
    | allocate c claim => exact h.claims_filled.push c claim
    | touch c tag line => exact h.claims_filled
  events_filled := by
    cases op with
    | allocate c claim => exact h.events_filled.push c _
    | touch c tag line => exact h.events_filled.push c _

theorem follows_ofOperations (ops : List Operation) : (ofOperations ops).Follows ops := by
  induction ops using List.reverseRecOn with
  | nil => exact follows_empty
  | append_singleton ops op ih =>
    rw [ofOperations, List.foldl_concat]
    exact ih.apply op

end Runs

section Views

variable {m : CellMap} {ops : List Operation} (h : m.Follows ops) (c : Cell)

include h

theorem Follows.allocations_eq :
    (m.history c).filter (·.kind = .allocation) = (m.claimsOn c).map Claim.event := by
  rw [h.history_eq, h.claimsOn_eq, List.filter_filterMap, List.map_filterMap]
  exact List.filterMap_congr fun op _ => (op.filter_eventOn? c).1

theorem Follows.usages_eq :
    (m.history c).filter (·.kind = .usage) = ops.filterMap (Operation.usageOn? c) := by
  rw [h.history_eq, List.filter_filterMap]
  exact List.filterMap_congr fun op _ => (op.filter_eventOn? c).2

/-- A claimed cell has the event of its claim. -/
theorem Follows.history_ne_nil (hclaims : m.claimsOn c ≠ []) : m.history c ≠ [] := by
  intro hnil
  have hallocations := h.allocations_eq c
  rw [hnil, List.filter_nil, eq_comm, List.map_eq_nil_iff] at hallocations
  exact hclaims hallocations

end Views

theorem isSome_current_iff (m : CellMap) (c : Cell) :
    (m.current? c).isSome = true ↔ m.claimsOn c ≠ [] := by
  rw [current?, List.getLast?_isSome]

theorem mem_cells_snapshot_iff (m : CellMap) (c : Cell) :
    c ∈ m.snapshot.map CellInfo.cell ↔ m.claimsOn c ≠ [] := by
  rw [← isSome_current_iff, Option.isSome_iff_exists, List.mem_map]
  constructor
  · rintro ⟨info, hinfo, rfl⟩
    obtain ⟨latest, hlatest, -⟩ := (mem_snapshot_iff m info).1 hinfo
    exact ⟨latest, hlatest⟩
  · rintro ⟨latest, hlatest⟩
    exact ⟨⟨c, latest.owner, latest.kind, latest.size⟩,
      (mem_snapshot_iff m _).2 ⟨latest, hlatest, rfl⟩, rfl⟩

theorem mem_cells_shared_iff (m : CellMap) (c : Cell) :
    c ∈ m.shared.map Shared.cell ↔
      ∃ a ∈ m.claimsOn c, ∃ b ∈ m.claimsOn c, a.owner ≠ b.owner := by
  rw [List.mem_map]
  constructor
  · rintro ⟨s, hs, rfl⟩
    exact ((mem_shared_iff m s).1 hs).several
  · intro hseveral
    have hne : m.claimsOn c ≠ [] := by
      obtain ⟨a, ha, -⟩ := hseveral
      exact List.ne_nil_of_mem ha
    obtain ⟨latest, hlatest⟩ := Option.isSome_iff_exists.1 ((isSome_current_iff m c).2 hne)
    exact ⟨⟨c, owners (m.claimsOn c), latest⟩,
      (mem_shared_iff m _).2 ⟨hseveral, ownersOf_owners _, hlatest⟩, rfl⟩

/-- After any sequence of operations the views of the map agree with each other, and they show the
claims and touches of every cell in the order of the operations. -/
theorem views_agree (ops : List Operation) : (ofOperations ops).Shows ops := by
  have h := follows_ofOperations ops
  exact
    { claimsOn_eq := h.claimsOn_eq
      allocations_eq := h.allocations_eq
      usages_eq := h.usages_eq
      mem_claimed_iff := fun _ _ => h.claims_filled.mem_toList_iff
      mem_touched_iff := fun _ _ => h.events_filled.mem_toList_iff
      isAllocated_iff := h.claims_filled
      isSome_current_iff := isSome_current_iff _
      mem_cells_snapshot_iff := mem_cells_snapshot_iff _
      current_eq_some_iff := fun _ _ => List.getLast?_eq_some_iff
      mem_snapshot_iff := mem_snapshot_iff _
      claimed_ascending := CellLog.toList_pairwise_lt _
      touched_ascending := CellLog.toList_pairwise_lt _
      snapshot_ascending := snapshot_pairwise_lt _
      shared_ascending := shared_pairwise_lt _
      claimed_subset_touched := by
        intro c hc
        obtain ⟨⟨c, claims⟩, hclaims, rfl⟩ := List.mem_map.1 hc
        obtain ⟨hne, rfl⟩ := h.claims_filled.mem_toList_iff.1 hclaims
        have htouched := CellLog.mem_toList_of_get_ne_nil (h.history_ne_nil c hne)
        exact List.mem_map.2 ⟨_, htouched, rfl⟩
      mem_cells_shared_iff := mem_cells_shared_iff _
      owners_of_shared := fun s hs => ((mem_shared_iff _ s).1 hs).owners
      latest_of_shared := fun s hs => ((mem_shared_iff _ s).1 hs).latest
      others_unchanged := by
        intro op c hc
        obtain ⟨hclaim, hevent⟩ := Operation.eq_none_of_cell_ne hc
        rw [claimsOn_apply, history_apply, hclaim, hevent]
        exact ⟨List.append_nil _, List.append_nil _⟩ }

end CellMap

end CellCheck
