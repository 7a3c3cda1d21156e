import CellCheck.Proofs.Analysis.Violation
import CellCheck.Proofs.Analysis.Allocation
import CellCheck.Proofs.CellMap.Operations

/-!
# Warnings and the order of the diagnostics

A program is warned about references to cells that nothing claims and about cells with several
owners. The redeclarations are reported first, then what is wrong with each operation, and at last
the shared cells.
-/

namespace CellCheck

def Command.initCell? : Command → Option Cell
  | .init i => some i.cell
  | _ => none

def Claimed (commands : List Placed) (c : Cell) : Prop :=
  (∃ p ∈ commands, p.command.initCell? = some c) ∨ ∃ d ∈ firstDeclarations commands, c ∈ d.cells

instance (commands : List Placed) (c : Cell) : Decidable (Claimed commands c) :=
  inferInstanceAs (Decidable ((∃ p ∈ commands, p.command.initCell? = some c) ∨
    ∃ d ∈ firstDeclarations commands, c ∈ d.cells))

def Cell.shapedNumber? : Text → Option Nat
  | 'C' :: digits => Numeral.readDecimal? digits
  | _ => none

/-- The warning about an assigned reference that is shaped like a cell, if its number is too large
for a cell or nothing claims the cell. -/
def unallocatedReference? (commands : List Placed) (p : Placed) : Option Finding :=
  match p.command with
  | .assign ⟨_, .reference target⟩ =>
    match Cell.shapedNumber? target.toList with
    | some n =>
      if UInt32.size ≤ n ∨ ¬ Claimed commands (Cell.ofNat n) then
        some ⟨p.position, .unallocatedReference target⟩
      else none
    | none => none
  | _ => none

def Finding.isWarning (f : Finding) : Bool := f.cause.severity = .warning

def operationFindings (commands : List Placed) : List Finding :=
  commands.zipIdx.flatMap fun (p, i) =>
    (usageSites commands i p).map Prod.snd ++ (unallocatedReference? commands p).toList

/-- The warning about a shared cell stands at its last claim and covers the owner there. -/
def Shared.warning (s : Shared) : Diagnostic :=
  ⟨s.latest.line, 0, s.latest.owner.utf8ByteSize, (Cause.sharedCell s).message, .warning⟩

/-- All cells that the commands share out among several owners. -/
structure ListsShared (commands : List Placed) (shared : List Shared) : Prop where
  ascending : shared.Pairwise fun x y => x.cell.toNat < y.cell.toNat
  mem_cells_iff : ∀ c, c ∈ shared.map Shared.cell ↔
    ∃ a ∈ claimsIn commands c, ∃ b ∈ claimsIn commands c, a.owner ≠ b.owner
  owners : ∀ s ∈ shared, OwnersOf (claimsIn commands s.cell) s.owners
  latest : ∀ s ∈ shared, (claimsIn commands s.cell).getLast? = some s.latest

section Claims

theorem claimsOf_ne_nil_iff (before : List Placed) (p : Placed) (c : Cell) :
    claimsOf c before p ≠ [] ↔
      p.command.initCell? = some c ∨ ∃ d ∈ firstDeclaration? before p, c ∈ d.cells := by
  obtain ⟨position, command⟩ := p
  cases command with
  | init i => by_cases h : i.cell = c <;> simp [claimsOf, firstDeclaration?, Command.initCell?, h]
  | _ =>
    simp only [claimsOf, Command.initCell?, reduceCtorEq, false_or]
    generalize firstDeclaration? before _ = declared
    cases declared with
    | none => simp
    | some d => simp [List.count_eq_zero]

theorem claimsIn_ne_nil_iff (commands : List Placed) (c : Cell) :
    claimsIn commands c ≠ [] ↔ Claimed commands c := by
  induction commands using List.reverseRecOn with
  | nil => simp [claimsIn, Claimed, firstDeclarations]
  | append_singleton commands p ih =>
    have hinits : (∃ q ∈ commands ++ [p], q.command.initCell? = some c) ↔
        (∃ q ∈ commands, q.command.initCell? = some c) ∨ p.command.initCell? = some c := by
      simp [or_and_right, exists_or]
    have hdeclarations : (∃ d ∈ firstDeclarations (commands ++ [p]), c ∈ d.cells) ↔
        (∃ d ∈ firstDeclarations commands, c ∈ d.cells) ∨
          ∃ d ∈ firstDeclaration? commands p, c ∈ d.cells := by
      simp [firstDeclarations_snoc, or_and_right, exists_or]
    rw [claimsIn_snoc, Claimed, hinits, hdeclarations, or_or_or_comm, ← Claimed, ← ih,
      ← claimsOf_ne_nil_iff, ← not_and_or]
    exact not_congr List.append_eq_nil_iff

theorem Cell.isShaped_iff (s : Text) :
    Cell.isShaped s = true ↔ ∃ n, Cell.shapedNumber? s = some n := by
  by_cases hs : ∃ digits, s = 'C' :: digits
  · obtain ⟨digits, rfl⟩ := hs
    by_cases h : Numeral.isDigits digits <;>
      simp [Cell.isShaped, Cell.shapedNumber?, Numeral.readDecimal?, h]
  · have hshaped : Cell.isShaped s = false := by
      unfold Cell.isShaped
      split
      · exact absurd ⟨_, rfl⟩ hs
      · rfl
    have hnumber : Cell.shapedNumber? s = none := by
      unfold Cell.shapedNumber?
      split
      · exact absurd ⟨_, rfl⟩ hs
      · rfl
    simp [hshaped, hnumber]

theorem Cell.ofText?_of_shapedNumber? {s : Text} {n : Nat} (h : Cell.shapedNumber? s = some n) :
    Cell.ofText? s = if n < UInt32.size then some (Cell.ofNat n) else none := by
  unfold Cell.shapedNumber? at h
  split at h
  · next digits =>
    rw [Cell.ofText?, Numeral.readBelow?, h]
    by_cases hn : n < UInt32.size <;> simp [Option.filter, hn]
  · cases h

variable {t : Tables} {commands : List Placed} (h : t.Record commands)
  (hfilled : t.cells.claims.Filled)

include h hfilled

theorem isAllocated_iff (c : Cell) : t.cells.isAllocated c = true ↔ Claimed commands c := by
  rw [← claimsIn_ne_nil_iff, ← h.claims c]
  exact hfilled c

theorem isAllocatedToken_iff {token : Text} {n : Nat} (hn : Cell.shapedNumber? token = some n) :
    t.isAllocatedToken token = true ↔ ¬ (UInt32.size ≤ n ∨ ¬ Claimed commands (Cell.ofNat n)) := by
  rw [Tables.isAllocatedToken, Cell.ofText?_of_shapedNumber? hn, not_or, Nat.not_le, not_not]
  by_cases hlt : n < UInt32.size
  · simp [hlt, isAllocated_iff h hfilled]
  · simp [hlt]

end Claims

section Operations

/-- Causes that are errors are kept as they are when errors are selected. -/
theorem errorsAt_eq_map {causes : List Cause} (position : Position)
    (h : ∀ cause ∈ causes, cause.severity = .error) :
    errorsAt position causes = causes.map fun cause => ⟨position, cause⟩ := by
  refine List.filter_eq_self.2 fun f hf => ?_
  obtain ⟨cause, hcause, rfl⟩ := List.mem_map.1 hf
  exact decide_eq_true (h cause hcause)

variable (t : Tables)

theorem severity_of_mem_ite {declared : Bool} {cause c : Cause} (hcause : cause.severity = .error)
    (hc : c ∈ if declared then [] else [cause]) : c.severity = .error := by
  split_ifs at hc
  · cases hc
  · rwa [List.mem_singleton.1 hc]

theorem severity_of_mem_targetCauses {target : Target} {cause : Cause}
    (h : cause ∈ t.targetCauses target) : cause.severity = .error := by
  cases target with
  | name n => exact severity_of_mem_ite rfl h
  | _ => cases h

theorem severity_of_mem_operandCauses {operand : Operand} {cause : Cause}
    (h : cause ∈ t.operandCauses operand) : cause.severity = .error := by
  cases operand with
  | name n => exact severity_of_mem_ite rfl h
  | cell c => cases h

theorem severity_of_mem_argumentCauses {argument : Operand} {cause : Cause}
    (h : cause ∈ t.argumentCauses argument) : cause.severity = .error := by
  cases argument with
  | name n => exact severity_of_mem_ite rfl h
  | cell c => cases h

theorem severity_of_mem_callCauses {c : Call} {cause : Cause} (h : cause ∈ t.callCauses c) :
    cause.severity = .error := by
  unfold Tables.callCauses at h
  split at h
  · rw [List.mem_singleton.1 h]
    rfl
  · rcases List.mem_append.1 h with hcount | hargument
    · split_ifs at hcount
      · cases hcount
      · rw [List.mem_singleton.1 hcount]
        rfl
    · obtain ⟨argument, -, hcause⟩ := List.mem_flatMap.1 hargument
      exact severity_of_mem_argumentCauses t hcause

/-- Only a reference can cause a warning. -/
theorem severity_of_mem_causes {c : Command} (hc : ∀ a, c ≠ .assign a) {cause : Cause}
    (h : cause ∈ t.causes c) : cause.severity = .error := by
  cases c with
  | assign a => exact absurd rfl (hc a)
  | move m =>
    rcases List.mem_append.1 h with hsource | hdestination
    · exact severity_of_mem_operandCauses t hsource
    · exact severity_of_mem_operandCauses t hdestination
  | call c => exact severity_of_mem_callCauses t h
  | _ => cases h

variable {t} {commands : List Placed} (h : t.Record commands)
  (hfilled : t.cells.claims.Filled) (i : Nat)

include h hfilled

theorem referenceFindings_eq (position : Position) (target : Target) (value : Value) :
    (t.referenceCauses value).map (fun cause => ⟨position, cause⟩) =
      (referenceSites commands i position value).map Prod.snd ++
        (unallocatedReference? commands ⟨position, .assign ⟨target, value⟩⟩).toList := by
  cases value with
  | reference name =>
    cases hn : Cell.shapedNumber? name.toList with
    | none =>
      have hshape : ¬ Cell.isShaped name.toList = true := by
        rw [Cell.isShaped_iff, hn]
        simp
      have hcauses : ∀ cause ∈ t.referenceCauses (.reference name), cause.severity = .error := by
        intro cause hcause
        simp only [Tables.referenceCauses, Value.reference?, if_neg hshape] at hcause
        exact severity_of_mem_ite rfl hcause
      rw [← errorsAt_eq_map position hcauses, errorsAt_referenceCauses h i position]
      simp [unallocatedReference?, hn]
    | some n =>
      have hshape : Cell.isShaped name.toList = true := (Cell.isShaped_iff _).2 ⟨n, hn⟩
      have hallocated := isAllocatedToken_iff h hfilled hn
      simp only [Tables.referenceCauses, Value.reference?, referenceSites, if_pos hshape,
        unallocatedReference?, hn]
      by_cases hfree : UInt32.size ≤ n ∨ ¬ Claimed commands (Cell.ofNat n)
      · rw [if_pos hfree, if_neg fun hc => hallocated.1 hc hfree]
        rfl
      · rw [if_neg hfree, if_pos (hallocated.2 hfree)]
        rfl
  | _ => rfl

theorem findings_eq (p : Placed) :
    t.findings p =
      (usageSites commands i p).map Prod.snd ++ (unallocatedReference? commands p).toList := by
  obtain ⟨position, c⟩ := p
  have herrors (hc : ∀ a, c ≠ .assign a) :
      t.findings ⟨position, c⟩ = (usageSites commands i ⟨position, c⟩).map Prod.snd := by
    rw [← filter_isError_findings h i]
    exact (errorsAt_eq_map position fun cause => severity_of_mem_causes t hc).symm
  cases c with
  | assign a =>
    rw [usageSites, List.map_append, List.append_assoc,
      ← referenceFindings_eq h hfilled i position a.target, ← errorsAt_targetCauses h i position,
      errorsAt_eq_map position fun cause => severity_of_mem_targetCauses t, ← List.map_append]
    rfl
  | _ =>
    rw [herrors fun a h => by cases h]
    exact (List.append_nil _).symm

end Operations

namespace Analysis

theorem filled_ofCommands (commands : List Placed) :
    (Tables.ofCommands commands).cells.claims.Filled :=
  Tables.cells_ofCommands_induction (motive := fun m => m.claims.Filled) CellLog.filled_empty
    (fun _ c claim h => h.push c claim) commands

theorem flatMap_findings (commands : List Placed) :
    commands.flatMap (Tables.ofCommands commands).findings = operationFindings commands := by
  have hrecord := Tables.record_ofCommands commands
  rw [← flatMap_zipIdx_fst]
  exact List.flatMap_congr fun x _ => findings_eq hrecord (filled_ofCommands commands) x.2 x.1

theorem listsShared_ofCommands (commands : List Placed) :
    ListsShared commands (ofCommands commands).cells.shared where
  ascending := CellMap.shared_pairwise_lt _
  mem_cells_iff c := by
    rw [CellMap.mem_cells_shared_iff, claimsOn_ofCommands]
  owners s hs := by
    rw [← claimsOn_ofCommands]
    exact ((CellMap.mem_shared_iff _ s).1 hs).owners
  latest s hs := by
    rw [← claimsOn_ofCommands]
    exact ((CellMap.mem_shared_iff _ s).1 hs).latest

/-- Only an assigned reference can be warned about. -/
theorem eq_of_unallocatedReference? {commands : List Placed} {p : Placed} {f : Finding}
    (h : unallocatedReference? commands p = some f) :
    ∃ target name, p.command = .assign ⟨target, .reference name⟩ ∧
      f = ⟨p.position, .unallocatedReference name⟩ := by
  unfold unallocatedReference? at h
  split at h
  · next target name hcommand =>
    split at h
    · split_ifs at h
      exact ⟨target, name, hcommand, (Option.some.inj h).symm⟩
    · cases h
  · cases h

theorem filter_isWarning_redeclarations (commands : List Placed) :
    (redeclarations commands).filter Finding.isWarning = [] := by
  refine List.filter_eq_nil_iff.2 fun f hf => ?_
  obtain ⟨p, i, -, hmem⟩ := mem_inProgramOrder.1 hf
  obtain ⟨name, -, -, rfl⟩ := redeclaration?_eq_some.1 (Option.mem_toList.1 hmem)
  exact nofun

theorem filter_isWarning_operationFindings (commands : List Placed) :
    (operationFindings commands).filter Finding.isWarning =
      commands.filterMap (unallocatedReference? commands) := by
  have herrors (i : Nat) (p : Placed) :
      ((usageSites commands i p).map Prod.snd).filter Finding.isWarning = [] := by
    rw [← filter_isError_findings (Tables.record_ofCommands commands) i, List.filter_filter,
      List.filter_eq_nil_iff]
    intro f _ hboth
    rw [Bool.and_eq_true] at hboth
    have hseverity : Severity.warning = .error :=
      (of_decide_eq_true hboth.1).symm.trans (of_decide_eq_true hboth.2)
    cases hseverity
  have hreference (p : Placed) :
      (unallocatedReference? commands p).toList.filter Finding.isWarning =
        (unallocatedReference? commands p).toList := by
    refine List.filter_eq_self.2 fun f hf => ?_
    obtain ⟨target, name, -, rfl⟩ := eq_of_unallocatedReference? (Option.mem_toList.1 hf)
    rfl
  rw [operationFindings, List.filter_flatMap]
  simp only [List.filter_append, herrors, hreference, List.nil_append]
  rw [flatMap_zipIdx_fst fun p => (unallocatedReference? commands p).toList]
  exact (List.filterMap_eq_flatMap_toList _ _).symm

end Analysis

end CellCheck
