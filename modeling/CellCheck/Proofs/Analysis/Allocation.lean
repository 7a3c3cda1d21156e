import CellCheck.Proofs.Analysis.Declared
import CellCheck.Proofs.CellMap.Snapshot

/-!
# Claims of a program

The operations of a program claim no cell. So the claims on a cell are those of the `INIT`
commands and of the first declarations, and the snapshot shows the last of them.
-/

namespace CellCheck.Analysis

theorem claims_recordTouches (cells : CellMap) (touches : List Touch) :
    (recordTouches cells touches).claims = cells.claims := by
  unfold recordTouches
  induction touches generalizing cells with
  | nil => rfl
  | cons touch rest ih => exact ih _

theorem claims_ofCommands (commands : List Placed) :
    (ofCommands commands).cells.claims = (Tables.ofCommands commands).cells.claims := by
  have hfold : ∀ (t : Tables) (rest : List Placed) (cells : CellMap),
      (rest.foldl (fun cells p => recordTouches cells (t.touches p)) cells).claims =
        cells.claims := by
    intro t rest
    induction rest with
    | nil => exact fun _ => rfl
    | cons p rest ih => exact fun cells => (ih _).trans (claims_recordTouches _ _)
  exact hfold _ _ _

theorem claimsOn_ofCommands (commands : List Placed) (c : Cell) :
    (ofCommands commands).cells.claimsOn c = claimsIn commands c := by
  rw [← (Tables.record_ofCommands commands).claims c]
  exact congrArg (fun log => CellLog.get log c) (claims_ofCommands commands)

/-- The tables and the claims of a program are those that its commands name: every first
declaration of a name in program order, the last `INIT` of every syscall, and on each cell one claim
for each `INIT` of it and one for each place in the list of a first declaration. -/
theorem ofProgram_allocations (p : Program) :
    (∀ c, (ofProgram p).cells.claimsOn c = claimsIn p.flatten c) ∧
    (ofProgram p).symbols.values = firstDeclarations p.flatten ∧
    (ofProgram p).symbols.names = (firstDeclarations p.flatten).map Declaration.name ∧
    (∀ name, name ∈ (ofProgram p).symbols.names ↔ Declares p.flatten name) ∧
    (∀ syscall, (ofProgram p).syscalls.get? syscall = lastInit? p.flatten syscall) ∧
    (ofProgram p).cells.snapshot.Pairwise (fun x y => x.cell.toNat < y.cell.toNat) ∧
    ∀ info, info ∈ (ofProgram p).cells.snapshot ↔
      ∃ latest, (claimsIn p.flatten info.cell).getLast? = some latest ∧
        info = ⟨info.cell, latest.owner, latest.kind, latest.size⟩ := by
  have hrecord := Tables.record_ofCommands p.flatten
  have hnames : (ofProgram p).symbols.names = (firstDeclarations p.flatten).map Declaration.name :=
    hrecord.names
  refine ⟨claimsOn_ofCommands p.flatten, hrecord.values, hnames, ?_, hrecord.syscalls,
    CellMap.snapshot_pairwise_lt _, ?_⟩
  · intro name
    rw [hnames, declares_iff_mem_firstDeclarations]
  · intro info
    rw [CellMap.mem_snapshot_iff, ofProgram, claimsOn_ofCommands]

end CellCheck.Analysis
