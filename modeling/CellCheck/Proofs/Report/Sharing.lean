import CellCheck.Proofs.Analysis.Naming
import CellCheck.Proofs.Analysis.Warning
import CellCheck.Proofs.Report.Table

/-!
# Shared cells in the table and in the diagnostics

The table of claimed cells marks every cell with several claims on it, whoever makes them. The
diagnostics warn about the cells that are claimed by several owners. So they agree on a cell unless
one owner alone claims it more than once.
-/

namespace CellCheck

def sharedOpening (c : Cell) : Text := "Cell ".toList ++ (c.toText ++ " shared between: ".toList)

def WarnsShared (diagnostics : List Diagnostic) (c : Cell) : Prop :=
  ∃ d ∈ diagnostics, d.severity = .warning ∧ sharedOpening c <+: d.message.toList

section Claims

theorem isWord_owner_of_mem_claimsIn {source : Text} {p : Program}
    (h : Program.ofText source = .ok p) {c : Cell} {claim : Claim}
    (hclaim : claim ∈ claimsIn p.flatten c) : Text.isWord claim.owner.toList := by
  obtain ⟨placed, i, hplaced, hclaim⟩ := mem_inProgramOrder.1 hclaim
  have hformed := Program.wellFormed_of_mem_flatten h (List.mem_of_getElem? hplaced)
  rcases mem_claimsOf hclaim with ⟨init, hcommand, -, rfl⟩ | ⟨d, hd, -, rfl⟩
  · rw [hcommand] at hformed
    exact (isWord_of_isSyscallName hformed.1).1
  · rw [firstDeclaration?_eq] at hd
    exact Declaration.isWord_of_ofCommand? hformed (Option.filter_eq_some_iff.1 hd).1

/-- The number of claims that goes with the table is that of the claims on the cell. -/
theorem claimCount_claimed (m : CellMap) {c : Cell} (h : m.claimsOn c ≠ []) :
    claimCount (Std.TreeMap.ofList (m.claimed.map fun entry => (entry.1, entry.2.length))) c =
      (m.claimsOn c).length := by
  have hmem : (c, (m.claimsOn c).length) ∈
      m.claimed.map fun entry => (entry.1, entry.2.length) :=
    List.mem_map.2 ⟨_, CellLog.mem_toList_of_get_ne_nil h, rfl⟩
  have hdistinct : (m.claimed.map fun entry => (entry.1, entry.2.length)).Pairwise
      fun x y => ¬ compare x.1 y.1 = .eq := by
    refine List.pairwise_map.2 (m.claims.toList_pairwise_lt.imp fun hlt heq => ?_)
    rw [Std.LawfulEqOrd.eq_of_compare heq] at hlt
    exact absurd hlt (Nat.lt_irrefl _)
  rw [claimCount, Std.TreeMap.getElem?_ofList_of_mem Std.ReflOrd.compare_self hdistinct hmem,
    Option.getD_some]

theorem several_of_owner_ne {claims : List Claim} {a b : Claim} (ha : a ∈ claims)
    (hb : b ∈ claims) (hne : a.owner ≠ b.owner) : 1 < claims.length := by
  match claims with
  | [] => cases ha
  | [claim] =>
    rw [List.mem_singleton.1 ha, List.mem_singleton.1 hb] at hne
    exact absurd rfl hne
  | _ :: _ :: rest => exact Nat.succ_lt_succ (Nat.zero_lt_succ _)

end Claims

section Warnings

/-- The message about a shared cell tells the cell. -/
theorem sharedOpening_prefix_iff {c d : Cell} {rest : Text} :
    sharedOpening c <+: sharedOpening d ++ rest ↔ c = d := by
  constructor
  · rintro ⟨tail, htail⟩
    delta sharedOpening at htail
    simp only [List.append_assoc] at htail
    have hcell (e : Cell) (rest : Text) :
        (e.toText ++ (" shared between: ".toList ++ rest)).takeWhile (· != ' ') = e.toText :=
      (Text.takeWhile_bne_append (Text.not_mem_of_isWord e.isWord_toText (by decide)) _).1
    have hword := congrArg (List.takeWhile (· != ' ')) (List.append_cancel_left htail)
    rw [hcell, hcell] at hword
    exact Cell.toText_injective hword
  · rintro rfl
    exact List.prefix_append _ _

theorem Shared.message_eq (s : Shared) :
    (Cause.sharedCell s).message.toList = sharedOpening s.cell ++
      ((", ".intercalate s.owners).toList ++
        ". Ensure this is intentional for space optimization.".toList) := by
  have hmessage : (Cause.sharedCell s).message = "Cell " ++ String.ofList s.cell.toText ++
      " shared between: " ++ ", ".intercalate s.owners ++
        ". Ensure this is intentional for space optimization." := rfl
  delta sharedOpening
  simp only [hmessage, String.toList_append, String.toList_ofList, List.append_assoc]

/-- Among the warnings, only that about a shared cell opens so. -/
theorem Cause.sharedOpening_prefix_message_iff {cause : Cause} (h : cause.severity = .warning)
    {c : Cell} :
    sharedOpening c <+: cause.message.toList ↔ ∃ s, cause = .sharedCell s ∧ s.cell = c := by
  cases cause with
  | unallocatedReference target =>
    constructor
    · rintro ⟨rest, hrest⟩
      have hmessage : message (.unallocatedReference target) =
          "Reference to unallocated cell '" ++ target ++ "'. Consider declaring it first" := rfl
      simp only [hmessage, String.toList_append] at hrest
      cases congrArg List.head? hrest
    · rintro ⟨s, hs, -⟩
      cases hs
  | sharedCell s =>
    rw [Shared.message_eq, sharedOpening_prefix_iff]
    constructor
    · exact fun hcell => ⟨s, rfl, hcell.symm⟩
    · rintro ⟨s', hs, rfl⟩
      rw [sharedCell.inj hs]
  | _ => cases h

namespace Analysis

/-- Operations are not found to share cells. -/
theorem mem_shared_of_mem_findings {commands : List Placed} {f : Finding} {s : Shared}
    (hf : f ∈ (ofCommands commands).findings) (hs : f.cause = .sharedCell s) :
    s ∈ (ofCommands commands).cells.shared := by
  have hwarning : f.isWarning = true := by
    rw [Finding.isWarning, hs]
    rfl
  rcases List.mem_append.1 hf with hfirst | hshared
  · rcases List.mem_append.1 hfirst with hdeclaration | hoperation
    · rw [(Tables.record_ofCommands commands).redeclarations] at hdeclaration
      have hmem := List.mem_filter.2 ⟨hdeclaration, hwarning⟩
      rw [filter_isWarning_redeclarations] at hmem
      cases hmem
    · rw [flatMap_findings] at hoperation
      have hmem := List.mem_filter.2 ⟨hoperation, hwarning⟩
      rw [filter_isWarning_operationFindings] at hmem
      obtain ⟨p, -, hp⟩ := List.mem_filterMap.1 hmem
      obtain ⟨target, name, -, rfl⟩ := eq_of_unallocatedReference? hp
      cases hs
  · obtain ⟨s', hs', rfl⟩ := List.mem_map.1 hshared
    rwa [← Cause.sharedCell.inj hs]

theorem warnsShared_diagnostics_iff {p : Program} {c : Cell} :
    WarnsShared (ofProgram p).diagnostics c ↔
      ∃ a ∈ claimsIn p.flatten c, ∃ b ∈ claimsIn p.flatten c, a.owner ≠ b.owner := by
  rw [← (listsShared_ofCommands p.flatten).mem_cells_iff, List.mem_map]
  constructor
  · rintro ⟨d, hd, hwarning, hopening⟩
    obtain ⟨f, hf, rfl⟩ := List.mem_map.1 hd
    obtain ⟨s, hs, hcell⟩ := (Cause.sharedOpening_prefix_message_iff hwarning).1 hopening
    exact ⟨s, mem_shared_of_mem_findings hf hs, hcell⟩
  · rintro ⟨s, hs, hcell⟩
    refine ⟨(sharedFinding s).diagnostic, ?_, rfl, ?_⟩
    · exact List.mem_map_of_mem (List.mem_append_right _ (List.mem_map_of_mem hs))
    · exact (Cause.sharedOpening_prefix_message_iff rfl).2 ⟨s, rfl, hcell⟩

end Analysis

end Warnings

namespace Report

variable (file : String) {source : Text} {p : Program}

theorem check_of_ofText (h : Program.ofText source = .ok p) :
    check file source = ofAnalysis file p (Analysis.ofProgram p) := by
  rw [check, h]

theorem marksShared_check_iff (h : Program.ofText source = .ok p) {c : Cell} {n : Nat} :
    MarksShared (cellTable (check file source).cells (check file source).claims) c n ↔
      (claimsIn p.flatten c).length = n ∧ 1 < n := by
  have hclaims (c : Cell) : (Analysis.ofProgram p).cells.claimsOn c = claimsIn p.flatten c :=
    Analysis.claimsOn_ofCommands p.flatten c
  have howners : ∀ info ∈ (Analysis.ofProgram p).cells.snapshot,
      Text.isWord info.owner.toList := by
    intro info hinfo
    obtain ⟨latest, hlatest, heq⟩ := (CellMap.mem_snapshot_iff _ _).1 hinfo
    rw [hclaims] at hlatest
    rw [heq]
    exact isWord_owner_of_mem_claimsIn h (List.mem_of_mem_getLast? hlatest)
  have hcell := (Analysis.ofProgram p).cells.mem_cells_snapshot_iff c
  have hcount := claimCount_claimed (Analysis.ofProgram p).cells (c := c)
  rw [List.mem_map, hclaims] at hcell
  rw [hclaims] at hcount
  rw [check_of_ofText file h, ofAnalysis, marksShared_cellTable_iff howners, hcell]
  constructor
  · rintro ⟨hne, hn, hseveral⟩
    exact ⟨(hcount hne).symm.trans hn, hseveral⟩
  · rintro ⟨hn, hseveral⟩
    have hne : claimsIn p.flatten c ≠ [] :=
      List.ne_nil_of_length_pos (hn ▸ Nat.zero_lt_of_lt hseveral)
    exact ⟨hne, (hcount hne).trans hn, hseveral⟩

/-- A cell is marked with the number of its claims if it has two or more, and it is warned about if
these are of different owners. So the table and the diagnostics agree on a cell just if it is not
claimed several times by one owner alone. -/
theorem marksShared_iff_warnsShared_iff (h : Program.ofText source = .ok p) (c : Cell) :
    (∀ n, MarksShared (cellTable (check file source).cells (check file source).claims) c n ↔
      (claimsIn p.flatten c).length = n ∧ 1 < n) ∧
    (WarnsShared (check file source).diagnostics c ↔
      ∃ a ∈ claimsIn p.flatten c, ∃ b ∈ claimsIn p.flatten c, a.owner ≠ b.owner) ∧
    (((∃ n, MarksShared (cellTable (check file source).cells (check file source).claims) c n) ↔
        WarnsShared (check file source).diagnostics c) ↔
      ¬ (1 < (claimsIn p.flatten c).length ∧
        ∀ a ∈ claimsIn p.flatten c, ∀ b ∈ claimsIn p.flatten c, a.owner = b.owner)) := by
  have hmarks (n : Nat) := marksShared_check_iff file h (c := c) (n := n)
  have hmarked : (∃ n, MarksShared (cellTable (check file source).cells
      (check file source).claims) c n) ↔ 1 < (claimsIn p.flatten c).length := by
    simp only [hmarks, exists_eq_left']
  have hwarns : WarnsShared (check file source).diagnostics c ↔
      ∃ a ∈ claimsIn p.flatten c, ∃ b ∈ claimsIn p.flatten c, a.owner ≠ b.owner := by
    rw [check_of_ofText file h]
    exact Analysis.warnsShared_diagnostics_iff
  refine ⟨hmarks, hwarns, ?_⟩
  rw [hmarked, hwarns]
  constructor
  · rintro hagree ⟨hseveral, hone⟩
    obtain ⟨a, ha, b, hb, hne⟩ := hagree.1 hseveral
    exact hne (hone a ha b hb)
  · intro hnot
    refine ⟨fun hseveral => ?_, fun ⟨a, ha, b, hb, hne⟩ => several_of_owner_ne ha hb hne⟩
    by_contra hone
    push Not at hone
    exact hnot ⟨hseveral, hone⟩

def claimedTwice : Program where
  statements :=
    [.command ⟨0, 0⟩ (.var ⟨"a", [⟨0⟩, ⟨0⟩], .int 1⟩), .command ⟨1, 0⟩ (.var ⟨"b", [⟨1⟩], .int 1⟩),
      .command ⟨2, 0⟩ (.var ⟨"c", [⟨1⟩], .int 1⟩)]

def claimedTwiceSource : Text := "a (C0, C0) = 1\nb (C1) = 1\nc (C1) = 1".toList

theorem ofText_claimedTwiceSource : Program.ofText claimedTwiceSource = .ok claimedTwice := by
  decide +kernel

theorem claimsIn_claimedTwice_zero : claimsIn claimedTwice.flatten ⟨0⟩ =
    [⟨"a", .data .int, 2, 0⟩, ⟨"a", .data .int, 2, 0⟩] := by
  decide +kernel

theorem claimsIn_claimedTwice_one : claimsIn claimedTwice.flatten ⟨1⟩ =
    [⟨"b", .data .int, 1, 1⟩, ⟨"c", .data .int, 1, 2⟩] := by
  decide +kernel

/-- The cell of two owners is marked and warned about; on the other one the two do not agree. -/
theorem claimedTwice_marked_and_warned :
    Program.ofText claimedTwiceSource = .ok claimedTwice ∧
      MarksShared (cellTable (check "m" claimedTwiceSource).cells
        (check "m" claimedTwiceSource).claims) ⟨1⟩ 2 ∧
      WarnsShared (check "m" claimedTwiceSource).diagnostics ⟨1⟩ ∧
      ¬ ((∃ n, MarksShared (cellTable (check "m" claimedTwiceSource).cells
          (check "m" claimedTwiceSource).claims) ⟨0⟩ n) ↔
        WarnsShared (check "m" claimedTwiceSource).diagnostics ⟨0⟩) := by
  have hone := marksShared_iff_warnsShared_iff "m" ofText_claimedTwiceSource ⟨1⟩
  have hzero := marksShared_iff_warnsShared_iff "m" ofText_claimedTwiceSource ⟨0⟩
  rw [claimsIn_claimedTwice_one] at hone
  rw [claimsIn_claimedTwice_zero] at hzero
  refine ⟨ofText_claimedTwiceSource, (hone.1 2).2 (by decide), hone.2.1.2 (by decide), ?_⟩
  rw [hzero.2.2, not_not]
  decide

/-- A cell that one variable lists twice is marked as shared, and nothing warns about it. -/
theorem cell_listed_twice_is_marked_without_warning :
    MarksShared (cellTable (check "m" claimedTwiceSource).cells
        (check "m" claimedTwiceSource).claims) ⟨0⟩ 2 ∧
      ¬ WarnsShared (check "m" claimedTwiceSource).diagnostics ⟨0⟩ := by
  constructor
  · rw [marksShared_check_iff "m" ofText_claimedTwiceSource, claimsIn_claimedTwice_zero]
    decide
  · rw [check_of_ofText "m" ofText_claimedTwiceSource]
    refine fun hwarns => ?_
    have hseveral := Analysis.warnsShared_diagnostics_iff.1 hwarns
    rw [claimsIn_claimedTwice_zero] at hseveral
    exact absurd hseveral (by decide)

end Report

end CellCheck
