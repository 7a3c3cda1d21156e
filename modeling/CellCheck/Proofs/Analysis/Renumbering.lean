import CellCheck.Proofs.Analysis.History
import CellCheck.Proofs.Analysis.Warning
import CellCheck.Proofs.Program.Concatenation

/-!
# New line numbers

If the commands of a program get other line numbers, all that the analysis reports gets the same
ones and is the same otherwise.
-/

namespace CellCheck

variable (f : Nat → Nat)

def Position.renumbered (position : Position) : Position := ⟨f position.line, position.column⟩

def Placed.renumbered (p : Placed) : Placed := ⟨p.position.renumbered f, p.command⟩

def Declaration.renumbered (d : Declaration) : Declaration :=
  { d with position := d.position.renumbered f }

def InitAt.renumbered (i : InitAt) : InitAt := { i with position := i.position.renumbered f }

def Claim.renumbered (claim : Claim) : Claim := { claim with line := f claim.line }

def Event.renumbered (e : Event) : Event := { e with line := f e.line }

def Shared.renumbered (s : Shared) : Shared := { s with latest := s.latest.renumbered f }

def Diagnostic.renumbered (d : Diagnostic) : Diagnostic := { d with line := f d.line }

structure Analysis.Renumbered (a a' : Analysis) : Prop where
  diagnostics : a'.diagnostics = a.diagnostics.map (Diagnostic.renumbered f)
  claims : ∀ c, a'.cells.claimsOn c = (a.cells.claimsOn c).map (Claim.renumbered f)
  history : ∀ c, a'.cells.history c = (a.cells.history c).map (Event.renumbered f)

section Flattening

mutual

theorem Statement.flatten_renumbered (s : Statement) :
    (s.renumbered f).flatten = s.flatten.map (Placed.renumbered f) := by
  match s with
  | .command position c => rfl
  | .loop position body =>
    rw [Statement.renumbered, flatten, Statement.flattenAll_renumberedAll body, flatten]

theorem Statement.flattenAll_renumberedAll (statements : List Statement) :
    Statement.flattenAll (Statement.renumberedAll f statements) =
      (Statement.flattenAll statements).map (Placed.renumbered f) := by
  match statements with
  | [] => rfl
  | s :: rest =>
    rw [Statement.renumberedAll, flattenAll, Statement.flatten_renumbered s,
      Statement.flattenAll_renumberedAll rest, flattenAll, List.map_append]

end

theorem Program.flatten_renumbered (p : Program) :
    (p.renumbered f).flatten = p.flatten.map (Placed.renumbered f) :=
  Statement.flattenAll_renumberedAll f p.statements

end Flattening

section Commands

variable (commands before : List Placed) (p : Placed) (c : Cell) (name syscall : String)

theorem declares_renumbered :
    Declares (commands.map (Placed.renumbered f)) name ↔ Declares commands name := by
  simp [Declares, Placed.renumbered]

theorem inProgramOrder_renumbered {α β : Type} {g : List Placed → Placed → List α}
    {g' : List Placed → Placed → List β} {h : α → β}
    (hg : ∀ before p, g' (before.map (Placed.renumbered f)) (p.renumbered f) =
      (g before p).map h) :
    inProgramOrder g' (commands.map (Placed.renumbered f)) =
      (inProgramOrder g commands).map h := by
  induction commands using List.reverseRecOn with
  | nil => rfl
  | append_singleton commands p ih =>
    rw [List.map_append, List.map_singleton, inProgramOrder_snoc, ih, hg, inProgramOrder_snoc,
      List.map_append]

theorem initOf?_renumbered :
    (p.renumbered f).initOf? syscall = (p.initOf? syscall).map (InitAt.renumbered f) := by
  obtain ⟨position, command⟩ := p
  cases command with
  | init i => by_cases h : i.syscall = syscall <;> simp [Placed.initOf?, Placed.renumbered, h,
      InitAt.renumbered]
  | _ => rfl

theorem lastInit?_renumbered :
    lastInit? (commands.map (Placed.renumbered f)) syscall =
      (lastInit? commands syscall).map (InitAt.renumbered f) := by
  induction commands using List.reverseRecOn with
  | nil => rfl
  | append_singleton commands p ih =>
    rw [List.map_append, List.map_singleton, lastInit?_snoc, ih, initOf?_renumbered, lastInit?_snoc,
      Option.map_or]

theorem ofCommand?_renumbered (position : Position) (command : Command) :
    Declaration.ofCommand? (position.renumbered f) command =
      (Declaration.ofCommand? position command).map (Declaration.renumbered f) := by
  cases command <;> rfl

theorem firstDeclaration?_renumbered :
    firstDeclaration? (before.map (Placed.renumbered f)) (p.renumbered f) =
      (firstDeclaration? before p).map (Declaration.renumbered f) := by
  rw [firstDeclaration?_eq, firstDeclaration?_eq]
  change (Declaration.ofCommand? (p.position.renumbered f) p.command).filter _ = _
  rw [ofCommand?_renumbered]
  cases Declaration.ofCommand? p.position p.command with
  | none => rfl
  | some d =>
    simp only [Option.map_some, Option.filter_some, declares_renumbered, Declaration.renumbered]
    split <;> rfl

theorem declarationOf?_renumbered :
    (p.renumbered f).declarationOf? name =
      (p.declarationOf? name).map (Declaration.renumbered f) := by
  unfold Placed.declarationOf?
  change (Declaration.ofCommand? (p.position.renumbered f) p.command).filter _ = _
  rw [ofCommand?_renumbered]
  cases Declaration.ofCommand? p.position p.command with
  | none => rfl
  | some d =>
    simp only [Option.map_some, Option.filter_some, Declaration.renumbered]
    split <;> rfl

theorem firstDeclarationOf?_renumbered :
    firstDeclarationOf? (commands.map (Placed.renumbered f)) name =
      (firstDeclarationOf? commands name).map (Declaration.renumbered f) := by
  induction commands using List.reverseRecOn with
  | nil => rfl
  | append_singleton commands p ih =>
    rw [List.map_append, List.map_singleton, firstDeclarationOf?_snoc, ih,
      declarationOf?_renumbered, firstDeclarationOf?_snoc, Option.map_or]

end Commands

section Claims

variable (commands before : List Placed) (p : Placed) (c : Cell)

theorem claimsOf_renumbered :
    claimsOf c (before.map (Placed.renumbered f)) (p.renumbered f) =
      (claimsOf c before p).map (Claim.renumbered f) := by
  obtain ⟨position, command⟩ := p
  have hfirst := firstDeclaration?_renumbered f before ⟨position, command⟩
  cases command with
  | init i => by_cases h : i.cell = c <;> simp [claimsOf, Placed.renumbered, h,
      Claim.renumbered, Position.renumbered]
  | _ =>
    simp only [Placed.renumbered] at hfirst
    simp only [claimsOf, Placed.renumbered, hfirst]
    generalize firstDeclaration? before _ = declared
    cases declared with
    | none => rfl
    | some d =>
      dsimp only [Option.map_some]
      rw [List.map_replicate]
      rfl

theorem claimsIn_renumbered :
    claimsIn (commands.map (Placed.renumbered f)) c =
      (claimsIn commands c).map (Claim.renumbered f) :=
  inProgramOrder_renumbered f commands fun before p => claimsOf_renumbered f before p c

end Claims

section Uses

variable (commands : List Placed) (p : Placed) (c : Cell) (use : Event)

theorem targetUses_renumbered (target : Target) :
    targetUses c (use.renumbered f) target =
      (targetUses c use target).map (Event.renumbered f) := by
  cases target with
  | name n => rfl
  | _ =>
    rw [targetUses, targetUses]
    split <;> rfl

theorem operandUses_renumbered (operand : Operand) :
    operandUses c (use.renumbered f) operand =
      (operandUses c use operand).map (Event.renumbered f) := by
  rw [operandUses, operandUses]
  split <;> rfl

theorem argumentUses_renumbered (argument : Operand) :
    argumentUses (commands.map (Placed.renumbered f)) c (use.renumbered f) argument =
      (argumentUses commands c use argument).map (Event.renumbered f) := by
  cases argument with
  | cell d =>
    rw [argumentUses, argumentUses]
    split <;> rfl
  | name n =>
    rw [argumentUses, argumentUses, firstDeclarationOf?_renumbered]
    cases firstDeclarationOf? commands n with
    | none => rfl
    | some d => exact List.map_replicate.symm

theorem callUses_renumbered (line : Nat) (call : Call) :
    callUses (commands.map (Placed.renumbered f)) c (f line) call =
      (callUses commands c line call).map (Event.renumbered f) := by
  rw [callUses, callUses, lastInit?_renumbered]
  cases lastInit? commands call.syscall with
  | none => rfl
  | some last =>
    dsimp only [Option.map_some]
    rw [List.map_flatMap]
    exact List.flatMap_congr fun argument _ => argumentUses_renumbered f commands c
      ⟨call.syscall ++ "_arg", line, .usage⟩ argument

theorem usesOf_renumbered :
    usesOf (commands.map (Placed.renumbered f)) c (p.renumbered f) =
      (usesOf commands c p).map (Event.renumbered f) := by
  obtain ⟨⟨line, column⟩, command⟩ := p
  cases command with
  | assign a => exact targetUses_renumbered f c ⟨"SET_operation", line, .usage⟩ a.target
  | move m =>
    have hsource := operandUses_renumbered f c ⟨"MOV_source", line, .usage⟩ m.source
    have hdestination := operandUses_renumbered f c ⟨"MOV_target", line, .usage⟩ m.destination
    exact (congrArg₂ (· ++ ·) hsource hdestination).trans List.map_append.symm
  | call call => exact callUses_renumbered f commands c line call
  | _ => rfl

end Uses

section Logs

variable {α β : Type}

/-- Two logs with as many entries under each cell list the same cells. -/
theorem CellLog.toList_eq_map {log : CellLog α} {log' : CellLog β} (h : log.Filled)
    (h' : log'.Filled) (g : α → β) (hget : ∀ c, log'.get c = (log.get c).map g) :
    log'.toList = log.toList.map fun entry => (entry.1, entry.2.map g) := by
  have hsorted : (log.toList.map fun entry => (entry.1, entry.2.map g)).Pairwise
      fun x y => x.1.toNat < y.1.toNat :=
    List.pairwise_map.2 log.toList_pairwise_lt
  have hmem (entry : Cell × List β) : entry ∈ log'.toList ↔
      entry ∈ log.toList.map fun entry => (entry.1, entry.2.map g) := by
    obtain ⟨c, bs⟩ := entry
    rw [h'.mem_toList_iff, hget, List.mem_map]
    constructor
    · rintro ⟨hne, rfl⟩
      have hentries : log.get c ≠ [] := fun hnil => hne (by rw [hnil, List.map_nil])
      exact ⟨(c, log.get c), h.mem_toList_iff.2 ⟨hentries, rfl⟩, rfl⟩
    · rintro ⟨⟨d, as⟩, hentry, heq⟩
      obtain ⟨rfl, rfl⟩ := Prod.mk.inj heq
      obtain ⟨hne, rfl⟩ := h.mem_toList_iff.1 hentry
      exact ⟨by simpa using hne, rfl⟩
  have hnodup {γ : Type} {entries : List (Cell × γ)}
      (hentries : entries.Pairwise fun x y => x.1.toNat < y.1.toNat) : entries.Nodup :=
    hentries.imp fun hlt heq => absurd hlt (by rw [heq]; exact Nat.lt_irrefl _)
  have hperm :=
    (List.perm_ext_iff_of_nodup (hnodup log'.toList_pairwise_lt) (hnodup hsorted)).2 hmem
  exact hperm.eq_of_pairwise (fun _ _ _ _ hlt hgt => absurd hlt (Nat.lt_asymm hgt))
    log'.toList_pairwise_lt hsorted

variable {m m' : CellMap}

theorem CellMap.shared_renumbered (h : m.claims.Filled) (h' : m'.claims.Filled)
    (hclaims : ∀ c, m'.claimsOn c = (m.claimsOn c).map (Claim.renumbered f)) :
    m'.shared = m.shared.map (Shared.renumbered f) := by
  have howners (claims : List Claim) :
      owners (claims.map (Claim.renumbered f)) = owners claims := by
    rw [owners, List.map_map]
    rfl
  rw [shared, claimed, CellLog.toList_eq_map h h' _ hclaims, List.filterMap_map, shared, claimed,
    List.map_filterMap]
  refine List.filterMap_congr fun entry _ => ?_
  simp only [Function.comp_apply, howners, List.getLast?_map]
  split
  · rfl
  · cases entry.2.getLast? <;> rfl

end Logs

section Causes

structure Tables.Agree (t u : Tables) : Prop where
  declares : ∀ name, u.declares name = t.declares name
  init : ∀ syscall, (u.syscalls.get? syscall).map InitAt.init =
    (t.syscalls.get? syscall).map InitAt.init
  isAllocated : ∀ c, u.cells.isAllocated c = t.cells.isAllocated c

variable {t u : Tables} (h : t.Agree u)

include h

theorem Tables.Agree.callCauses (c : Call) : u.callCauses c = t.callCauses c := by
  have hinit := h.init c.syscall
  have hargument : u.argumentCauses = t.argumentCauses := by
    funext argument
    cases argument with
    | name n => rw [argumentCauses, h.declares, argumentCauses]
    | cell d => rfl
  rw [Tables.callCauses, Tables.callCauses, hargument]
  cases ht : t.syscalls.get? c.syscall with
  | none =>
    rw [ht, Option.map_none, Option.map_eq_none_iff] at hinit
    rw [hinit]
  | some i =>
    rw [ht, Option.map_some, Option.map_eq_some_iff] at hinit
    obtain ⟨j, hu, hsame⟩ := hinit
    rw [hu]
    dsimp only
    rw [hsame]

theorem Tables.Agree.causes (c : Command) : u.causes c = t.causes c := by
  have htarget (target : Target) : u.targetCauses target = t.targetCauses target := by
    cases target with
    | name n => rw [targetCauses, h.declares, targetCauses]
    | _ => rfl
  have hreference (value : Value) : u.referenceCauses value = t.referenceCauses value := by
    have hallocated : u.cells.isAllocated = t.cells.isAllocated := funext h.isAllocated
    unfold referenceCauses isAllocatedToken
    rw [hallocated]
    cases value.reference? with
    | none => rfl
    | some target => simp only [h.declares]
  have hoperand (operand : Operand) : u.operandCauses operand = t.operandCauses operand := by
    cases operand with
    | name n => rw [operandCauses, h.declares, operandCauses]
    | cell d => rfl
  cases c with
  | assign a => rw [Tables.causes, htarget, hreference, Tables.causes]
  | move m => rw [Tables.causes, hoperand, hoperand, Tables.causes]
  | call c => exact h.callCauses c
  | _ => rfl

end Causes

section Findings

/-- The finding at its new line, where the cause tells no line. -/
def Finding.moved (finding : Finding) : Finding :=
  { finding with position := finding.position.renumbered f }

variable (commands : List Placed)

theorem isAllocated_iff_claimsIn_ne_nil (c : Cell) :
    (Tables.ofCommands commands).cells.isAllocated c = true ↔ claimsIn commands c ≠ [] :=
  (isAllocated_iff (Tables.record_ofCommands commands)
    (Analysis.filled_ofCommands commands) c).trans (claimsIn_ne_nil_iff commands c).symm

theorem agree_renumbered : (Tables.ofCommands commands).Agree
    (Tables.ofCommands (commands.map (Placed.renumbered f))) where
  declares name := by
    rw [Bool.eq_iff_iff, Tables.declares_ofCommands, declares_renumbered,
      Tables.declares_ofCommands]
  init syscall := by
    rw [(Tables.record_ofCommands _).syscalls, (Tables.record_ofCommands _).syscalls,
      lastInit?_renumbered, Option.map_map]
    rfl
  isAllocated c := by
    rw [Bool.eq_iff_iff, isAllocated_iff_claimsIn_ne_nil, isAllocated_iff_claimsIn_ne_nil,
      claimsIn_renumbered]
    simp

theorem findings_renumbered (p : Placed) :
    (Tables.ofCommands (commands.map (Placed.renumbered f))).findings (p.renumbered f) =
      ((Tables.ofCommands commands).findings p).map (Finding.moved f) := by
  have hcauses := (agree_renumbered f commands).causes p.command
  rw [Tables.findings, Tables.findings, List.map_map, ← hcauses]
  rfl

theorem redeclaration?_renumbered (before : List Placed) (p : Placed) :
    redeclaration? (before.map (Placed.renumbered f)) (p.renumbered f) =
      (redeclaration? before p).map (Finding.moved f) := by
  have hname : (p.renumbered f).command.declaredName? = p.command.declaredName? := rfl
  unfold redeclaration?
  rw [hname]
  cases p.command.declaredName? with
  | none => rfl
  | some name =>
    simp only [declares_renumbered]
    split <;> rfl

theorem redeclarations_renumbered :
    redeclarations (commands.map (Placed.renumbered f)) =
      (redeclarations commands).map (Finding.moved f) := by
  apply inProgramOrder_renumbered f commands
  intro before p
  rw [redeclaration?_renumbered]
  cases redeclaration? before p <;> rfl

end Findings

namespace Analysis

theorem claimsOn_renumbered (commands : List Placed) (c : Cell) :
    (ofCommands (commands.map (Placed.renumbered f))).cells.claimsOn c =
      ((ofCommands commands).cells.claimsOn c).map (Claim.renumbered f) := by
  rw [claimsOn_ofCommands, claimsIn_renumbered, claimsOn_ofCommands]

theorem shared_renumbered (commands : List Placed) :
    (ofCommands (commands.map (Placed.renumbered f))).cells.shared =
      (ofCommands commands).cells.shared.map (Shared.renumbered f) := by
  have hfilled (commands : List Placed) : (ofCommands commands).cells.claims.Filled := by
    rw [claims_ofCommands]
    exact filled_ofCommands commands
  exact CellMap.shared_renumbered f (hfilled _) (hfilled _) (claimsOn_renumbered f commands)

theorem diagnostics_renumbered (commands : List Placed) :
    (ofCommands (commands.map (Placed.renumbered f))).diagnostics =
      (ofCommands commands).diagnostics.map (Diagnostic.renumbered f) := by
  have hoperations : (commands.map (Placed.renumbered f)).flatMap
        (Tables.ofCommands (commands.map (Placed.renumbered f))).findings =
      (commands.flatMap (Tables.ofCommands commands).findings).map (Finding.moved f) := by
    rw [List.flatMap_map, List.map_flatMap]
    exact List.flatMap_congr fun p _ => findings_renumbered f commands p
  rw [diagnostics, findings_ofCommands, redeclarations_renumbered, hoperations, shared_renumbered,
    diagnostics, findings_ofCommands]
  simp only [List.map_append, List.map_map]
  rfl

theorem history_renumbered (commands : List Placed) (c : Cell) :
    (ofCommands (commands.map (Placed.renumbered f))).cells.history c =
      ((ofCommands commands).cells.history c).map (Event.renumbered f) := by
  have huses : (commands.map (Placed.renumbered f)).flatMap
        (usesOf (commands.map (Placed.renumbered f)) c) =
      (commands.flatMap (usesOf commands c)).map (Event.renumbered f) := by
    rw [List.flatMap_map, List.map_flatMap]
    exact List.flatMap_congr fun p _ => usesOf_renumbered f commands p c
  rw [history_ofCommands, claimsIn_renumbered, huses, history_ofCommands, List.map_append,
    List.map_map, List.map_map]
  rfl

theorem renumbered_ofProgram (p : Program) :
    (ofProgram p).Renumbered f (ofProgram (p.renumbered f)) := by
  rw [ofProgram, ofProgram, Program.flatten_renumbered]
  exact ⟨diagnostics_renumbered f _, claimsOn_renumbered f _, history_renumbered f _⟩

end Analysis

end CellCheck
