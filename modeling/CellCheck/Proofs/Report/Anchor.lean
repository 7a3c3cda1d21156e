import CellCheck.Report.Basic
import CellCheck.Proofs.Analysis.Warning
import CellCheck.Proofs.Program.Rejection
import CellCheck.Proofs.Statement.Names

/-!
# Where diagnostics stand

Every finding of the analysis goes back to a command that holds the name it is about, and every
command to the line it was read from. So each diagnostic of a report stands on a line of the source
that has code on it, and the name that it quotes is there.
-/

namespace CellCheck

/-- The name that the cause is about. For a shared cell it is the current owner. -/
def Cause.name : Cause → String
  | redeclared name => name
  | undefinedTarget name => name
  | undefinedReference target => target
  | unallocatedReference target => target
  | undefinedOperand name => name
  | undefinedSyscall syscall => syscall
  | argumentCount syscall _ _ => syscall
  | undefinedArgument name => name
  | sharedCell shared => shared.latest.owner

/-- A message quotes the name that its cause is about. -/
theorem Cause.name_infix_message {c : Cause}
    (h : ∀ s, c = .sharedCell s → s.latest.owner ∈ s.owners) :
    c.name.toList <:+: c.message.toList := by
  have hbehind {name text : String} (rest : String) (h : name.toList <:+: text.toList) :
      name.toList <:+: (text ++ rest).toList := by
    rw [String.toList_append]
    exact h.trans (List.prefix_append _ _).isInfix
  have hbetween (first name rest : String) : name.toList <:+: (first ++ name ++ rest).toList := by
    refine hbehind rest ?_
    rw [String.toList_append]
    exact (List.suffix_append _ _).isInfix
  cases c with
  | argumentCount syscall expected got =>
    exact hbehind _ (hbehind _ (hbehind _ (hbehind _ List.infix_rfl)))
  | sharedCell shared =>
    have howner : shared.latest.owner.toList <:+: (", ".intercalate shared.owners).toList := by
      rw [String.toList_intercalate]
      exact Text.infix_intercalate _ (List.mem_map_of_mem (h shared rfl))
    exact howner.trans (hbetween _ _ _)
  | _ => exact hbetween _ _ _

structure Finding.StandsAt (f : Finding) (p : Placed) : Prop where
  line : f.position.line = p.position.line
  column : f.position.column ≤ p.position.column
  name : f.cause.name ∈ p.command.names
  quoted : f.cause.name.toList <:+: f.cause.message.toList

namespace Command

theorem mem_names_of_declaredName? {c : Command} {name : String}
    (h : c.declaredName? = some name) : name ∈ c.names := by
  cases c with
  | param p => exact List.mem_singleton.2 (Option.some.inj h).symm
  | var v => exact List.mem_singleton.2 (Option.some.inj h).symm
  | _ => cases h

theorem mem_names_of_argument {c : Call} {k : Nat} {name : String}
    (h : c.arguments[k]? = some (.name name)) : name ∈ (Command.call c).names :=
  List.mem_cons_of_mem _ (List.mem_filterMap.2 ⟨.name name, List.mem_of_getElem? h, rfl⟩)

end Command

section Findings

variable {commands : List Placed} {f : Finding}

theorem Finding.standsAt_of_name {position : Position} {cause : Cause} {c : Command}
    (h : cause.name ∈ c.names) (hcause : ∀ s, cause ≠ .sharedCell s) :
    StandsAt ⟨position, cause⟩ ⟨position, c⟩ :=
  ⟨rfl, Nat.le_refl _, h, Cause.name_infix_message fun s hs => absurd hs (hcause s)⟩

/-- A rule is broken by a command that holds the name in question. -/
theorem Violates.standsAt {s : ErrorSite} (h : Violates commands s f) :
    ∃ p ∈ commands, f.StandsAt p := by
  cases h with
  | redeclaration hp hname _ =>
    exact ⟨_, List.mem_of_getElem? hp,
      Finding.standsAt_of_name (Command.mem_names_of_declaredName? hname) nofun⟩
  | target hp _ =>
    exact ⟨_, List.mem_of_getElem? hp, Finding.standsAt_of_name List.mem_cons_self nofun⟩
  | reference hp _ _ =>
    exact ⟨_, List.mem_of_getElem? hp,
      Finding.standsAt_of_name (List.mem_append_right _ List.mem_cons_self) nofun⟩
  | source hp _ =>
    exact ⟨_, List.mem_of_getElem? hp, Finding.standsAt_of_name List.mem_cons_self nofun⟩
  | destination hp _ =>
    exact ⟨_, List.mem_of_getElem? hp,
      Finding.standsAt_of_name (List.mem_append_right _ List.mem_cons_self) nofun⟩
  | syscall hp _ =>
    exact ⟨_, List.mem_of_getElem? hp, Finding.standsAt_of_name List.mem_cons_self nofun⟩
  | argumentCount hp _ _ =>
    exact ⟨_, List.mem_of_getElem? hp, Finding.standsAt_of_name List.mem_cons_self nofun⟩
  | argument hp _ hargument _ =>
    exact ⟨_, List.mem_of_getElem? hp,
      Finding.standsAt_of_name (Command.mem_names_of_argument hargument) nofun⟩

theorem standsAt_of_mem_redeclarations (h : f ∈ redeclarations commands) :
    ∃ p ∈ commands, f.StandsAt p := by
  obtain ⟨p, i, hp, hmem⟩ := mem_inProgramOrder.1 h
  obtain ⟨name, hname, hold, rfl⟩ := redeclaration?_eq_some.1 (Option.mem_toList.1 hmem)
  exact (Violates.redeclaration hp hname hold).standsAt

theorem standsAt_of_unallocatedReference? {p : Placed}
    (h : unallocatedReference? commands p = some f) : f.StandsAt p := by
  obtain ⟨target, name, hcommand, rfl⟩ := Analysis.eq_of_unallocatedReference? h
  refine Finding.standsAt_of_name ?_ nofun
  rw [hcommand]
  exact List.mem_append_right _ List.mem_cons_self

theorem standsAt_of_mem_operationFindings (h : f ∈ operationFindings commands) :
    ∃ p ∈ commands, f.StandsAt p := by
  obtain ⟨⟨p, i⟩, hentry, hf⟩ := List.mem_flatMap.1 h
  have hp := List.mem_zipIdx_iff_getElem?.1 hentry
  rcases List.mem_append.1 hf with husage | hreference
  · obtain ⟨⟨s, f⟩, hsite, rfl⟩ := List.mem_map.1 husage
    exact (violates_of_mem_usageSites hp hsite).standsAt
  · exact ⟨p, List.mem_of_getElem? hp,
      standsAt_of_unallocatedReference? (Option.mem_toList.1 hreference)⟩

theorem declaredName?_of_firstDeclaration? {before : List Placed} {p : Placed} {d : Declaration}
    (h : firstDeclaration? before p = some d) : p.command.declaredName? = some d.name := by
  rw [firstDeclaration?_eq] at h
  rw [← Declaration.ofCommand?_name p.position, (Option.filter_eq_some_iff.1 h).1, Option.map_some]

/-- A claim is made by a command that holds the name of its owner. -/
theorem exists_of_mem_claimsIn {c : Cell} {claim : Claim} (h : claim ∈ claimsIn commands c) :
    ∃ p ∈ commands, claim.line = p.position.line ∧ claim.owner ∈ p.command.names := by
  obtain ⟨p, i, hp, hclaim⟩ := mem_inProgramOrder.1 h
  refine ⟨p, List.mem_of_getElem? hp, ?_⟩
  rcases mem_claimsOf hclaim with ⟨j, hcommand, -, rfl⟩ | ⟨d, hd, -, rfl⟩
  · rw [hcommand]
    exact ⟨rfl, List.mem_cons_self⟩
  · exact ⟨rfl, Command.mem_names_of_declaredName? (declaredName?_of_firstDeclaration? hd)⟩

theorem standsAt_of_mem_shared {shared : List Shared} (h : ListsShared commands shared)
    {s : Shared} (hs : s ∈ shared) : ∃ p ∈ commands, (Analysis.sharedFinding s).StandsAt p := by
  have hlatest := List.mem_of_getLast? (h.latest s hs)
  obtain ⟨p, hp, hline, howner⟩ := exists_of_mem_claimsIn hlatest
  refine ⟨p, hp, hline, Nat.zero_le _, howner, Cause.name_infix_message fun s' hs' => ?_⟩
  obtain rfl := Cause.sharedCell.inj hs'
  exact ((h.owners s hs).mem_iff _).2 ⟨_, hlatest, rfl⟩

/-- Every finding is about a name in some command, on whose line it stands. -/
theorem standsAt_of_mem_findings (h : f ∈ (Analysis.ofCommands commands).findings) :
    ∃ p ∈ commands, f.StandsAt p := by
  rcases List.mem_append.1 h with hcommand | hshared
  · rcases List.mem_append.1 hcommand with hredeclaration | hoperation
    · rw [(Tables.record_ofCommands commands).redeclarations] at hredeclaration
      exact standsAt_of_mem_redeclarations hredeclaration
    · rw [Analysis.flatMap_findings] at hoperation
      exact standsAt_of_mem_operationFindings hoperation
  · obtain ⟨s, hs, rfl⟩ := List.mem_map.1 hshared
    exact standsAt_of_mem_shared (Analysis.listsShared_ofCommands commands) hs

end Findings

namespace Program

/-- Every command of a program that was read starts a line of the source, and it is what the code
on that line reads as. -/
theorem exists_code_of_mem_flatten {source : Text} {p : Program} (h : ofText source = .ok p)
    {placed : Placed} (hplaced : placed ∈ p.flatten) :
    placed.position.column = 0 ∧ ∃ code, HasCode source placed.position.line code ∧
      Line.ofCode code = .ok (.command placed.command) := by
  obtain ⟨position, c⟩ := placed
  obtain ⟨raw, hraw, hstatement⟩ := (mem_inOrder_iff h).1 ((mem_flatten_iff h).1 hplaced)
  obtain ⟨reading, hreading, hs⟩ := Option.bind_eq_some_iff.1 hstatement
  have hread := Value.toOption_eq_some hreading
  cases reading with
  | command c' =>
    obtain ⟨hposition, rfl⟩ := Statement.command.inj (Option.some.inj hs)
    refine ⟨(congrArg Position.column hposition).symm, _, ⟨?_, raw, hraw, rfl⟩, hread⟩
    intro hnil
    rw [hnil] at hread
    cases hread
  | _ => cases hs

end Program

/-- The diagnostic starts at the beginning of a line of the source that has code on it. -/
structure Diagnostic.Anchored (source : Text) (d : Diagnostic) : Prop where
  column : d.column = 0
  line_lt : d.line < source.lines.length
  code : ∃ code, Program.HasCode source d.line code

structure Finding.NamedIn (source : Text) (f : Finding) : Prop where
  quoted : f.cause.name.toList <:+: f.cause.message.toList
  in_code : ∃ code, Program.HasCode source f.position.line code ∧ f.cause.name.toList <:+: code

namespace Report

theorem anchored_of_hasCode {source : Text} {d : Diagnostic} (hcolumn : d.column = 0) {code : Text}
    (hcode : Program.HasCode source d.line code) : d.Anchored source := by
  obtain ⟨raw, hraw, -⟩ := hcode.2
  exact ⟨hcolumn, (List.getElem?_eq_some_iff.1 hraw).1, code, hcode⟩

theorem anchored_of_mem_findings {source : Text} {p : Program} (h : Program.ofText source = .ok p)
    {f : Finding} (hf : f ∈ (Analysis.ofProgram p).findings) :
    f.diagnostic.Anchored source ∧ f.NamedIn source := by
  obtain ⟨placed, hplaced, hstands⟩ := standsAt_of_mem_findings hf
  obtain ⟨hcolumn, code, hcode, hread⟩ := Program.exists_code_of_mem_flatten h hplaced
  rw [← hstands.line] at hcode
  refine ⟨anchored_of_hasCode (Nat.le_zero.1 (hcolumn ▸ hstands.column)) hcode, hstands.quoted, ?_⟩
  exact ⟨code, hcode, Line.infix_of_ofCode hread hstands.name⟩

/-- The diagnostics of a report stand on lines with code. A source that does not read has its first
rejected line as the only one; in any other the names that the diagnostics are about are found on
their lines. -/
theorem check_anchored (file : String) (source : Text) :
    (∀ d ∈ (check file source).diagnostics, d.Anchored source) ∧
    ((∃ number e, Program.ofText source = .error ⟨number + 1, e⟩ ∧
        Program.FirstRejected source number e ∧
        check file source =
          { file
            statements := 0
            diagnostics := [⟨number, 0, 0, ParseError.message ⟨number + 1, e⟩, .error⟩]
            cells := []
            claims := ∅
            history := [] }) ∨
      ∃ p, Program.ofText source = .ok p ∧
        (check file source).diagnostics =
          (Analysis.ofProgram p).findings.map Finding.diagnostic ∧
        ∀ f ∈ (Analysis.ofProgram p).findings, f.NamedIn source) := by
  cases h : Program.ofText source with
  | error error =>
    obtain ⟨n, e⟩ := error
    obtain ⟨hn, hfirst⟩ := Program.ofText_eq_error_iff_firstRejected.1 h
    obtain ⟨number, rfl⟩ : ∃ number, n = number + 1 := ⟨n - 1, by omega⟩
    have hcheck : check file source = ofParseError file ⟨number + 1, e⟩ := by rw [check, h]
    obtain ⟨code, hcode, -⟩ := hfirst.rejected
    refine ⟨fun d hd => ?_, .inl ⟨number, e, rfl, hfirst, hcheck⟩⟩
    rw [hcheck] at hd
    obtain rfl := List.mem_singleton.1 hd
    exact anchored_of_hasCode rfl hcode
  | ok p =>
    have hcheck : check file source = ofAnalysis file p (Analysis.ofProgram p) := by rw [check, h]
    refine ⟨fun d hd => ?_, .inr ⟨p, rfl, ?_, fun f hf => (anchored_of_mem_findings h hf).2⟩⟩
    · rw [hcheck] at hd
      obtain ⟨f, hf, rfl⟩ := List.mem_map.1 hd
      exact (anchored_of_mem_findings h hf).1
    · rw [hcheck]
      rfl

/-- The cell that two names share is reported where the second one claims it. -/
example : (check "note" "# cells\na (C1) = 1\nwhile:\n  bc (C1) = 2 # again".toList).diagnostics.map
    (fun d => (d.line, d.column, d.length, d.severity)) = [(3, 0, 2, .warning)] := by
  decide +kernel

end Report

end CellCheck
