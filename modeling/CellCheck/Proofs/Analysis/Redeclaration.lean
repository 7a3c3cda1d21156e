import CellCheck.Proofs.Analysis.Independence
import CellCheck.Proofs.Analysis.Violation

/-!
# Redeclarations

A declaration of a name that is declared already is an error and does nothing else. Without all such
declarations, a program has the same tables, claims, histories and shared cells, and it has lost
these errors only.
-/

namespace CellCheck

def Redeclares (before : List Placed) (c : Command) : Prop :=
  ∃ name ∈ c.declaredName?, Declares before name

instance (before : List Placed) (c : Command) : Decidable (Redeclares before c) :=
  inferInstanceAs (Decidable (∃ name ∈ c.declaredName?, Declares before name))

mutual

/-- What remains of a statement behind the given commands if nothing is declared again. -/
def Statement.withoutRedeclarations (before : List Placed) : Statement → List Statement
  | .command position c => if Redeclares before c then [] else [.command position c]
  | .loop position body => [.loop position (Statement.withoutRedeclarationsAll before body)]

def Statement.withoutRedeclarationsAll (before : List Placed) : List Statement → List Statement
  | [] => []
  | s :: rest =>
    s.withoutRedeclarations before ++
      Statement.withoutRedeclarationsAll (before ++ s.flatten) rest

end

/-- The program without the declarations of names that are declared further up in it, in whatever
loops these or those declarations stand. -/
def Program.withoutRedeclarations (p : Program) : Program :=
  ⟨Statement.withoutRedeclarationsAll [] p.statements⟩

def lastingCommands (commands : List Placed) : List Placed :=
  inProgramOrder (fun before p => if Redeclares before p.command then [] else [p]) commands

def redeclaringCommands (commands : List Placed) : List Placed :=
  inProgramOrder (fun before p => if Redeclares before p.command then [p] else []) commands

def IsRedeclarationOf (p : Placed) (d : Diagnostic) : Prop :=
  ∃ name, p.command.declaredName? = some name ∧
    d = ⟨p.position.line, p.position.column, name.utf8ByteSize,
      "Variable '" ++ name ++ "' already declared", .error⟩

section Removal

mutual

theorem Statement.flattenAll_withoutRedeclarations (before : List Placed) (s : Statement) :
    Statement.flattenAll (s.withoutRedeclarations before) =
      inProgramOrder (fun between p =>
        if Redeclares (before ++ between) p.command then [] else [p]) s.flatten := by
  match s with
  | .command position c =>
    rw [withoutRedeclarations, flatten, inProgramOrder_cons, List.append_nil]
    dsimp only
    split <;> rfl
  | .loop position body =>
    rw [withoutRedeclarations, flattenAll, flatten, flattenAll, List.append_nil,
      Statement.flattenAll_withoutRedeclarationsAll before body, flatten]

theorem Statement.flattenAll_withoutRedeclarationsAll (before : List Placed)
    (statements : List Statement) :
    Statement.flattenAll (Statement.withoutRedeclarationsAll before statements) =
      inProgramOrder (fun between p =>
        if Redeclares (before ++ between) p.command then [] else [p])
        (Statement.flattenAll statements) := by
  match statements with
  | [] => rfl
  | s :: rest =>
    rw [withoutRedeclarationsAll, flattenAll, inProgramOrder_append, flattenAll_append,
      Statement.flattenAll_withoutRedeclarations before s,
      Statement.flattenAll_withoutRedeclarationsAll (before ++ s.flatten) rest]
    simp only [List.append_assoc]

end

theorem Program.flatten_withoutRedeclarations (p : Program) :
    p.withoutRedeclarations.flatten = lastingCommands p.flatten :=
  Statement.flattenAll_withoutRedeclarationsAll [] p.statements

theorem lastingCommands_snoc (commands : List Placed) (p : Placed) :
    lastingCommands (commands ++ [p]) =
      lastingCommands commands ++ if Redeclares commands p.command then [] else [p] :=
  inProgramOrder_snoc _ commands p

theorem redeclaringCommands_snoc (commands : List Placed) (p : Placed) :
    redeclaringCommands (commands ++ [p]) =
      redeclaringCommands commands ++ if Redeclares commands p.command then [p] else [] :=
  inProgramOrder_snoc _ commands p

theorem isDeclaration_of_redeclares {before : List Placed} {p : Placed}
    (h : Redeclares before p.command) : p.isDeclaration = true := by
  obtain ⟨name, hname, -⟩ := h
  obtain ⟨position, c⟩ := p
  cases c <;> cases hname <;> rfl

theorem operationsIn_lastingCommands (commands : List Placed) :
    operationsIn (lastingCommands commands) = operationsIn commands := by
  induction commands using List.reverseRecOn with
  | nil => rfl
  | append_singleton commands p ih =>
    unfold operationsIn at ih ⊢
    rw [lastingCommands_snoc, List.filter_append, ih, List.filter_append]
    split
    · next h => rw [List.filter_cons_of_neg (by simp [isDeclaration_of_redeclares h])]
    · rfl

/-- A command that declares a name again has one error, and no other command has one. -/
theorem redeclaration?_of_redeclares {before : List Placed} {p : Placed}
    (h : Redeclares before p.command) :
    ∃ f, redeclaration? before p = some f ∧ IsRedeclarationOf p f.diagnostic := by
  obtain ⟨name, hname, hold⟩ := h
  exact ⟨_, redeclaration?_eq_some.2 ⟨name, hname, hold, rfl⟩, name, hname, rfl⟩

theorem redeclaration?_of_not_redeclares {before : List Placed} {p : Placed}
    (h : ¬ Redeclares before p.command) : redeclaration? before p = none := by
  refine Option.eq_none_iff_forall_ne_some.2 fun f hf => h ?_
  obtain ⟨name, hname, hold, -⟩ := redeclaration?_eq_some.1 hf
  exact ⟨name, hname, hold⟩

theorem forall₂_redeclarations (commands : List Placed) :
    List.Forall₂ IsRedeclarationOf (redeclaringCommands commands)
      ((redeclarations commands).map Finding.diagnostic) := by
  induction commands using List.reverseRecOn with
  | nil => exact .nil
  | append_singleton commands p ih =>
    rw [redeclaringCommands_snoc, redeclarations_snoc, List.map_append]
    apply List.rel_append ih
    split
    · next h =>
      obtain ⟨f, hf, hd⟩ := redeclaration?_of_redeclares h
      rw [hf]
      exact .cons hd .nil
    · next h =>
      rw [redeclaration?_of_not_redeclares h]
      exact .nil

end Removal

namespace Tables

/-- The tables as if nothing had been declared again. -/
def cleared (t : Tables) : Tables := { t with redeclarations := #[] }

theorem ofCommands_snoc (commands : List Placed) (p : Placed) :
    ofCommands (commands ++ [p]) = (ofCommands commands).add p := by
  rw [ofCommands, List.foldl_append]
  rfl

variable {t : Tables} {commands : List Placed}

theorem cleared_declare_of_declared {d : Declaration} (h : t.symbols.contains d.name = true) :
    (t.declare d).cleared = t.cleared := by
  rw [declare, if_pos h]
  rfl

theorem declare_cleared_of_new {d : Declaration} (h : ¬ t.symbols.contains d.name = true) :
    t.cleared.declare d = (t.declare d).cleared := by
  have hcleared : ¬ t.cleared.symbols.contains d.name = true := h
  rw [declare, if_neg hcleared, declare, if_neg h]
  rfl

/-- A command that declares a name again changes nothing but the list of these errors. -/
theorem cleared_add_of_redeclares {p : Placed} (h : t.Record commands)
    (hp : Redeclares commands p.command) : (t.add p).cleared = t.cleared := by
  obtain ⟨name, hname, hold⟩ := hp
  have hdeclared := (h.contains_iff name).2 hold
  obtain ⟨position, c⟩ := p
  cases c <;> cases hname <;> exact cleared_declare_of_declared hdeclared

theorem add_cleared_of_not_redeclares {p : Placed} (h : t.Record commands)
    (hp : ¬ Redeclares commands p.command) : t.cleared.add p = (t.add p).cleared := by
  have hnew (name : String) (hname : p.command.declaredName? = some name) :
      ¬ t.symbols.contains name = true :=
    fun hc => hp ⟨name, hname, (h.contains_iff name).1 hc⟩
  obtain ⟨position, c⟩ := p
  cases c with
  | param q => exact declare_cleared_of_new (hnew q.name rfl)
  | var v => exact declare_cleared_of_new (hnew v.name rfl)
  | _ => rfl

theorem ofCommands_lastingCommands (commands : List Placed) :
    ofCommands (lastingCommands commands) = (ofCommands commands).cleared := by
  induction commands using List.reverseRecOn with
  | nil => rfl
  | append_singleton commands p ih =>
    have hrecord := record_ofCommands commands
    rw [lastingCommands_snoc, ofCommands_snoc]
    split
    · next h => rw [List.append_nil, ih, cleared_add_of_redeclares hrecord h]
    · next h => rw [ofCommands_snoc, ih, add_cleared_of_not_redeclares hrecord h]

/-- Commands are not checked against the list of redeclarations. -/
theorem uses_cleared (cells : CellMap) (commands : List Placed) :
    t.cleared.uses cells commands = t.uses cells commands := by
  have hfindings : t.cleared.findings = t.findings := by
    funext ⟨position, c⟩
    cases c <;> rfl
  have htouches : t.cleared.touches = t.touches := by
    funext ⟨position, c⟩
    cases c <;> rfl
  rw [uses, hfindings, htouches]
  rfl

end Tables

namespace Analysis

theorem uses_lastingCommands (commands : List Placed) (cells : CellMap) :
    (Tables.ofCommands (lastingCommands commands)).uses cells (lastingCommands commands) =
      (Tables.ofCommands commands).uses cells commands := by
  rw [Tables.ofCommands_lastingCommands, Tables.uses_cleared, ← Tables.uses_operationsIn,
    operationsIn_lastingCommands, Tables.uses_operationsIn]

/-- An operation does not declare anything again. -/
theorem cause_ne_redeclared_of_mem_usageSites {commands : List Placed} {p : Placed} {i : Nat}
    {s : ErrorSite} {f : Finding} (hp : commands[i]? = some p)
    (h : (s, f) ∈ usageSites commands i p) (name : String) : f.cause ≠ .redeclared name := by
  obtain ⟨hcommand, hne⟩ := command_of_mem_usageSites commands i (List.mem_map_of_mem h)
  cases violates_of_mem_usageSites hp h with
  | redeclaration =>
    obtain rfl := hcommand
    exact absurd rfl hne
  | _ => exact nofun

theorem cause_ne_redeclared {commands : List Placed} (hnone : redeclarations commands = [])
    {f : Finding} (hf : f ∈ (ofCommands commands).findings) (name : String) :
    f.cause ≠ .redeclared name := by
  have hrecord := Tables.record_ofCommands commands
  intro hcause
  rcases List.mem_append.1 hf with hf | hshared
  · rcases List.mem_append.1 hf with hf | hoperation
    · rw [hrecord.redeclarations, hnone] at hf
      cases hf
    · obtain ⟨p, hp, hf⟩ := List.mem_flatMap.1 hoperation
      obtain ⟨i, hi⟩ := List.getElem?_of_mem hp
      have herror : f.isError = true := by
        rw [Finding.isError, hcause]
        rfl
      have hkept := List.mem_filter.2 ⟨hf, herror⟩
      rw [filter_isError_findings hrecord i] at hkept
      obtain ⟨⟨s, f⟩, hsite, rfl⟩ := List.mem_map.1 hkept
      exact cause_ne_redeclared_of_mem_usageSites hi hsite name hcause
  · obtain ⟨s, -, rfl⟩ := List.mem_map.1 hshared
    cases hcause

theorem redeclarations_lastingCommands (commands : List Placed) :
    redeclarations (lastingCommands commands) = [] := by
  rw [← (Tables.record_ofCommands _).redeclarations, Tables.ofCommands_lastingCommands]
  rfl

theorem cells_lastingCommands (commands : List Placed) :
    (ofCommands (lastingCommands commands)).cells = (ofCommands commands).cells := by
  have htouched := congrArg Prod.snd
    (uses_lastingCommands commands (Tables.ofCommands commands).cells)
  have hclaimed : (Tables.ofCommands (lastingCommands commands)).cells =
      (Tables.ofCommands commands).cells := by
    rw [Tables.ofCommands_lastingCommands]
    rfl
  unfold ofCommands
  dsimp only
  rw [hclaimed]
  exact htouched

theorem findings_lastingCommands (commands : List Placed) :
    (ofCommands commands).findings =
      redeclarations commands ++ (ofCommands (lastingCommands commands)).findings := by
  have hoperations := congrArg Prod.fst
    (uses_lastingCommands commands (Tables.ofCommands commands).cells)
  change (lastingCommands commands).flatMap _ = commands.flatMap _ at hoperations
  rw [findings_ofCommands (lastingCommands commands), redeclarations_lastingCommands, hoperations,
    cells_lastingCommands, List.nil_append, findings_ofCommands]

/-- Declarations of names that are declared already can be left out. All tables, claims, histories
and shared cells stay the same, and of the diagnostics only the errors go away that such
declarations have, one for each of them; the others keep their order. -/
theorem ofProgram_withoutRedeclarations (p : Program) :
    p.withoutRedeclarations.flatten = lastingCommands p.flatten ∧
    (ofProgram p.withoutRedeclarations).symbols = (ofProgram p).symbols ∧
    (ofProgram p.withoutRedeclarations).syscalls = (ofProgram p).syscalls ∧
    (ofProgram p.withoutRedeclarations).cells = (ofProgram p).cells ∧
    (∃ errors, List.Forall₂ IsRedeclarationOf (redeclaringCommands p.flatten) errors ∧
      (ofProgram p).diagnostics = errors ++ (ofProgram p.withoutRedeclarations).diagnostics) ∧
    ∀ f ∈ (ofProgram p.withoutRedeclarations).findings, ∀ name, f.cause ≠ .redeclared name := by
  have hflatten := p.flatten_withoutRedeclarations
  have htables := Tables.ofCommands_lastingCommands p.flatten
  rw [ofProgram, ofProgram, hflatten]
  refine ⟨rfl, ?_, ?_, cells_lastingCommands p.flatten,
    ⟨_, forall₂_redeclarations p.flatten, ?_⟩, ?_⟩
  · change (Tables.ofCommands (lastingCommands p.flatten)).symbols = _
    rw [htables]
    rfl
  · change (Tables.ofCommands (lastingCommands p.flatten)).syscalls = _
    rw [htables]
    rfl
  · rw [diagnostics, findings_lastingCommands, List.map_append]
    rfl
  · exact fun f hf => cause_ne_redeclared (redeclarations_lastingCommands p.flatten) hf

/-- The second declaration of `a` stands in a loop in front of the first one of `b`. -/
example :
    (Program.mk
      [.command ⟨0, 0⟩ (.var ⟨"a", [⟨0⟩], .int 1⟩),
        .loop ⟨1, 0⟩
          [.command ⟨2, 0⟩ (.param ⟨"a", [⟨1⟩], .int, none, none⟩),
            .command ⟨3, 0⟩ (.var ⟨"b", [⟨1⟩], .int 2⟩)],
        .command ⟨5, 0⟩ (.var ⟨"b", [⟨2⟩], .int 3⟩)]).withoutRedeclarations =
    Program.mk
      [.command ⟨0, 0⟩ (.var ⟨"a", [⟨0⟩], .int 1⟩),
        .loop ⟨1, 0⟩ [.command ⟨3, 0⟩ (.var ⟨"b", [⟨1⟩], .int 2⟩)]] := by
  decide

end Analysis

end CellCheck
