import CellCheck.Proofs.Analysis.Violation

/-!
# New declarations

A declaration of a new name can be put anywhere into a program, in a loop as well. The errors that
miss the name go away; all other errors stay as they are and in their order.
-/

namespace CellCheck

/-- The second list has one statement more than the first, at its own level or in a loop of it. -/
inductive Statement.Inserted (s : Statement) : List Statement → List Statement → Prop
  | here (rest : List Statement) : Inserted s rest (s :: rest)
  | behind (t : Statement) {rest rest' : List Statement} (h : Inserted s rest rest') :
      Inserted s (t :: rest) (t :: rest')
  | inside (position : Position) {body body' : List Statement} (rest : List Statement)
      (h : Inserted s body body') :
      Inserted s (.loop position body :: rest) (.loop position body' :: rest)

def Cause.missedName? : Cause → Option String
  | undefinedTarget name | undefinedReference name | undefinedOperand name
  | undefinedArgument name => some name
  | _ => none

def withoutMissing (name : String) (errors : List Finding) : List Finding :=
  errors.filter fun f => f.cause.missedName? ≠ some name

def Analysis.errors (a : Analysis) : List Finding := a.findings.filter Finding.isError

theorem Statement.Inserted.flattenAll {position : Position} {c : Command}
    {statements statements' : List Statement}
    (h : Inserted (.command position c) statements statements') :
    ∃ front back, Statement.flattenAll statements = front ++ back ∧
      Statement.flattenAll statements' = front ++ ⟨position, c⟩ :: back := by
  induction h with
  | here rest => exact ⟨[], Statement.flattenAll rest, rfl, rfl⟩
  | behind t h ih =>
    obtain ⟨front, back, hbefore, hafter⟩ := ih
    refine ⟨t.flatten ++ front, back, ?_, ?_⟩
    · rw [Statement.flattenAll, hbefore, List.append_assoc]
    · rw [Statement.flattenAll, hafter, List.append_assoc]
  | inside loopPosition rest h ih =>
    obtain ⟨front, back, hbefore, hafter⟩ := ih
    refine ⟨front, back ++ Statement.flattenAll rest, ?_, ?_⟩
    · rw [Statement.flattenAll, Statement.flatten, hbefore, List.append_assoc]
    · rw [Statement.flattenAll, Statement.flatten, hafter, List.append_assoc, List.cons_append]

section Commands

variable {front back : List Placed} {d : Placed} {name : String}

theorem declares_insert (hname : d.command.declaredName? = some name) (other : String) :
    Declares (front ++ d :: back) other ↔ Declares (front ++ back) other ∨ other = name := by
  have hd : d.command.declaredName? = some other ↔ other = name := by
    rw [hname, Option.some.injEq, eq_comm]
  simp only [Declares, List.mem_append, List.mem_cons, or_and_right, exists_or, exists_eq_left, hd]
  rw [or_assoc]
  exact or_congr_right or_comm

theorem initOf?_of_declaredName? (hname : d.command.declaredName? = some name)
    (syscall : String) : d.initOf? syscall = none := by
  obtain ⟨position, c⟩ := d
  cases c <;> cases hname <;> rfl

theorem lastInit?_insert (hname : d.command.declaredName? = some name) (syscall : String) :
    lastInit? (front ++ d :: back) syscall = lastInit? (front ++ back) syscall := by
  unfold lastInit?
  rw [List.filterMap_append, List.filterMap_cons_none (initOf?_of_declaredName? hname syscall),
    List.filterMap_append]

theorem redeclarations_insert (hname : d.command.declaredName? = some name)
    (hnew : ¬ Declares (front ++ back) name) :
    redeclarations (front ++ d :: back) = redeclarations (front ++ back) := by
  have hfirst : redeclaration? front d = none := by
    have hfront : ¬ Declares front name := fun ⟨p, hp, hdeclared⟩ =>
      hnew ⟨p, List.mem_append_left _ hp, hdeclared⟩
    rw [redeclaration?, hname]
    exact if_neg hfront
  -- the commands behind the new one declare other names, for which it does not count
  have hback : ∀ p ∈ back, ∀ before,
      redeclaration? (front ++ d :: before) p = redeclaration? (front ++ before) p := by
    intro p hp before
    unfold redeclaration?
    cases hdeclared : p.command.declaredName? with
    | none => rfl
    | some other =>
      have hne : other ≠ name := by
        rintro rfl
        exact hnew ⟨p, List.mem_append_right _ hp, hdeclared⟩
      simp only [declares_insert hname, hne, or_false]
  rw [redeclarations, inProgramOrder_append, redeclarations, inProgramOrder_append,
    inProgramOrder_cons, List.append_nil, hfirst]
  congr 1
  exact inProgramOrder_congr fun p hp before => congrArg Option.toList (hback p hp before)

end Commands

section Causes

/-- The second tables know the name and whatever the first ones know. -/
structure Tables.Learns (t u : Tables) (name : String) : Prop where
  declares : ∀ other, u.declares other = (t.declares other || other == name)
  syscalls : ∀ syscall, u.syscalls.get? syscall = t.syscalls.get? syscall

theorem withoutMissing_append (name : String) (errors errors' : List Finding) :
    withoutMissing name (errors ++ errors') =
      withoutMissing name errors ++ withoutMissing name errors' :=
  List.filter_append errors errors'

theorem cause_mem_of_mem_errorsAt {position : Position} {causes : List Cause} {f : Finding}
    (h : f ∈ errorsAt position causes) : f.cause ∈ causes := by
  obtain ⟨cause, hcause, rfl⟩ := List.mem_map.1 (List.mem_of_mem_filter h)
  exact hcause

variable {t u : Tables} {name : String} (h : t.Learns u name) (position : Position)

include h

theorem errorsAt_missedName {other : String} {cause : Cause}
    (hmissed : cause.missedName? = some other) :
    errorsAt position (if u.declares other then [] else [cause]) =
      withoutMissing name (errorsAt position (if t.declares other then [] else [cause])) := by
  have hdeclares := h.declares other
  cases ht : t.declares other with
  | true =>
    rw [ht, Bool.true_or] at hdeclares
    rw [hdeclares]
    rfl
  | false =>
    rw [ht, Bool.false_or] at hdeclares
    have hcause : ∀ f ∈ errorsAt position [cause], f.cause.missedName? = some other := by
      intro f hf
      rw [List.mem_singleton.1 (cause_mem_of_mem_errorsAt hf), hmissed]
    by_cases hother : other = name
    · subst hother
      rw [hdeclares, beq_self_eq_true]
      exact (List.filter_eq_nil_iff.2 fun f hf => by simp [hcause f hf]).symm
    · rw [hdeclares, beq_false_of_ne hother]
      exact (List.filter_eq_self.2 fun f hf => by simp [hcause f hf, hother]).symm

theorem errorsAt_targetCauses_learns (target : Target) :
    errorsAt position (u.targetCauses target) =
      withoutMissing name (errorsAt position (t.targetCauses target)) := by
  cases target with
  | name other => exact errorsAt_missedName h position rfl
  | _ => rfl

/-- Whether a referenced cell is claimed makes no error in either case. -/
theorem errorsAt_referenceCauses_learns (value : Value) :
    errorsAt position (u.referenceCauses value) =
      withoutMissing name (errorsAt position (t.referenceCauses value)) := by
  unfold Tables.referenceCauses
  cases value.reference? with
  | none => rfl
  | some target =>
    dsimp only
    split
    · split <;> split <;> rfl
    · exact errorsAt_missedName h position rfl

theorem errorsAt_operandCauses_learns (operand : Operand) :
    errorsAt position (u.operandCauses operand) =
      withoutMissing name (errorsAt position (t.operandCauses operand)) := by
  cases operand with
  | name other => exact errorsAt_missedName h position rfl
  | cell c => rfl

theorem errorsAt_arguments_learns (arguments : List Operand) :
    errorsAt position (arguments.flatMap u.argumentCauses) =
      withoutMissing name (errorsAt position (arguments.flatMap t.argumentCauses)) := by
  induction arguments with
  | nil => rfl
  | cons argument rest ih =>
    have hargument : errorsAt position (u.argumentCauses argument) =
        withoutMissing name (errorsAt position (t.argumentCauses argument)) := by
      cases argument with
      | name other => exact errorsAt_missedName h position rfl
      | cell c => rfl
    rw [List.flatMap_cons, errorsAt_append, hargument, ih, List.flatMap_cons, errorsAt_append,
      withoutMissing_append]

theorem errorsAt_callCauses_learns (c : Call) :
    errorsAt position (u.callCauses c) =
      withoutMissing name (errorsAt position (t.callCauses c)) := by
  rw [Tables.callCauses, Tables.callCauses, h.syscalls]
  cases t.syscalls.get? c.syscall with
  | none => rfl
  | some i =>
    dsimp only
    rw [errorsAt_append, errorsAt_append, withoutMissing_append, errorsAt_arguments_learns h]
    congr 1
    split <;> rfl

theorem filter_isError_findings_learns (p : Placed) :
    (u.findings p).filter Finding.isError =
      withoutMissing name ((t.findings p).filter Finding.isError) := by
  obtain ⟨position, c⟩ := p
  change errorsAt position (u.causes c) = withoutMissing name (errorsAt position (t.causes c))
  cases c with
  | assign a =>
    rw [Tables.causes, Tables.causes, errorsAt_append, errorsAt_append, withoutMissing_append,
      errorsAt_targetCauses_learns h, errorsAt_referenceCauses_learns h]
  | move m =>
    rw [Tables.causes, Tables.causes, errorsAt_append, errorsAt_append, withoutMissing_append,
      errorsAt_operandCauses_learns h, errorsAt_operandCauses_learns h]
  | call c => exact errorsAt_callCauses_learns h position c
  | _ => rfl

end Causes

theorem learns_insert {front back : List Placed} {d : Placed} {name : String}
    (hname : d.command.declaredName? = some name) :
    (Tables.ofCommands (front ++ back)).Learns (Tables.ofCommands (front ++ d :: back)) name where
  declares other := by
    rw [Bool.eq_iff_iff, Bool.or_eq_true, beq_iff_eq, Tables.declares_ofCommands,
      declares_insert hname, Tables.declares_ofCommands]
  syscalls syscall := by
    rw [(Tables.record_ofCommands _).syscalls, (Tables.record_ofCommands _).syscalls,
      lastInit?_insert hname]

namespace Analysis

theorem filter_isError_diagnostics (a : Analysis) :
    a.diagnostics.filter Diagnostic.isError = a.errors.map Finding.diagnostic := by
  rw [diagnostics, List.filter_map]
  rfl

theorem errors_insert {front back : List Placed} {d : Placed} {name : String}
    (hname : d.command.declaredName? = some name) (hnew : ¬ Declares (front ++ back) name) :
    (ofCommands (front ++ d :: back)).errors =
      withoutMissing name (ofCommands (front ++ back)).errors := by
  have hredeclarations : withoutMissing name (redeclarations (front ++ back)) =
      redeclarations (front ++ back) := by
    refine List.filter_eq_self.2 fun f hf => ?_
    obtain ⟨other, hcause⟩ := cause_of_mem_redeclarations hf
    simp [hcause, Cause.missedName?]
  -- the declaration itself finds nothing wrong
  have hoperations :
      (front ++ d :: back).flatMap (Tables.ofCommands (front ++ d :: back)).findings =
      (front ++ back).flatMap (Tables.ofCommands (front ++ d :: back)).findings := by
    have hd : (Tables.ofCommands (front ++ d :: back)).findings d = [] := by
      obtain ⟨position, c⟩ := d
      cases c <;> cases hname <;> rfl
    rw [List.flatMap_append, List.flatMap_cons, hd, List.nil_append, List.flatMap_append]
  rw [errors, filter_isError_findings_ofCommands, errors, filter_isError_findings_ofCommands,
    withoutMissing_append, hredeclarations,
    redeclarations_insert hname hnew, hoperations, List.filter_flatMap, List.filter_flatMap,
    withoutMissing, List.filter_flatMap]
  congr 1
  exact List.flatMap_congr fun p _ => filter_isError_findings_learns (learns_insert hname) p

/-- Wherever a declaration of a new name is put into a program, the errors are those of before
without the ones that miss the name: no error is added, and no other error goes away or changes its
place. -/
theorem errors_of_inserted_declaration {p q : Program} {position : Position} {c : Command}
    {name : String} (hname : c.declaredName? = some name) (hnew : ¬ Declares p.flatten name)
    (hinserted : Statement.Inserted (.command position c) p.statements q.statements) :
    (ofProgram q).errors = withoutMissing name (ofProgram p).errors ∧
    (ofProgram p).diagnostics.filter Diagnostic.isError =
      (ofProgram p).errors.map Finding.diagnostic ∧
    (ofProgram q).diagnostics.filter Diagnostic.isError =
      (withoutMissing name (ofProgram p).errors).map Finding.diagnostic := by
  obtain ⟨front, back, hbefore, hafter⟩ := hinserted.flattenAll
  change p.flatten = _ at hbefore
  change q.flatten = _ at hafter
  have herrors : (ofProgram q).errors = withoutMissing name (ofProgram p).errors := by
    rw [hbefore] at hnew
    rw [ofProgram, ofProgram, hbefore, hafter, errors_insert hname hnew]
  refine ⟨herrors, filter_isError_diagnostics _, ?_⟩
  rw [filter_isError_diagnostics, herrors]

def undeclaredNames : Program where
  statements :=
    [.loop ⟨0, 0⟩
        [.command ⟨1, 0⟩ (.assign ⟨.name "x", .reference "y"⟩),
          .command ⟨2, 0⟩ (.move ⟨.name "x", .name "z"⟩)],
      .command ⟨4, 0⟩ (.init ⟨"SYS_OUT", ⟨0⟩, 1⟩),
      .command ⟨5, 0⟩ (.call ⟨"SYS_OUT", [.name "x", .name "y"]⟩)]

def undeclaredNamesButX : Program where
  statements :=
    [.loop ⟨0, 0⟩
        [.command ⟨1, 0⟩ (.assign ⟨.name "x", .reference "y"⟩),
          .command ⟨2, 0⟩ (.move ⟨.name "x", .name "z"⟩),
          .command ⟨3, 0⟩ (.var ⟨"x", [⟨0⟩], .int 1⟩)],
      .command ⟨4, 0⟩ (.init ⟨"SYS_OUT", ⟨0⟩, 1⟩),
      .command ⟨5, 0⟩ (.call ⟨"SYS_OUT", [.name "x", .name "y"]⟩)]

theorem errors_undeclaredNamesButX :
    (Command.var ⟨"x", [⟨0⟩], .int 1⟩).declaredName? = some "x" ∧
    ¬ Declares undeclaredNames.flatten "x" ∧
    Statement.Inserted (.command ⟨3, 0⟩ (.var ⟨"x", [⟨0⟩], .int 1⟩)) undeclaredNames.statements
      undeclaredNamesButX.statements ∧
    (ofProgram undeclaredNamesButX).errors =
      withoutMissing "x" (ofProgram undeclaredNames).errors ∧
    withoutMissing "x" (ofProgram undeclaredNames).errors =
      [⟨⟨1, 0⟩, .undefinedReference "y"⟩, ⟨⟨2, 0⟩, .undefinedOperand "z"⟩,
        ⟨⟨5, 0⟩, .argumentCount "SYS_OUT" 1 2⟩, ⟨⟨5, 0⟩, .undefinedArgument "y"⟩] := by
  have hnew : ¬ Declares undeclaredNames.flatten "x" := by decide
  have hinserted : Statement.Inserted (.command ⟨3, 0⟩ (.var ⟨"x", [⟨0⟩], .int 1⟩))
      undeclaredNames.statements undeclaredNamesButX.statements :=
    .inside _ _ (.behind _ (.behind _ (.here [])))
  obtain ⟨herrors, -, -⟩ := errors_of_inserted_declaration rfl hnew hinserted
  exact ⟨rfl, hnew, hinserted, herrors, by decide +kernel⟩

end Analysis

end CellCheck
