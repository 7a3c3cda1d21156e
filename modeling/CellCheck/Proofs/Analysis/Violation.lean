import CellCheck.Proofs.Analysis.Declared
import Mathlib.Data.List.Nodup
import Mathlib.Data.List.Flatten

/-!
# Errors and the places that cause them

A place of a program at which a rule of the language is broken is an error site. The rules are
stated on the commands alone; the errors of the analysis are one for each site.
-/

namespace CellCheck

/-- A place in a program, where commands and arguments are counted from zero. -/
inductive ErrorSite where
  | redeclaration (command : Nat)
  | target (command : Nat)
  | reference (command : Nat)
  | source (command : Nat)
  | destination (command : Nat)
  | syscall (command : Nat)
  | argumentCount (command : Nat)
  | argument (command index : Nat)
  deriving DecidableEq, Repr

def ErrorSite.command : ErrorSite → Nat
  | redeclaration i | target i | reference i | source i | destination i | syscall i
  | argumentCount i | argument i _ => i

/-- The rule broken at a site, with the error that tells so. -/
inductive Violates (commands : List Placed) : ErrorSite → Finding → Prop
  | redeclaration {i : Nat} {p : Placed} {name : String} (hp : commands[i]? = some p)
      (hname : p.command.declaredName? = some name) (hold : Declares (commands.take i) name) :
      Violates commands (.redeclaration i) ⟨p.position, .redeclared name⟩
  | target {i : Nat} {position : Position} {name : String} {value : Value}
      (hp : commands[i]? = some ⟨position, .assign ⟨.name name, value⟩⟩)
      (hname : ¬ Declares commands name) :
      Violates commands (.target i) ⟨position, .undefinedTarget name⟩
  | reference {i : Nat} {position : Position} {target : Target} {name : String}
      (hp : commands[i]? = some ⟨position, .assign ⟨target, .reference name⟩⟩)
      (hcell : Cell.isShaped name.toList = false) (hname : ¬ Declares commands name) :
      Violates commands (.reference i) ⟨position, .undefinedReference name⟩
  | source {i : Nat} {position : Position} {name : String} {destination : Operand}
      (hp : commands[i]? = some ⟨position, .move ⟨.name name, destination⟩⟩)
      (hname : ¬ Declares commands name) :
      Violates commands (.source i) ⟨position, .undefinedOperand name⟩
  | destination {i : Nat} {position : Position} {source : Operand} {name : String}
      (hp : commands[i]? = some ⟨position, .move ⟨source, .name name⟩⟩)
      (hname : ¬ Declares commands name) :
      Violates commands (.destination i) ⟨position, .undefinedOperand name⟩
  | syscall {i : Nat} {position : Position} {c : Call}
      (hp : commands[i]? = some ⟨position, .call c⟩)
      (hinit : lastInit? commands c.syscall = none) :
      Violates commands (.syscall i) ⟨position, .undefinedSyscall c.syscall⟩
  | argumentCount {i : Nat} {position : Position} {c : Call} {last : InitAt}
      (hp : commands[i]? = some ⟨position, .call c⟩)
      (hinit : lastInit? commands c.syscall = some last)
      (hcount : c.arguments.length ≠ last.init.argumentCount) :
      Violates commands (.argumentCount i)
        ⟨position, .argumentCount c.syscall last.init.argumentCount c.arguments.length⟩
  | argument {i k : Nat} {position : Position} {c : Call} {last : InitAt} {name : String}
      (hp : commands[i]? = some ⟨position, .call c⟩)
      (hinit : lastInit? commands c.syscall = some last)
      (hargument : c.arguments[k]? = some (.name name)) (hname : ¬ Declares commands name) :
      Violates commands (.argument i k) ⟨position, .undefinedArgument name⟩

def nameSites (commands : List Placed) (site : ErrorSite) (name : String) (f : Finding) :
    List (ErrorSite × Finding) :=
  if Declares commands name then [] else [(site, f)]

def targetSites (commands : List Placed) (i : Nat) (position : Position) :
    Target → List (ErrorSite × Finding)
  | .name name => nameSites commands (.target i) name ⟨position, .undefinedTarget name⟩
  | _ => []

def referenceSites (commands : List Placed) (i : Nat) (position : Position) :
    Value → List (ErrorSite × Finding)
  | .reference name =>
    if Cell.isShaped name.toList then []
    else nameSites commands (.reference i) name ⟨position, .undefinedReference name⟩
  | _ => []

def operandSites (commands : List Placed) (site : ErrorSite) (position : Position)
    (cause : String → Cause) : Operand → List (ErrorSite × Finding)
  | .name name => nameSites commands site name ⟨position, cause name⟩
  | .cell _ => []

def argumentCountSites (i : Nat) (position : Position) (c : Call) (expected : Nat) :
    List (ErrorSite × Finding) :=
  if c.arguments.length = expected then []
  else [(.argumentCount i, ⟨position, .argumentCount c.syscall expected c.arguments.length⟩)]

def callSites (commands : List Placed) (i : Nat) (position : Position) (c : Call) :
    List (ErrorSite × Finding) :=
  match lastInit? commands c.syscall with
  | none => [(.syscall i, ⟨position, .undefinedSyscall c.syscall⟩)]
  | some last =>
    argumentCountSites i position c last.init.argumentCount ++
      c.arguments.zipIdx.flatMap fun (argument, k) =>
        operandSites commands (.argument i k) position .undefinedArgument argument

def usageSites (commands : List Placed) (i : Nat) (p : Placed) : List (ErrorSite × Finding) :=
  match p.command with
  | .assign a =>
    targetSites commands i p.position a.target ++ referenceSites commands i p.position a.value
  | .move m =>
    operandSites commands (.source i) p.position .undefinedOperand m.source ++
      operandSites commands (.destination i) p.position .undefinedOperand m.destination
  | .call c => callSites commands i p.position c
  | _ => []

def redeclarationSites (before : List Placed) (i : Nat) (p : Placed) :
    List (ErrorSite × Finding) :=
  (redeclaration? before p).toList.map fun f => (.redeclaration i, f)

/-- The error sites of a program, with redeclarations in front of the others. -/
def errorSites (commands : List Placed) : List (ErrorSite × Finding) :=
  (commands.zipIdx.flatMap fun (p, i) => redeclarationSites (commands.take i) i p) ++
    commands.zipIdx.flatMap fun (p, i) => usageSites commands i p

section Membership

variable {commands : List Placed} {i : Nat} {s : ErrorSite} {f : Finding}

theorem mem_nameSites {site : ErrorSite} {name : String} {g : Finding} :
    (s, f) ∈ nameSites commands site name g ↔ ¬ Declares commands name ∧ s = site ∧ f = g := by
  unfold nameSites
  split <;> simp [*]

theorem mem_targetSites {position : Position} {target : Target} :
    (s, f) ∈ targetSites commands i position target ↔
      ∃ name, target = .name name ∧ ¬ Declares commands name ∧ s = .target i ∧
        f = ⟨position, .undefinedTarget name⟩ := by
  cases target <;> simp [targetSites, mem_nameSites]

theorem mem_referenceSites {position : Position} {value : Value} :
    (s, f) ∈ referenceSites commands i position value ↔
      ∃ name, value = .reference name ∧ Cell.isShaped name.toList = false ∧
        ¬ Declares commands name ∧ s = .reference i ∧
        f = ⟨position, .undefinedReference name⟩ := by
  cases value with
  | reference name =>
    by_cases h : Cell.isShaped name.toList <;> simp [referenceSites, mem_nameSites, h]
  | _ => simp [referenceSites]

theorem mem_operandSites {site : ErrorSite} {position : Position} {cause : String → Cause}
    {operand : Operand} :
    (s, f) ∈ operandSites commands site position cause operand ↔
      ∃ name, operand = .name name ∧ ¬ Declares commands name ∧ s = site ∧
        f = ⟨position, cause name⟩ := by
  cases operand <;> simp [operandSites, mem_nameSites]

theorem mem_argumentCountSites {position : Position} {c : Call} {expected : Nat} :
    (s, f) ∈ argumentCountSites i position c expected ↔
      c.arguments.length ≠ expected ∧ s = .argumentCount i ∧
        f = ⟨position, .argumentCount c.syscall expected c.arguments.length⟩ := by
  unfold argumentCountSites
  split <;> simp [*]

theorem mem_callSites {position : Position} {c : Call} :
    (s, f) ∈ callSites commands i position c ↔
      (lastInit? commands c.syscall = none ∧ s = .syscall i ∧
        f = ⟨position, .undefinedSyscall c.syscall⟩) ∨
      ∃ last, lastInit? commands c.syscall = some last ∧
        ((c.arguments.length ≠ last.init.argumentCount ∧ s = .argumentCount i ∧
            f = ⟨position,
              .argumentCount c.syscall last.init.argumentCount c.arguments.length⟩) ∨
          ∃ k name, c.arguments[k]? = some (.name name) ∧ ¬ Declares commands name ∧
            s = .argument i k ∧ f = ⟨position, .undefinedArgument name⟩) := by
  unfold callSites
  cases h : lastInit? commands c.syscall with
  | none => simp
  | some last =>
    have harguments : ((s, f) ∈ c.arguments.zipIdx.flatMap fun (argument, k) =>
        operandSites commands (.argument i k) position .undefinedArgument argument) ↔
        ∃ k name, c.arguments[k]? = some (.name name) ∧ ¬ Declares commands name ∧
          s = .argument i k ∧ f = ⟨position, .undefinedArgument name⟩ := by
      simp only [List.mem_flatMap, Prod.exists, List.mem_zipIdx_iff_getElem?, mem_operandSites]
      constructor
      · rintro ⟨_, k, hk, name, rfl, hname, hs, hf⟩
        exact ⟨k, name, hk, hname, hs, hf⟩
      · rintro ⟨k, name, hk, hname, hs, hf⟩
        exact ⟨_, k, hk, name, rfl, hname, hs, hf⟩
    rw [List.mem_append, mem_argumentCountSites, harguments]
    simp

theorem violates_of_mem_usageSites {p : Placed} (hp : commands[i]? = some p)
    (h : (s, f) ∈ usageSites commands i p) : Violates commands s f := by
  obtain ⟨position, c⟩ := p
  cases c with
  | assign a =>
    obtain ⟨target, value⟩ := a
    rcases List.mem_append.1 h with h | h
    · obtain ⟨name, rfl, hname, rfl, rfl⟩ := mem_targetSites.1 h
      exact .target hp hname
    · obtain ⟨name, rfl, hcell, hname, rfl, rfl⟩ := mem_referenceSites.1 h
      exact .reference hp hcell hname
  | move m =>
    obtain ⟨source, destination⟩ := m
    rcases List.mem_append.1 h with h | h
    · obtain ⟨name, rfl, hname, rfl, rfl⟩ := mem_operandSites.1 h
      exact .source hp hname
    · obtain ⟨name, rfl, hname, rfl, rfl⟩ := mem_operandSites.1 h
      exact .destination hp hname
  | call c =>
    rcases mem_callSites.1 h with ⟨hinit, rfl, rfl⟩ | ⟨last, hinit, h⟩
    · exact .syscall hp hinit
    · rcases h with ⟨hcount, rfl, rfl⟩ | ⟨k, name, hk, hname, rfl, rfl⟩
      · exact .argumentCount hp hinit hcount
      · exact .argument hp hinit hk hname
  | _ => cases h

theorem mem_redeclarationSites {before : List Placed} {p : Placed} :
    (s, f) ∈ redeclarationSites before i p ↔
      ∃ name, p.command.declaredName? = some name ∧ Declares before name ∧
        s = .redeclaration i ∧ f = ⟨p.position, .redeclared name⟩ := by
  unfold redeclarationSites redeclaration?
  cases p.command.declaredName? with
  | none => simp
  | some name => by_cases h : Declares before name <;> simp [h]

theorem mem_errorSites_iff : (s, f) ∈ errorSites commands ↔ Violates commands s f := by
  simp only [errorSites, List.mem_append, List.mem_flatMap, Prod.exists,
    List.mem_zipIdx_iff_getElem?]
  constructor
  · rintro (⟨p, i, hp, h⟩ | ⟨p, i, hp, h⟩)
    · obtain ⟨name, hname, hold, rfl, rfl⟩ := mem_redeclarationSites.1 h
      exact .redeclaration hp hname hold
    · exact violates_of_mem_usageSites hp h
  · intro h
    cases h with
    | redeclaration hp hname hold =>
      exact .inl ⟨_, _, hp, mem_redeclarationSites.2 ⟨_, hname, hold, rfl, rfl⟩⟩
    | target hp hname =>
      exact .inr ⟨_, _, hp, List.mem_append_left _
        (mem_targetSites.2 ⟨_, rfl, hname, rfl, rfl⟩)⟩
    | reference hp hcell hname =>
      exact .inr ⟨_, _, hp, List.mem_append_right _
        (mem_referenceSites.2 ⟨_, rfl, hcell, hname, rfl, rfl⟩)⟩
    | source hp hname =>
      exact .inr ⟨_, _, hp, List.mem_append_left _
        (mem_operandSites.2 ⟨_, rfl, hname, rfl, rfl⟩)⟩
    | destination hp hname =>
      exact .inr ⟨_, _, hp, List.mem_append_right _
        (mem_operandSites.2 ⟨_, rfl, hname, rfl, rfl⟩)⟩
    | syscall hp hinit =>
      exact .inr ⟨_, _, hp, mem_callSites.2 (.inl ⟨hinit, rfl, rfl⟩)⟩
    | argumentCount hp hinit hcount =>
      exact .inr ⟨_, _, hp, mem_callSites.2 (.inr ⟨_, hinit, .inl ⟨hcount, rfl, rfl⟩⟩)⟩
    | argument hp hinit hk hname =>
      exact .inr ⟨_, _, hp, mem_callSites.2
        (.inr ⟨_, hinit, .inr ⟨_, _, hk, hname, rfl, rfl⟩⟩)⟩

end Membership

section Distinct

/-- Lists made from the entries of a list have no duplicates together if each of them has none and
their elements tell the place of the entry. -/
theorem nodup_flatMap_zipIdx {α β : Type} (g : α × Nat → List β) (place : β → Nat) (xs : List α)
    (hnodup : ∀ x, (g x).Nodup) (hplace : ∀ x, ∀ b ∈ g x, place b = x.2) :
    (xs.zipIdx.flatMap g).Nodup := by
  rw [List.nodup_flatMap]
  refine ⟨fun x _ => hnodup x, ?_⟩
  have hindices : xs.zipIdx.Pairwise fun x y => x.2 ≠ y.2 := by
    rw [← List.pairwise_map (f := Prod.snd), List.zipIdx_map_snd]
    exact List.nodup_range'
  apply hindices.imp
  intro x y hxy b hx hy
  exact hxy ((hplace x b hx).symm.trans (hplace y b hy))

variable (commands : List Placed) (i : Nat)

theorem nodup_nameSites (site : ErrorSite) (name : String) (f : Finding) :
    ((nameSites commands site name f).map Prod.fst).Nodup := by
  unfold nameSites
  split
  · exact List.nodup_nil
  · exact List.nodup_singleton site

theorem nodup_operandSites (site : ErrorSite) (position : Position) (cause : String → Cause)
    (operand : Operand) :
    ((operandSites commands site position cause operand).map Prod.fst).Nodup := by
  cases operand with
  | cell c => exact List.nodup_nil
  | name name => exact nodup_nameSites commands _ _ _

theorem nodup_targetSites (position : Position) (target : Target) :
    ((targetSites commands i position target).map Prod.fst).Nodup := by
  cases target with
  | name name => exact nodup_nameSites commands _ _ _
  | _ => exact List.nodup_nil

theorem nodup_referenceSites (position : Position) (value : Value) :
    ((referenceSites commands i position value).map Prod.fst).Nodup := by
  cases value with
  | reference name =>
    rw [referenceSites]
    split
    · exact List.nodup_nil
    · exact nodup_nameSites commands _ _ _
  | _ => exact List.nodup_nil

theorem nodup_callSites (position : Position) (c : Call) :
    ((callSites commands i position c).map Prod.fst).Nodup := by
  unfold callSites
  cases lastInit? commands c.syscall with
  | none => simp
  | some last =>
    rw [List.map_append, List.map_flatMap]
    apply List.Nodup.append
    · unfold argumentCountSites
      split <;> simp
    · apply nodup_flatMap_zipIdx _ (fun s => match s with | .argument _ k => k | _ => 0)
      · exact fun x => nodup_operandSites commands _ _ _ _
      · intro x s hs
        obtain ⟨⟨s, f⟩, hsf, rfl⟩ := List.mem_map.1 hs
        obtain ⟨name, -, -, rfl, -⟩ := mem_operandSites.1 hsf
        rfl
    · intro s hs hs'
      obtain ⟨⟨s, f⟩, hsf, rfl⟩ := List.mem_map.1 hs
      obtain ⟨-, rfl, -⟩ := mem_argumentCountSites.1 hsf
      obtain ⟨x, -, hx⟩ := List.mem_flatMap.1 hs'
      obtain ⟨⟨s, g⟩, hsg, heq⟩ := List.mem_map.1 hx
      obtain ⟨name, -, -, rfl, -⟩ := mem_operandSites.1 hsg
      cases heq

theorem nodup_usageSites (p : Placed) : ((usageSites commands i p).map Prod.fst).Nodup := by
  obtain ⟨position, c⟩ := p
  cases c with
  | assign a =>
    rw [usageSites, List.map_append]
    refine (nodup_targetSites commands i position a.target).append
      (nodup_referenceSites commands i position a.value) ?_
    intro s hs hs'
    obtain ⟨⟨s, f⟩, hsf, rfl⟩ := List.mem_map.1 hs
    obtain ⟨⟨s', f'⟩, hsf', rfl⟩ := List.mem_map.1 hs'
    obtain ⟨name, -, -, rfl, -⟩ := mem_targetSites.1 hsf
    obtain ⟨name', -, -, -, h, -⟩ := mem_referenceSites.1 hsf'
    cases h
  | move m =>
    rw [usageSites, List.map_append]
    refine (nodup_operandSites commands _ _ _ _).append (nodup_operandSites commands _ _ _ _) ?_
    intro s hs hs'
    obtain ⟨⟨s, f⟩, hsf, rfl⟩ := List.mem_map.1 hs
    obtain ⟨⟨s', f'⟩, hsf', rfl⟩ := List.mem_map.1 hs'
    obtain ⟨name, -, -, rfl, -⟩ := mem_operandSites.1 hsf
    obtain ⟨name', -, -, h, -⟩ := mem_operandSites.1 hsf'
    cases h
  | call c => exact nodup_callSites commands i position c
  | _ => exact List.nodup_nil

/-- The site of a violation by an operation is no redeclaration, and it tells the command. -/
theorem command_of_mem_usageSites {p : Placed} {s : ErrorSite}
    (h : s ∈ (usageSites commands i p).map Prod.fst) :
    s.command = i ∧ s ≠ .redeclaration i := by
  obtain ⟨⟨s, f⟩, hsf, rfl⟩ := List.mem_map.1 h
  obtain ⟨position, c⟩ := p
  cases c with
  | assign a =>
    rcases List.mem_append.1 hsf with h | h
    · obtain ⟨name, -, -, rfl, -⟩ := mem_targetSites.1 h
      exact ⟨rfl, nofun⟩
    · obtain ⟨name, -, -, -, rfl, -⟩ := mem_referenceSites.1 h
      exact ⟨rfl, nofun⟩
  | move m =>
    rcases List.mem_append.1 hsf with h | h
    · obtain ⟨name, -, -, rfl, -⟩ := mem_operandSites.1 h
      exact ⟨rfl, nofun⟩
    · obtain ⟨name, -, -, rfl, -⟩ := mem_operandSites.1 h
      exact ⟨rfl, nofun⟩
  | call c =>
    rcases mem_callSites.1 hsf with ⟨-, rfl, -⟩ | ⟨last, -, ⟨-, rfl, -⟩ | ⟨k, name, -, -, rfl, -⟩⟩
    · exact ⟨rfl, nofun⟩
    · exact ⟨rfl, nofun⟩
    · exact ⟨rfl, nofun⟩
  | _ => cases hsf

theorem nodup_errorSites : ((errorSites commands).map Prod.fst).Nodup := by
  have hredeclaration (before : List Placed) (i : Nat) (p : Placed) :
      ∀ s ∈ (redeclarationSites before i p).map Prod.fst, s = .redeclaration i := by
    intro s hs
    obtain ⟨⟨s, f⟩, hsf, rfl⟩ := List.mem_map.1 hs
    obtain ⟨name, -, -, rfl, -⟩ := mem_redeclarationSites.1 hsf
    rfl
  rw [errorSites, List.map_append, List.map_flatMap, List.map_flatMap]
  apply List.Nodup.append
  · apply nodup_flatMap_zipIdx _ ErrorSite.command
    · intro ⟨p, i⟩
      dsimp only
      unfold redeclarationSites
      cases redeclaration? (commands.take i) p <;> simp
    · intro x s hs
      rw [hredeclaration _ _ _ s hs]
      rfl
  · apply nodup_flatMap_zipIdx _ ErrorSite.command
    · exact fun x => nodup_usageSites commands x.2 x.1
    · exact fun x s hs => (command_of_mem_usageSites commands x.2 hs).1
  · intro s hs hs'
    obtain ⟨x, -, hx⟩ := List.mem_flatMap.1 hs
    obtain ⟨y, -, hy⟩ := List.mem_flatMap.1 hs'
    obtain ⟨hcommand, hne⟩ := command_of_mem_usageSites commands y.2 hy
    have hsite := hredeclaration _ _ _ s hx
    subst hsite
    rw [← hcommand] at hne
    exact hne rfl

end Distinct

section Findings

def errorsAt (position : Position) (causes : List Cause) : List Finding :=
  (causes.map fun cause => ⟨position, cause⟩).filter Finding.isError

theorem errorsAt_append (position : Position) (causes causes' : List Cause) :
    errorsAt position (causes ++ causes') =
      errorsAt position causes ++ errorsAt position causes' := by
  simp [errorsAt]

variable {t : Tables} {commands : List Placed} (h : t.Record commands) (i : Nat)
  (position : Position)

include h

theorem errorsAt_name (site : ErrorSite) (name : String) {cause : Cause}
    (hcause : cause.severity = .error) :
    errorsAt position (if t.declares name then [] else [cause]) =
      (nameSites commands site name ⟨position, cause⟩).map Prod.snd := by
  have hdeclares : t.declares name = true ↔ Declares commands name := h.contains_iff name
  unfold nameSites
  by_cases hd : Declares commands name
  · rw [if_pos hd, if_pos (hdeclares.2 hd)]
    rfl
  · rw [if_neg hd, if_neg (fun hc => hd (hdeclares.1 hc))]
    simp [errorsAt, Finding.isError, hcause]

theorem errorsAt_targetCauses (target : Target) :
    errorsAt position (t.targetCauses target) =
      (targetSites commands i position target).map Prod.snd := by
  cases target with
  | name name => exact errorsAt_name h position _ name rfl
  | _ => rfl

/-- An unallocated cell is not an error. -/
theorem errorsAt_referenceCauses (value : Value) :
    errorsAt position (t.referenceCauses value) =
      (referenceSites commands i position value).map Prod.snd := by
  cases value with
  | reference name =>
    rw [referenceSites, Tables.referenceCauses]
    simp only [Value.reference?]
    by_cases hs : Cell.isShaped name.toList = true
    · rw [if_pos hs, if_pos hs]
      split <;> rfl
    · rw [if_neg hs, if_neg hs]
      exact errorsAt_name h position _ name rfl
  | _ => rfl

theorem errorsAt_operandCauses (site : ErrorSite) (operand : Operand) :
    errorsAt position (t.operandCauses operand) =
      (operandSites commands site position .undefinedOperand operand).map Prod.snd := by
  cases operand with
  | name name => exact errorsAt_name h position _ name rfl
  | cell c => rfl

theorem errorsAt_argumentCauses (site : ErrorSite) (argument : Operand) :
    errorsAt position (t.argumentCauses argument) =
      (operandSites commands site position .undefinedArgument argument).map Prod.snd := by
  cases argument with
  | name name => exact errorsAt_name h position _ name rfl
  | cell c => rfl

/-- The arguments of a call are checked one by one, from the argument with number `k` on. -/
theorem errorsAt_arguments (arguments : List Operand) (k : Nat) :
    errorsAt position (arguments.flatMap t.argumentCauses) =
      ((arguments.zipIdx k).flatMap fun (argument, k) =>
        operandSites commands (.argument i k) position .undefinedArgument argument).map
          Prod.snd := by
  induction arguments generalizing k with
  | nil => rfl
  | cons argument rest ih =>
    rw [List.flatMap_cons, errorsAt_append, ih (k + 1),
      errorsAt_argumentCauses h position (.argument i k)]
    simp

theorem errorsAt_callCauses (c : Call) :
    errorsAt position (t.callCauses c) = (callSites commands i position c).map Prod.snd := by
  rw [Tables.callCauses, callSites, h.syscalls]
  cases lastInit? commands c.syscall with
  | none => rfl
  | some last =>
    simp only []
    rw [errorsAt_append, errorsAt_arguments h i, List.map_append, argumentCountSites]
    congr 1
    split <;> rfl

theorem filter_isError_findings (p : Placed) :
    (t.findings p).filter Finding.isError = (usageSites commands i p).map Prod.snd := by
  obtain ⟨position, c⟩ := p
  change errorsAt position (t.causes c) = _
  cases c with
  | assign a =>
    rw [usageSites, List.map_append, ← errorsAt_targetCauses h, ← errorsAt_referenceCauses h,
      ← errorsAt_append]
    rfl
  | move m =>
    rw [usageSites, List.map_append, ← errorsAt_operandCauses h, ← errorsAt_operandCauses h,
      ← errorsAt_append]
    rfl
  | call c => exact errorsAt_callCauses h i position c
  | _ => rfl

end Findings

namespace Analysis

theorem flatMap_zipIdx_fst {α β : Type} (f : α → List β) (xs : List α) :
    (xs.zipIdx.flatMap fun x => f x.1) = xs.flatMap f := by
  rw [← List.flatMap_map (f := Prod.fst), List.zipIdx_map_fst]

theorem findings_ofCommands (commands : List Placed) :
    (ofCommands commands).findings = redeclarations commands ++
      (commands.flatMap (Tables.ofCommands commands).findings ++
        (ofCommands commands).cells.shared.map sharedFinding) := by
  rw [← (Tables.record_ofCommands commands).redeclarations, ← List.append_assoc]
  rfl

theorem cause_of_mem_redeclarations {commands : List Placed} {f : Finding}
    (h : f ∈ redeclarations commands) : ∃ name, f.cause = .redeclared name := by
  obtain ⟨p, i, -, hmem⟩ := mem_inProgramOrder.1 h
  obtain ⟨name, -, -, rfl⟩ := redeclaration?_eq_some.1 (Option.mem_toList.1 hmem)
  exact ⟨name, rfl⟩

/-- All redeclarations are errors, and shared cells are none. -/
theorem filter_isError_findings_ofCommands (commands : List Placed) :
    (ofCommands commands).findings.filter Finding.isError = redeclarations commands ++
      (commands.flatMap (Tables.ofCommands commands).findings).filter Finding.isError := by
  have hredeclarations : (redeclarations commands).filter Finding.isError =
      redeclarations commands := by
    refine List.filter_eq_self.2 fun f hf => ?_
    obtain ⟨name, hcause⟩ := cause_of_mem_redeclarations hf
    rw [Finding.isError, hcause]
    rfl
  have hshared (shared : List Shared) :
      (shared.map sharedFinding).filter Finding.isError = [] := by
    simp [List.filter_eq_nil_iff, sharedFinding, Finding.isError, Cause.severity]
  rw [findings_ofCommands, List.filter_append, List.filter_append, hredeclarations, hshared,
    List.append_nil]

/-- The errors of the analysis are one for each error site. -/
theorem filter_isError_ofCommands (commands : List Placed) :
    (ofCommands commands).findings.filter Finding.isError =
      (errorSites commands).map Prod.snd := by
  have hrecord := Tables.record_ofCommands commands
  have hredeclarations : redeclarations commands =
      (commands.zipIdx.flatMap fun (p, i) =>
        redeclarationSites (commands.take i) i p).map Prod.snd := by
    rw [redeclarations, inProgramOrder, List.map_flatMap]
    apply List.flatMap_congr
    rintro ⟨p, i⟩ -
    dsimp only
    rw [redeclarationSites, List.map_map, redeclaration?]
    cases p.command.declaredName? with
    | none => rfl
    | some name => by_cases hold : Declares (commands.take i) name <;> simp [hold]
  have husages : (commands.flatMap (Tables.ofCommands commands).findings).filter
      Finding.isError = (commands.zipIdx.flatMap fun (p, i) =>
        usageSites commands i p).map Prod.snd := by
    rw [← flatMap_zipIdx_fst, List.filter_flatMap, List.map_flatMap]
    apply List.flatMap_congr
    intro x _
    exact filter_isError_findings hrecord x.2 x.1
  rw [filter_isError_findings_ofCommands, husages, hredeclarations, errorSites, List.map_append]

/-- The errors that the analysis reports are in one-to-one correspondence with the error sites of
the program: every site has one error, and no two errors have the same site. So there is an error
just if there is a violation. -/
theorem errors_iff_violations (p : Program) :
    (∃ sites : List (ErrorSite × Finding),
      (sites.map Prod.fst).Nodup ∧
      (∀ s f, (s, f) ∈ sites ↔ Violates p.flatten s f) ∧
      (ofProgram p).diagnostics.filter Diagnostic.isError =
        sites.map fun site => site.2.diagnostic) ∧
    (hasError (ofProgram p).diagnostics = true ↔ ∃ s f, Violates p.flatten s f) := by
  have herrors : (ofProgram p).diagnostics.filter Diagnostic.isError =
      (errorSites p.flatten).map fun site => site.2.diagnostic := by
    rw [diagnostics, List.filter_map]
    change ((ofCommands p.flatten).findings.filter Finding.isError).map Finding.diagnostic = _
    rw [filter_isError_ofCommands, List.map_map]
    rfl
  refine ⟨⟨errorSites p.flatten, nodup_errorSites p.flatten, fun s f => mem_errorSites_iff,
    herrors⟩, ?_⟩
  have hmem : hasError (ofProgram p).diagnostics = true ↔
      ∃ d, d ∈ (ofProgram p).diagnostics.filter Diagnostic.isError := by
    simp only [hasError, List.any_eq_true, List.mem_filter]
  rw [hmem, herrors]
  constructor
  · rintro ⟨d, hd⟩
    obtain ⟨⟨s, f⟩, hsite, -⟩ := List.mem_map.1 hd
    exact ⟨s, f, mem_errorSites_iff.1 hsite⟩
  · rintro ⟨s, f, hviolates⟩
    exact ⟨f.diagnostic, List.mem_map.2 ⟨(s, f), mem_errorSites_iff.2 hviolates, rfl⟩⟩

end Analysis

end CellCheck
