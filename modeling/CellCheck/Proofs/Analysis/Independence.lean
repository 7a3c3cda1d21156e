import CellCheck.Proofs.Analysis.Allocation
import Mathlib.Data.List.Forall2

/-!
# Declarations and operations

The analysis goes through the declarations of a program and through its operations apart from each
other. It does not matter how the two are mixed, which of them stand in loops, or what values the
declarations give.
-/

namespace CellCheck

def Placed.isDeclaration (p : Placed) : Bool :=
  match p.command with
  | .init _ | .param _ | .var _ => true
  | .assign _ | .move _ | .call _ => false

def declarationsIn (commands : List Placed) : List Placed := commands.filter Placed.isDeclaration

def operationsIn (commands : List Placed) : List Placed := commands.filter (!·.isDeclaration)

/-- The commands differ at most in initial values, in sizes, and in assigned values that refer to
the same target or to none. -/
inductive Command.Corresponds : Command → Command → Prop
  | init (i : SyscallInit) : Corresponds (.init i) (.init i)
  | param {name : String} {cells : List Cell} {kind : DataKind} {size size' : Option Nat}
      {value value' : Option Value} :
      Corresponds (.param ⟨name, cells, kind, size, value⟩)
        (.param ⟨name, cells, kind, size', value'⟩)
  | var {name : String} {cells : List Cell} {value value' : Value} :
      Corresponds (.var ⟨name, cells, value⟩) (.var ⟨name, cells, value'⟩)
  | assign {target : Target} {value value' : Value}
      (hreference : value.reference? = value'.reference?) :
      Corresponds (.assign ⟨target, value⟩) (.assign ⟨target, value'⟩)
  | move (m : Move) : Corresponds (.move m) (.move m)
  | call (c : Call) : Corresponds (.call c) (.call c)

structure Placed.Corresponds (p q : Placed) : Prop where
  position : p.position = q.position
  command : p.command.Corresponds q.command

namespace Tables

section Step

variable (t : Tables)

theorem add_of_operation {p : Placed} (h : p.isDeclaration = false) : t.add p = t := by
  obtain ⟨position, c⟩ := p
  cases c with
  | init i => cases h
  | param q => cases h
  | var v => cases h
  | assign a => rfl
  | move m => rfl
  | call c => rfl

theorem uses_of_declaration {p : Placed} (h : p.isDeclaration = true) :
    t.findings p = [] ∧ t.touches p = [] := by
  obtain ⟨position, c⟩ := p
  cases c with
  | init i => exact ⟨rfl, rfl⟩
  | param q => exact ⟨rfl, rfl⟩
  | var v => exact ⟨rfl, rfl⟩
  | assign a => cases h
  | move m => cases h
  | call c => cases h

variable {p q : Placed} (h : p.Corresponds q)

include h

theorem add_of_corresponds : t.add p = t.add q := by
  obtain ⟨position, c⟩ := p
  obtain ⟨position', c'⟩ := q
  obtain ⟨rfl, hcommand⟩ : position = position' ∧ c.Corresponds c' := ⟨h.position, h.command⟩
  cases hcommand <;> rfl

theorem uses_of_corresponds : t.findings p = t.findings q ∧ t.touches p = t.touches q := by
  obtain ⟨position, c⟩ := p
  obtain ⟨position', c'⟩ := q
  obtain ⟨rfl, hcommand⟩ : position = position' ∧ c.Corresponds c' := ⟨h.position, h.command⟩
  cases hcommand with
  | assign hreference =>
    refine ⟨?_, rfl⟩
    -- of the value, only what it refers to is looked at
    simp only [findings, causes, referenceCauses, hreference]
  | _ => exact ⟨rfl, rfl⟩

end Step

section Run

theorem ofCommands_declarationsIn (commands : List Placed) :
    ofCommands (declarationsIn commands) = ofCommands commands := by
  have hrun (t : Tables) : (declarationsIn commands).foldl add t = commands.foldl add t := by
    induction commands generalizing t with
    | nil => rfl
    | cons p rest ih =>
      rw [List.foldl_cons, ← ih, declarationsIn]
      by_cases hp : p.isDeclaration
      · rw [List.filter_cons_of_pos hp]
        rfl
      · rw [List.filter_cons_of_neg hp, add_of_operation t (Bool.eq_false_iff.2 hp)]
        rfl
  exact hrun empty

theorem ofCommands_of_corresponds {declarations declarations' : List Placed}
    (h : List.Forall₂ Placed.Corresponds declarations declarations') :
    ofCommands declarations = ofCommands declarations' := by
  have hrun (t : Tables) : declarations.foldl add t = declarations'.foldl add t := by
    induction h generalizing t with
    | nil => rfl
    | cons hp _ ih => rw [List.foldl_cons, List.foldl_cons, add_of_corresponds t hp, ih]
  exact hrun empty

variable (t : Tables)

def uses (cells : CellMap) (commands : List Placed) : List Finding × CellMap :=
  (commands.flatMap t.findings,
    commands.foldl (fun cells p => Analysis.recordTouches cells (t.touches p)) cells)

theorem uses_cons (cells : CellMap) (p : Placed) (rest : List Placed) :
    t.uses cells (p :: rest) =
      ((t.findings p ++ (t.uses (Analysis.recordTouches cells (t.touches p)) rest).1),
        (t.uses (Analysis.recordTouches cells (t.touches p)) rest).2) := rfl

theorem uses_operationsIn (cells : CellMap) (commands : List Placed) :
    t.uses cells (operationsIn commands) = t.uses cells commands := by
  induction commands generalizing cells with
  | nil => rfl
  | cons p rest ih =>
    rw [uses_cons, ← ih, operationsIn]
    by_cases hp : p.isDeclaration
    · obtain ⟨hfindings, htouches⟩ := t.uses_of_declaration hp
      rw [List.filter_cons_of_neg (by simpa using hp), hfindings, htouches]
      rfl
    · rw [List.filter_cons_of_pos (by simpa using hp)]
      rfl

theorem uses_of_forall₂ (cells : CellMap) {operations operations' : List Placed}
    (h : List.Forall₂ Placed.Corresponds operations operations') :
    t.uses cells operations = t.uses cells operations' := by
  induction h generalizing cells with
  | nil => rfl
  | cons hp _ ih =>
    obtain ⟨hfindings, htouches⟩ := t.uses_of_corresponds hp
    rw [uses_cons, uses_cons, hfindings, htouches, ih]

end Run

end Tables

namespace Analysis

/-- The analysis looks at the declarations, and in view of them at the operations. -/
theorem ofCommands_eq_of_uses {commands commands' : List Placed}
    (htables : Tables.ofCommands commands = Tables.ofCommands commands')
    (huses : (Tables.ofCommands commands).uses (Tables.ofCommands commands).cells commands =
      (Tables.ofCommands commands).uses (Tables.ofCommands commands).cells commands') :
    ofCommands commands = ofCommands commands' := by
  obtain ⟨hfindings, hcells⟩ := Prod.mk.inj huses
  unfold ofCommands
  dsimp only
  rw [hfindings, hcells, ← htables]

/-- All that the analysis finds out (tables, claims, histories and findings) stays the same however
declarations and operations are mixed, in whatever loops they stand, and with other initial values
and sizes. The claims follow from the declarations alone. -/
theorem ofProgram_eq_of_corresponds {p q : Program}
    (hdeclarations : List.Forall₂ Placed.Corresponds
      (declarationsIn p.flatten) (declarationsIn q.flatten)) :
    ((∀ c, (ofProgram p).cells.claimsOn c = (ofProgram q).cells.claimsOn c) ∧
      (ofProgram p).cells.snapshot = (ofProgram q).cells.snapshot ∧
      (ofProgram p).cells.shared = (ofProgram q).cells.shared) ∧
    (List.Forall₂ Placed.Corresponds (operationsIn p.flatten) (operationsIn q.flatten) →
      ofProgram p = ofProgram q) := by
  have htables : Tables.ofCommands p.flatten = Tables.ofCommands q.flatten := by
    rw [← Tables.ofCommands_declarationsIn, ← Tables.ofCommands_declarationsIn q.flatten]
    exact Tables.ofCommands_of_corresponds hdeclarations
  have hclaims : (ofProgram p).cells.claims = (ofProgram q).cells.claims := by
    rw [ofProgram, ofProgram, claims_ofCommands, claims_ofCommands, htables]
  constructor
  · refine ⟨fun c => ?_, ?_, ?_⟩
    · rw [CellMap.claimsOn, CellMap.claimsOn, hclaims]
    · rw [CellMap.snapshot, CellMap.snapshot, CellMap.claimed, CellMap.claimed, hclaims]
    · rw [CellMap.shared, CellMap.shared, CellMap.claimed, CellMap.claimed, hclaims]
  · intro hoperations
    apply ofCommands_eq_of_uses htables
    rw [← Tables.uses_operationsIn, ← Tables.uses_operationsIn _ _ q.flatten]
    exact Tables.uses_of_forall₂ _ _ hoperations

def mixed : Program where
  statements :=
    [.command ⟨0, 0⟩ (.var ⟨"a", [⟨1⟩], .int 1⟩),
      .loop ⟨1, 0⟩
        [.command ⟨2, 0⟩ (.assign ⟨.cell ⟨1⟩, .text "x"⟩),
          .command ⟨3, 0⟩ (.init ⟨"SYS_OUT", ⟨0⟩, 1⟩)],
      .command ⟨5, 0⟩ (.call ⟨"SYS_OUT", [.name "a", .name "b"]⟩),
      .command ⟨6, 0⟩ (.param ⟨"a", [⟨0⟩], .pointer, some 2, none⟩)]

def sorted : Program where
  statements :=
    [.loop ⟨9, 0⟩
        [.command ⟨2, 0⟩ (.assign ⟨.cell ⟨1⟩, .int 7⟩),
          .loop ⟨10, 0⟩ [.command ⟨5, 0⟩ (.call ⟨"SYS_OUT", [.name "a", .name "b"]⟩)]],
      .command ⟨0, 0⟩ (.var ⟨"a", [⟨1⟩], .raw "["⟩),
      .command ⟨3, 0⟩ (.init ⟨"SYS_OUT", ⟨0⟩, 1⟩),
      .command ⟨6, 0⟩ (.param ⟨"a", [⟨0⟩], .pointer, none, some (.int 3)⟩)]

theorem ofProgram_mixed_eq_sorted :
    List.Forall₂ Placed.Corresponds (declarationsIn mixed.flatten)
      (declarationsIn sorted.flatten) ∧
    List.Forall₂ Placed.Corresponds (operationsIn mixed.flatten) (operationsIn sorted.flatten) ∧
    ((∀ c, (ofProgram mixed).cells.claimsOn c = (ofProgram sorted).cells.claimsOn c) ∧
      (ofProgram mixed).cells.snapshot = (ofProgram sorted).cells.snapshot ∧
      (ofProgram mixed).cells.shared = (ofProgram sorted).cells.shared) ∧
    ofProgram mixed = ofProgram sorted := by
  have hdeclarations : List.Forall₂ Placed.Corresponds (declarationsIn mixed.flatten)
      (declarationsIn sorted.flatten) :=
    .cons ⟨rfl, .var⟩ (.cons ⟨rfl, .init _⟩ (.cons ⟨rfl, .param⟩ .nil))
  have hoperations : List.Forall₂ Placed.Corresponds (operationsIn mixed.flatten)
      (operationsIn sorted.flatten) :=
    .cons ⟨rfl, .assign rfl⟩ (.cons ⟨rfl, .call _⟩ .nil)
  obtain ⟨hclaims, hall⟩ := ofProgram_eq_of_corresponds hdeclarations
  exact ⟨hdeclarations, hoperations, hclaims, hall hoperations⟩

end Analysis

end CellCheck
