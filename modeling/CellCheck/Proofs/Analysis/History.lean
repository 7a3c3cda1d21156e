import CellCheck.Proofs.Analysis.Allocation
import CellCheck.Proofs.Cell.List
import CellCheck.Proofs.CellMap.Operations

/-!
# The history of a cell

The events on a cell are its claims in order, and then its uses in program order. A use is read off
a command, the last `INIT` of a syscall and the first declaration of a name anywhere in the program.
-/

namespace CellCheck

def Placed.declarationOf? (name : String) (p : Placed) : Option Declaration :=
  (Declaration.ofCommand? p.position p.command).filter fun d => d.name = name

def firstDeclarationOf? (commands : List Placed) (name : String) : Option Declaration :=
  (commands.filterMap (Placed.declarationOf? name)).head?

def targetUses (c : Cell) (use : Event) : Target → List Event
  | .cell d => if d = c then [use] else []
  | .range r => if r.first.toNat ≤ c.toNat ∧ c.toNat ≤ r.last.toNat then [use] else []
  | .name _ => []

def operandUses (c : Cell) (use : Event) (operand : Operand) : List Event :=
  if operand = .cell c then [use] else []

/-- A name uses a cell as often as its first declaration lists the cell. -/
def argumentUses (commands : List Placed) (c : Cell) (use : Event) : Operand → List Event
  | .cell d => if d = c then [use] else []
  | .name name =>
    match firstDeclarationOf? commands name with
    | some d => List.replicate (d.cells.count c) use
    | none => []

/-- A call of a syscall without an `INIT` uses nothing; otherwise every argument counts. -/
def callUses (commands : List Placed) (c : Cell) (line : Nat) (call : Call) : List Event :=
  match lastInit? commands call.syscall with
  | some _ =>
    call.arguments.flatMap (argumentUses commands c ⟨call.syscall ++ "_arg", line, .usage⟩)
  | none => []

def usesOf (commands : List Placed) (c : Cell) (p : Placed) : List Event :=
  let line := p.position.line
  match p.command with
  | .assign a => targetUses c ⟨"SET_operation", line, .usage⟩ a.target
  | .move m =>
    operandUses c ⟨"MOV_source", line, .usage⟩ m.source ++
      operandUses c ⟨"MOV_target", line, .usage⟩ m.destination
  | .call call => callUses commands c line call
  | _ => []

section FirstDeclaration

theorem firstDeclarationOf?_snoc (commands : List Placed) (p : Placed) (name : String) :
    firstDeclarationOf? (commands ++ [p]) name =
      (firstDeclarationOf? commands name).or (p.declarationOf? name) := by
  unfold firstDeclarationOf?
  rw [List.filterMap_append, List.head?_append]
  cases h : p.declarationOf? name <;> simp [h]

/-- Among the first declarations of all names, one is that of the given name. -/
theorem find?_firstDeclarations (commands : List Placed) (name : String) :
    (firstDeclarations commands).find? (fun d => d.name = name) =
      firstDeclarationOf? commands name := by
  induction commands using List.reverseRecOn with
  | nil => rfl
  | append_singleton commands p ih =>
    rw [firstDeclarations_snoc, List.find?_append, firstDeclarationOf?_snoc, ← ih]
    cases hfound : (firstDeclarations commands).find? fun d => d.name = name with
    | some d => rfl
    | none =>
      have hnew : ¬ Declares commands name := by
        rw [declares_iff_mem_firstDeclarations]
        simpa using hfound
      rw [Option.none_or, Option.none_or, firstDeclaration?_eq, Placed.declarationOf?]
      cases Declaration.ofCommand? p.position p.command with
      | none => rfl
      | some d =>
        by_cases hd : d.name = name
        · subst hd
          simp [Option.filter, hnew]
        · by_cases hold : Declares commands d.name <;> simp [Option.filter, hold, hd]

theorem Tables.Record.get?_symbols {t : Tables} {commands : List Placed} (h : t.Record commands)
    (name : String) : t.symbols.get? name = firstDeclarationOf? commands name := by
  rw [NameTable.get?, h.symbols, List.find?_map, Option.map_map, ← find?_firstDeclarations]
  exact Option.map_id'

end FirstDeclaration

section Claims

namespace CellMap

/-- Nothing but claims has happened to the cells. -/
def Untouched (m : CellMap) : Prop := ∀ c, m.history c = (m.claimsOn c).map Claim.event

theorem untouched_empty : Untouched empty := by
  intro c
  rw [history_empty, claimsOn_empty, List.map_nil]

theorem Untouched.allocate {m : CellMap} (h : m.Untouched) (c : Cell) (claim : Claim) :
    (m.allocate c claim).Untouched := by
  intro d
  rw [history_allocate, claimsOn_allocate, h d]
  by_cases hd : c = d
  · rw [if_pos hd, if_pos hd, List.map_append]
    rfl
  · rw [if_neg hd, if_neg hd]

end CellMap

namespace Tables

/-- Declarations touch no cell. -/
theorem untouched_ofCommands (commands : List Placed) : (ofCommands commands).cells.Untouched :=
  cells_ofCommands_induction CellMap.untouched_empty (fun _ c claim h => h.allocate c claim)
    commands

end Tables

end Claims

section Touches

def Touch.event (touch : Touch) : Event := ⟨touch.tag, touch.line, .usage⟩

def eventsOn (c : Cell) (touches : List Touch) : List Event :=
  (touches.filter fun touch => touch.cell = c).map Touch.event

theorem eventsOn_append (c : Cell) (touches touches' : List Touch) :
    eventsOn c (touches ++ touches') = eventsOn c touches ++ eventsOn c touches' := by
  rw [eventsOn, List.filter_append, List.map_append]
  rfl

theorem eventsOn_flatMap {α : Type} (c : Cell) (touches : α → List Touch) (items : List α) :
    eventsOn c (items.flatMap touches) = items.flatMap fun a => eventsOn c (touches a) := by
  rw [eventsOn, List.filter_flatMap, List.map_flatMap]
  rfl

/-- Touched under the same tag, a list of cells makes as many events on a cell as it lists it. -/
theorem eventsOn_map (c : Cell) (cells : List Cell) (tag : String) (line : Nat) :
    eventsOn c (cells.map fun cell => ⟨cell, tag, line⟩) =
      List.replicate (cells.count c) ⟨tag, line, .usage⟩ := by
  induction cells with
  | nil => rfl
  | cons d rest ih =>
    rw [List.map_cons, ← List.singleton_append, eventsOn_append, ih]
    by_cases h : d = c
    · subst h
      rw [List.count_cons_self, List.replicate_succ]
      simp [eventsOn, Touch.event]
    · rw [List.count_cons_of_ne h]
      simp [eventsOn, h]

theorem history_recordTouches (cells : CellMap) (touches : List Touch) (c : Cell) :
    (Analysis.recordTouches cells touches).history c = cells.history c ++ eventsOn c touches := by
  induction touches generalizing cells with
  | nil => exact (List.append_nil _).symm
  | cons touch rest ih =>
    have hrest := ih (cells.touch touch.cell touch.tag touch.line)
    rw [CellMap.history_touch] at hrest
    refine hrest.trans ?_
    by_cases h : touch.cell = c
    · rw [if_pos h, List.append_assoc]
      simp [eventsOn, Touch.event, h]
    · rw [if_neg h]
      simp [eventsOn, h]

theorem history_foldl_recordTouches (touches : Placed → List Touch) (commands : List Placed)
    (cells : CellMap) (c : Cell) :
    (commands.foldl (fun cells p => Analysis.recordTouches cells (touches p)) cells).history c =
      cells.history c ++ commands.flatMap fun p => eventsOn c (touches p) := by
  induction commands generalizing cells with
  | nil => exact (List.append_nil _).symm
  | cons p rest ih =>
    rw [List.foldl_cons, ih, history_recordTouches, List.flatMap_cons, List.append_assoc]

end Touches

section Uses

variable (c : Cell) (tag : String) (line : Nat)

theorem eventsOn_target (target : Target) :
    eventsOn c (target.cells.map fun cell => ⟨cell, tag, line⟩) =
      targetUses c ⟨tag, line, .usage⟩ target := by
  rw [eventsOn_map]
  cases target with
  | cell d => by_cases h : d = c <;> simp [Target.cells, targetUses, h]
  | range r =>
    rw [Target.cells, r.nodup_cells.count, targetUses]
    simp only [CellRange.mem_cells_iff]
    split <;> rfl
  | name n => rfl

theorem eventsOn_operand (operand : Operand) :
    eventsOn c (Tables.operandTouches operand tag line) =
      operandUses c ⟨tag, line, .usage⟩ operand := by
  cases operand with
  | cell d => by_cases h : d = c <;> simp [Tables.operandTouches, operandUses, eventsOn,
      Touch.event, h]
  | name n => rfl

variable {t : Tables} {commands : List Placed} (h : t.Record commands)

include h

theorem eventsOn_argument (argument : Operand) :
    eventsOn c ((t.argumentCells argument).map fun cell => ⟨cell, tag, line⟩) =
      argumentUses commands c ⟨tag, line, .usage⟩ argument := by
  rw [eventsOn_map]
  cases argument with
  | cell d => by_cases hd : d = c <;> simp [Tables.argumentCells, argumentUses, hd]
  | name n =>
    rw [Tables.argumentCells, argumentUses, h.get?_symbols]
    cases firstDeclarationOf? commands n with
    | some d => rfl
    | none => rfl

theorem eventsOn_call (call : Call) :
    eventsOn c (t.callTouches call line) = callUses commands c line call := by
  rw [Tables.callTouches, callUses, h.syscalls]
  cases lastInit? commands call.syscall with
  | none => rfl
  | some last =>
    dsimp only
    rw [List.map_flatMap, eventsOn_flatMap]
    exact List.flatMap_congr fun argument _ => eventsOn_argument c _ line h argument

theorem eventsOn_touches (p : Placed) : eventsOn c (t.touches p) = usesOf commands c p := by
  obtain ⟨position, command⟩ := p
  cases command with
  | assign a => exact eventsOn_target c _ _ a.target
  | move m =>
    rw [Tables.touches, eventsOn_append, eventsOn_operand, eventsOn_operand]
    rfl
  | call call => exact eventsOn_call c _ h call
  | init i => rfl
  | param q => rfl
  | var v => rfl

end Uses

namespace Analysis

theorem history_ofCommands (commands : List Placed) (c : Cell) :
    (ofCommands commands).cells.history c =
      (claimsIn commands c).map Claim.event ++ commands.flatMap (usesOf commands c) := by
  have hrecord := Tables.record_ofCommands commands
  have huses : (fun q => eventsOn c ((Tables.ofCommands commands).touches q)) =
      usesOf commands c := by
    funext q
    exact eventsOn_touches c hrecord q
  rw [← hrecord.claims c, ← Tables.untouched_ofCommands commands c, ← huses]
  exact history_foldl_recordTouches _ _ _ c

/-- The history of a cell has an event for each claim on it, in the order of the claims, and then
one for each use, in program order. -/
theorem history_ofProgram (p : Program) (c : Cell) :
    (ofProgram p).cells.history c =
      ((ofProgram p).cells.claimsOn c).map Claim.event ++
        p.flatten.flatMap (usesOf p.flatten c) := by
  rw [ofProgram, claimsOn_ofCommands]
  exact history_ofCommands p.flatten c

end Analysis

end CellCheck
