import CellCheck.Proofs.Analysis.Declared
import CellCheck.Proofs.Program.RoundTrip
import CellCheck.Proofs.Statement.Names

/-!
# What a declared name stands for

A declaration may have any word for its name, while in an operation a word that is shaped like a
cell is the cell. So a declared name stands for its declaration unless it has that shape. If it
has, no operation of the program can reach the declaration, whatever else is declared.
-/

namespace CellCheck

def Command.addressedNames : Command → List String
  | assign a => a.target.name?.toList
  | move m => m.source.name?.toList ++ m.destination.name?.toList
  | call c => c.arguments.filterMap Operand.name?
  | _ => []

namespace Tables

/-- The spelling of a declared name is the name of the declaration in every place that it can be
written in, and no such use is an error or depends on a cell. -/
structure Addressable (t : Tables) (d : Declaration) : Prop where
  symbol : t.symbols.get? d.name = some d
  target : Line.readTarget d.name.toList = .ok (.name d.name)
  targetCauses : t.targetCauses (.name d.name) = []
  operand : Line.readOperand? d.name.toList = some (.name d.name)
  operandCauses : t.operandCauses (.name d.name) = []
  argumentCauses : t.argumentCauses (.name d.name) = []
  argumentCells : t.argumentCells (.name d.name) = d.cells
  referenceCauses (cells : CellMap) :
    { t with cells }.referenceCauses (Value.ofText ('&' :: d.name.toList)) = []

/-- The spelling of a declared name is a cell, or nothing if the number is too large, and no
declaration makes a difference to a reference to it. -/
structure Shadowed (t : Tables) (d : Declaration) : Prop where
  symbol : t.symbols.get? d.name = some d
  target : Line.readTarget d.name.toList =
    Line.orError .invalidAssign ((Cell.ofText? d.name.toList).map .cell)
  operand : Line.readOperand? d.name.toList = (Cell.ofText? d.name.toList).map .cell
  referenceCauses (symbols : NameTable Declaration) :
    { t with symbols }.referenceCauses (Value.ofText ('&' :: d.name.toList)) =
      if t.isAllocatedToken d.name.toList then [] else [.unallocatedReference d.name]

end Tables

section Spelling

variable {name : String}

theorem Value.ofText_reference (h : Text.isWord name.toList) :
    ofText ('&' :: name.toList) = .reference name :=
  (Origin.reference h).ofText_toText (Text.tight_of_isWord h)

namespace Line

/-- As a target, a word that is shaped like a cell is the cell or nothing. -/
theorem readTarget_of_isShaped (hword : Text.isWord name.toList)
    (hshape : Cell.isShaped name.toList = true) :
    readTarget name.toList =
      orError .invalidAssign ((Cell.ofText? name.toList).map .cell) := by
  rw [readTarget, Text.hasPart_dots_of_isWord hword, hshape]
  cases Cell.ofText? name.toList <;> rfl

theorem readOperand?_of_isShaped (hword : Text.isWord name.toList)
    (hshape : Cell.isShaped name.toList = true) :
    readOperand? name.toList = (Cell.ofText? name.toList).map .cell := by
  rw [readOperand?, Operand.classify, hword, hshape]
  cases Cell.ofText? name.toList <;> rfl

end Line

theorem Operand.isName_of_name? {o : Operand} (h : o.WellFormed) (hname : o.name? = some name) :
    IsName name := by
  cases o with
  | cell c => cases hname
  | name n => exact Option.some.inj hname ▸ h

theorem Target.isName_of_name? {t : Target} (h : t.WellFormed) (hname : t.name? = some name) :
    IsName name := by
  cases t with
  | name n => exact Option.some.inj hname ▸ h
  | _ => cases hname

/-- A command that was read addresses no name that is shaped like a cell. -/
theorem Command.isName_of_mem_addressedNames {c : Command} (h : c.WellFormed)
    (hname : name ∈ c.addressedNames) : IsName name := by
  cases c with
  | assign a => exact Target.isName_of_name? h.1 (Option.mem_toList.1 hname)
  | move m =>
    rcases List.mem_append.1 hname with hsource | hdestination
    · exact Operand.isName_of_name? h.1 (Option.mem_toList.1 hsource)
    · exact Operand.isName_of_name? h.2 (Option.mem_toList.1 hdestination)
  | call c =>
    obtain ⟨argument, hargument, hsome⟩ := List.mem_filterMap.1 hname
    exact Operand.isName_of_name? (h.2 argument hargument) hsome
  | _ => cases hname

/-- Declarations that were read are named by words. -/
theorem Declaration.isWord_of_ofCommand? {position : Position} {c : Command} {d : Declaration}
    (h : c.WellFormed) (hd : ofCommand? position c = some d) : Text.isWord d.name.toList := by
  cases c with
  | param p =>
    obtain rfl := Option.some.inj hd
    exact h.name
  | var v =>
    obtain rfl := Option.some.inj hd
    exact h.name
  | _ => cases hd

end Spelling

namespace Tables

variable {t : Tables} {d : Declaration}

/-- A spelling is not both. -/
theorem Addressable.not_shadowed (h : t.Addressable d) : ¬ t.Shadowed d := by
  intro hshadowed
  have hoperand := h.operand.symm.trans hshadowed.operand
  obtain ⟨c, -, hc⟩ := Option.map_eq_some_iff.1 hoperand.symm
  cases hc

variable (hsymbol : t.symbols.get? d.name = some d) (hword : Text.isWord d.name.toList)

include hsymbol hword

theorem addressable_of_isShaped_eq_false (hshape : Cell.isShaped d.name.toList = false) :
    t.Addressable d := by
  have hname : IsName d.name := ⟨hword, hshape⟩
  have hdeclares : t.declares d.name = true := by
    rw [declares, NameTable.contains_iff, NameTable.mem_names_iff]
    exact ⟨(d.name, d), (NameTable.get?_eq_some_iff _ _ _).1 hsymbol, rfl⟩
  exact {
    symbol := hsymbol
    target := Line.readTarget_eq_ok_iff.2 ⟨rfl, hname⟩
    targetCauses := if_pos hdeclares
    operand := Line.readOperand?_eq_some_iff.2 ⟨rfl, hname⟩
    operandCauses := if_pos hdeclares
    argumentCauses := if_pos hdeclares
    argumentCells := by rw [argumentCells, hsymbol]
    referenceCauses cells := by
      rw [Value.ofText_reference hword]
      simp only [referenceCauses, Value.reference?, hshape, Bool.false_eq_true, if_false]
      exact if_pos hdeclares }

theorem shadowed_of_isShaped (hshape : Cell.isShaped d.name.toList = true) : t.Shadowed d where
  symbol := hsymbol
  target := Line.readTarget_of_isShaped hword hshape
  operand := Line.readOperand?_of_isShaped hword hshape
  referenceCauses symbols := by
    rw [Value.ofText_reference hword]
    simp only [referenceCauses, Value.reference?, hshape, if_true]
    rfl

end Tables

namespace Analysis

theorem exists_mem_of_mem_firstDeclarations {commands : List Placed} {d : Declaration}
    (h : d ∈ firstDeclarations commands) :
    ∃ p ∈ commands, Declaration.ofCommand? p.position p.command = some d := by
  obtain ⟨p, i, hp, hd⟩ := mem_inProgramOrder.1 h
  rw [Option.mem_toList, firstDeclaration?_eq] at hd
  exact ⟨p, List.mem_of_getElem? hp, (Option.filter_eq_some_iff.1 hd).1⟩

theorem isWord_of_mem_values {source : Text} {p : Program} (h : Program.ofText source = .ok p)
    {d : Declaration} (hd : d ∈ (ofProgram p).symbols.values) : Text.isWord d.name.toList := by
  have hfirst : d ∈ firstDeclarations p.flatten := (Tables.record_ofCommands p.flatten).values ▸ hd
  obtain ⟨placed, hplaced, hcommand⟩ := exists_mem_of_mem_firstDeclarations hfirst
  exact Declaration.isWord_of_ofCommand? (Program.wellFormed_of_mem_flatten h hplaced) hcommand

def oneParameter (name : String) : Program :=
  ⟨[.command ⟨0, 0⟩ (.param ⟨name, [⟨0⟩], .int, none, none⟩)]⟩

theorem ofText_oneParameter {name : String} (h : Text.isWord name.toList) :
    Program.ofText (oneParameter name).toText = .ok (oneParameter name) := by
  have hformed : ∀ s ∈ (oneParameter name).statements, s.WellFormed := by
    intro s hs
    obtain rfl := List.mem_singleton.1 hs
    exact ⟨rfl, h, List.cons_ne_nil _ _, nofun, nofun⟩
  refine Program.ofText_toText_of_shortRuns hformed ?_
  rintro placed hplaced cells hcells ⟨run, hinside, -, hlong⟩
  obtain rfl := List.mem_singleton.1 hplaced
  obtain rfl := Option.some.inj hcells
  have hlength : run.length ≤ 1 := hinside.length_le
  exact absurd (hlong.trans_le hlength) (by decide)

/-- The names that some source declares are the words, those that are shaped like cells among
them. -/
theorem exists_declared_iff_isWord (name : String) :
    (∃ source p, Program.ofText source = .ok p ∧ name ∈ (ofProgram p).symbols.names) ↔
      Text.isWord name.toList := by
  constructor
  · rintro ⟨source, p, h, hname⟩
    obtain ⟨d, hd, rfl⟩ := (Tables.record_ofCommands p.flatten).mem_names_iff.1 hname
    exact isWord_of_mem_values h hd
  · exact fun hword => ⟨_, _, ofText_oneParameter hword, List.mem_singleton.2 rfl⟩

/-- In all operations the name of a declaration stands for it just if the name is not shaped like a
cell. Else it stands for no declaration in any operation, and no operation of the program addresses
it. -/
theorem declared_name_addressable_iff {source : Text} {p : Program}
    (h : Program.ofText source = .ok p) {d : Declaration}
    (hd : d ∈ (ofProgram p).symbols.values) :
    ((Tables.ofCommands p.flatten).Addressable d ↔ Cell.isShaped d.name.toList = false) ∧
    ((Tables.ofCommands p.flatten).Shadowed d ↔ Cell.isShaped d.name.toList = true) ∧
    (Cell.isShaped d.name.toList = true →
      ∀ placed ∈ p.flatten, d.name ∉ placed.command.addressedNames) := by
  have hsymbol := (Tables.record_ofCommands p.flatten).get?_of_mem_values hd
  have hword := isWord_of_mem_values h hd
  have hunaddressed (hshape : Cell.isShaped d.name.toList = true) (placed : Placed)
      (hplaced : placed ∈ p.flatten) : d.name ∉ placed.command.addressedNames := by
    intro hmem
    have hname := Command.isName_of_mem_addressedNames
      (Program.wellFormed_of_mem_flatten h hplaced) hmem
    exact Bool.false_ne_true (hname.2.symm.trans hshape)
  cases hshape : Cell.isShaped d.name.toList with
  | false =>
    have haddressable := Tables.addressable_of_isShaped_eq_false hsymbol hword hshape
    exact ⟨iff_of_true haddressable rfl, iff_of_false haddressable.not_shadowed nofun, nofun⟩
  | true =>
    have hshadowed := Tables.shadowed_of_isShaped hsymbol hword hshape
    exact ⟨iff_of_false (fun haddressable => haddressable.not_shadowed hshadowed) nofun,
      iff_of_true hshadowed rfl, fun _ => hunaddressed hshape⟩

def cellNamed : Program where
  statements :=
    [.command ⟨0, 0⟩ (.var ⟨"C5", [⟨1⟩], .int 1⟩), .command ⟨1, 0⟩ (.var ⟨"c5", [⟨2⟩], .int 1⟩),
      .command ⟨2, 0⟩ (.assign ⟨.cell ⟨5⟩, .int 2⟩),
      .command ⟨3, 0⟩ (.assign ⟨.name "c5", .int 2⟩)]

def cellNamedSource : Text := "C5 (C1) = 1\nc5 (C2) = 1\nSET C5 2\nSET c5 2".toList

theorem ofText_cellNamedSource : Program.ofText cellNamedSource = .ok cellNamed := by
  decide +kernel

theorem cellNamed_shadowed_and_addressable :
    Program.ofText cellNamedSource = .ok cellNamed ∧
      (Tables.ofCommands cellNamed.flatten).Shadowed ⟨"C5", [⟨1⟩], .data .int, ⟨0, 0⟩⟩ ∧
      (Tables.ofCommands cellNamed.flatten).Addressable ⟨"c5", [⟨2⟩], .data .int, ⟨1, 0⟩⟩ := by
  have hcell := declared_name_addressable_iff ofText_cellNamedSource
    (d := ⟨"C5", [⟨1⟩], .data .int, ⟨0, 0⟩⟩) (by decide +kernel)
  have hword := declared_name_addressable_iff ofText_cellNamedSource
    (d := ⟨"c5", [⟨2⟩], .data .int, ⟨1, 0⟩⟩) (by decide +kernel)
  exact ⟨ofText_cellNamedSource, hcell.2.1.2 (by decide), hword.1.2 (by decide)⟩

/-- The variable `C5` is declared on the cell `C1`, and the assignment to it goes to the cell `C5`. -/
theorem cell_shaped_name_is_declared :
    Program.ofText cellNamedSource = .ok cellNamed ∧
      (ofProgram cellNamed).symbols.get? "C5" = some ⟨"C5", [⟨1⟩], .data .int, ⟨0, 0⟩⟩ ∧
      Cell.isShaped "C5".toList = true ∧
      (ofProgram cellNamed).cells.history ⟨5⟩ = [⟨"SET_operation", 2, .usage⟩] ∧
      (ofProgram cellNamed).findings = [] := by
  refine ⟨ofText_cellNamedSource, ?_⟩
  decide +kernel

end Analysis

end CellCheck
