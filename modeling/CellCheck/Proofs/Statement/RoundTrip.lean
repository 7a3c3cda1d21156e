import CellCheck.Proofs.Statement.WellFormed
import CellCheck.Statement.Printer

/-!
# Printed commands read back

The printed line of a well-formed command starts like its own kind of statement and like no other,
and is read as the same command with its value respelled. Only a cell list that merges into a range
that is too wide makes the line unreadable.
-/

namespace CellCheck

namespace Command

def respelled : Command → Command
  | param p => param { p with value := p.value.map Value.respelled }
  | var v => var { v with value := v.value.respelled }
  | assign a => assign { a with value := a.value.respelled }
  | c => c

def cells? : Command → Option (List Cell)
  | param p => some p.cells
  | var v => some v.cells
  | _ => none

theorem valueText_respelled (value : Option Value) :
    valueText (value.map Value.respelled) = valueText value := by
  cases value with
  | none => rfl
  | some v => exact congrArg (" = ".toList ++ ·) v.toText_respelled

theorem toText_respelled (c : Command) : c.respelled.toText = c.toText := by
  cases c with
  | param p =>
    show "PARAM ".toList ++ declaredText p.name p.cells ++ ": ".toList ++ p.kind.name.toList ++
      sizeText p.size ++ valueText (p.value.map Value.respelled) = _
    rw [valueText_respelled]
    rfl
  | var v =>
    show declaredText v.name v.cells ++ valueText ((some v.value).map Value.respelled) = _
    rw [valueText_respelled]
    rfl
  | assign a =>
    exact congrArg ("SET ".toList ++ a.target.toText ++ ' ' :: ·) a.value.toText_respelled
  | _ => rfl

end Command

section Operands

theorem Value.WellFormed.isCode {v : Value} (h : v.WellFormed) : Text.IsCode v.toText := by
  obtain ⟨form, htight, hne, hplain, horigin⟩ := h
  exact ⟨horigin.tight_toText htight, horigin.toText_ne_nil hne, horigin.isPlain_toText hplain⟩

theorem Value.WellFormed.ofText_toText {v : Value} (h : v.WellFormed) :
    Value.ofText v.toText = v.respelled := by
  obtain ⟨form, htight, -, -, horigin⟩ := h
  exact horigin.ofText_toText htight

theorem isWord_of_isSyscallName {s : Text} (h : Text.isSyscallName s) :
    Text.isWord s ∧ ∃ tail, s = "SYS_".toList ++ tail := by
  rw [← String.toList_ofList (l := s)] at h ⊢
  have hname := isSyscallName_iff.1 h
  obtain ⟨tail, htail, -⟩ := id hname
  exact ⟨hname.isWord, tail, htail⟩

theorem Operand.WellFormed.writtenAs {o : Operand} (h : o.WellFormed) : o.WrittenAs o.toText := by
  cases o with
  | cell c => exact c.writtenAs_toText
  | name n => exact ⟨rfl, h⟩

theorem isWord_toText {o : Operand} (h : o.WellFormed) : Text.isWord o.toText := h.writtenAs.isWord

theorem Target.WellFormed.writtenAs {t : Target} (h : t.WellFormed) : t.WrittenAs t.toText := by
  cases t with
  | cell c => exact c.writtenAs_toText
  | range r =>
    refine CellRange.ofText_eq_ok_iff.1 ?_
    rw [Target.toText, CellRange.ofText_toText h.1,
      if_neg (Nat.not_lt.2 ((CellRange.length_cells_le_iff h.1).2 h.2))]
  | name n => exact ⟨rfl, h⟩

/-- A printed target has two dots in it at most. -/
theorem not_mem_toText {t : Target} {c : Char} (h : t.WellFormed)
    (hword : Text.isWordChar c = false) (hdot : c ≠ '.') : c ∉ t.toText := by
  cases t with
  | cell d => exact Text.not_mem_of_isWord d.isWord_toText hword
  | range r =>
    rw [Target.toText, CellRange.toText]
    simp only [List.mem_append, not_or]
    refine ⟨⟨Text.not_mem_of_isWord r.first.isWord_toText hword, ?_⟩,
      Text.not_mem_of_isWord r.last.isWord_toText hword⟩
    simp [hdot]
  | name n => exact Text.not_mem_of_isWord h.1 hword

end Operands

section Operations

theorem SyscallInit.WellFormed.writtenAs {i : SyscallInit} (h : i.WellFormed) :
    i.WrittenAs (Command.init i).toText := by
  have hassoc (a b c d e f : Text) :
      a ++ b ++ c ++ d ++ e ++ f = a ++ (b ++ (c ++ (d ++ (e ++ f)))) := by
    simp only [List.append_assoc]
  exact ⟨i.cell.toText, Numeral.decimal i.argumentCount, hassoc _ _ _ _ _ _,
    isSyscallName_iff.1 h.1, i.cell.writtenAs_toText, Numeral.writes_decimal _, h.2⟩

theorem Move.WellFormed.writtenAs {m : Move} (h : m.WellFormed) :
    m.WrittenAs (Command.move m).toText :=
  ⟨m.source.toText, m.destination.toText, List.append_assoc _ _ _, h.1.writtenAs, h.2.writtenAs⟩

theorem Assign.WellFormed.writtenAs {a : Assign} (h : a.WellFormed) :
    Assign.WrittenAs { a with value := a.value.respelled } (Command.assign a).toText :=
  ⟨a.target.toText, a.value.toText, List.append_assoc _ _ _,
    not_mem_toText h.1 (by decide) (by decide), h.1.writtenAs, h.2.ofText_toText.symm⟩

theorem argumentsWrittenAs_toText {arguments : List Operand}
    (h : ∀ argument ∈ arguments, argument.WellFormed) :
    Call.ArgumentsWrittenAs arguments (Text.commaSeparated (arguments.map Operand.toText)) := by
  cases arguments with
  | nil => exact .inl ⟨rfl, rfl⟩
  | cons first rest =>
    have hitems : Text.items (Text.commaSeparated ((first :: rest).map Operand.toText)) =
        (first :: rest).map Operand.toText := by
      refine Text.map_trim_splitOn_commaSeparated (List.cons_ne_nil _ _) ?_ ?_
      · intro item hitem
        obtain ⟨o, ho, rfl⟩ := List.mem_map.1 hitem
        exact Text.not_mem_of_isWord (isWord_toText (h o ho)) (by decide)
      · intro item hitem
        obtain ⟨o, ho, rfl⟩ := List.mem_map.1 hitem
        exact Text.tight_of_isWord (isWord_toText (h o ho))
    refine .inr ?_
    rw [hitems, List.forall₂_map_left_iff, List.forall₂_same]
    exact fun o ho => (h o ho).writtenAs

theorem Call.WellFormed.writtenAs {c : Call} (h : c.WellFormed) :
    c.WrittenAs (Command.call c).toText :=
  ⟨Text.commaSeparated (c.arguments.map Operand.toText), List.append_assoc _ _ _,
    isSyscallName_iff.1 h.1, argumentsWrittenAs_toText h.2⟩

end Operations

section Declarations

namespace Line

/-- A word with more behind it starts like a syscall only if the word does. -/
theorem startsWith_word_append {word : Text} (hword : Text.startsWith word "SYS_" = false) :
    Text.startsWith (word ++ ' ' :: rest) "SYS_" = false := by
  refine Bool.eq_false_iff.2 fun hstarts => ?_
  obtain ⟨tail, htail⟩ := Text.startsWith_iff.1 hstarts
  rcases List.append_eq_append_iff.1 htail with ⟨more, hmore, hrest⟩ | ⟨more, hmore, -⟩
  · cases more with
    | nil =>
      rw [List.append_nil] at hmore
      exact absurd (Text.startsWith_iff.2 ⟨[], by rw [hmore, List.append_nil]⟩)
        (Bool.eq_false_iff.1 hword)
    | cons c more =>
      obtain ⟨rfl, -⟩ := List.cons.inj hrest
      have hblank : ' ' ∈ "SYS_".toList := hmore ▸ by simp
      exact absurd hblank (by decide)
  · exact absurd (Text.startsWith_iff.2 ⟨more, hmore⟩) (Bool.eq_false_iff.1 hword)

/-- A line that starts with a word and a bracket starts with no keyword but that word. -/
theorem not_startsWith_keyword {word rest : Text} (hword : Text.isWord word)
    (hkeyword : word ≠ "PARAM".toList ∧ word ≠ "SET".toList ∧ word ≠ "MOV".toList)
    (hsyscall : Text.startsWith word "SYS_" = false) :
    ∀ keyword ∈ keywords, Text.startsWith (word ++ ' ' :: '(' :: rest) keyword = false := by
  have hblank : ' ' ∉ word := Text.not_mem_of_isWord hword (by decide)
  have hother (keyword beginning : String) (hbeginning : beginning = keyword ++ " ")
      (hkeyword : ' ' ∉ keyword.toList) (hne : word ≠ keyword.toList) :
      Text.startsWith (word ++ ' ' :: '(' :: rest) beginning = false := by
    rw [hbeginning, ← after?_eq_none_iff, Text.after?_word_append hblank hkeyword, if_neg hne]
  have hinit : Text.startsWith (word ++ ' ' :: '(' :: rest) "INIT SYS_" = false := by
    refine Bool.eq_false_iff.2 fun hstarts => ?_
    obtain ⟨tail, htail⟩ := startsWith_init_iff.1 hstarts
    rw [afterInit?, show "INIT " = "INIT" ++ " " from rfl,
      Text.after?_word_append hblank (by decide)] at htail
    split_ifs at htail <;> cases htail
  simp only [keywords, List.forall_mem_cons]
  exact ⟨hinit, hother "PARAM" _ rfl (by decide) hkeyword.1,
    hother "SET" _ rfl (by decide) hkeyword.2.1, hother "MOV" _ rfl (by decide) hkeyword.2.2,
    startsWith_word_append hsyscall, List.forall_mem_nil _⟩

theorem closing_not_mem_cells (cells : List Cell) : ')' ∉ CellList.toText cells := by
  intro hmem
  rcases CellList.mem_toText hmem with hc | hc | hc | hc
  · exact absurd hc (by decide)
  · cases hc
  · cases hc
  · cases hc

/-- The printed kind and size are one word, maybe with brackets. -/
theorem mem_kindText {kind : DataKind} {size : Option Nat} {c : Char}
    (h : c ∈ kind.name.toList ++ Command.sizeText size) :
    Text.isWordChar c ∨ c = '[' ∨ c = ']' := by
  rcases List.mem_append.1 h with hkind | hsize
  · exact .inl ((Text.isWord_iff.1 kind.isWord_name).2 c hkind)
  · cases size with
    | none => cases hsize
    | some n =>
      simp only [Command.sizeText, List.cons_append, List.mem_cons, List.mem_append,
        List.not_mem_nil, or_false] at hsize
      rcases hsize with rfl | hdigit | rfl
      · exact .inr (.inl rfl)
      · exact .inl ((Text.isWord_iff.1 (Text.isWord_decimal n)).2 c hdigit)
      · exact .inr (.inr rfl)

theorem tight_kindText (kind : DataKind) (size : Option Nat) :
    Text.Tight (kind.name.toList ++ Command.sizeText size) := by
  refine Text.tight_of_forall fun c hc => ?_
  rcases mem_kindText hc with hword | rfl | rfl
  · exact Text.isBlank_of_isWordChar hword
  · decide
  · decide

end Line

theorem isSize_sizeText {size : Option Nat} (h : ∀ n ∈ size, n < UInt32.size) :
    IsSize (Command.sizeText size) size := by
  cases size with
  | none => rfl
  | some n => exact ⟨Numeral.decimal n, rfl, Numeral.writes_decimal n, Nat.le_of_lt_succ (h n rfl)⟩

def Param.printed (p : Param) : Param.Source where
  name := p.name.toList
  list := CellList.toText p.cells
  declared := ' ' :: (p.kind.name.toList ++ Command.sizeText p.size ++
    match p.value with
    | none => []
    | some _ => [' '])
  value := p.value.map fun v => ' ' :: v.toText

theorem Param.code_printed (p : Param) : p.printed.code = (Command.param p).toText := by
  have hassoc {keyword name list rest kind size value : Text}
      (hrest : rest = ' ' :: (kind ++ size) ++ value) :
      keyword ++ (name ++ (" (".toList ++ (list ++ ("):".toList ++ rest)))) =
        keyword ++ (name ++ " (".toList ++ list ++ [')']) ++ ": ".toList ++ kind ++ size ++
          value := by
    simp [hrest]
  refine hassoc ?_
  unfold printed
  cases p.value with
  | none => simp [Param.Source.valueCode, Command.valueText]
  | some v => simp [Param.Source.valueCode, Command.valueText]

theorem Param.trim_declared_printed (p : Param) :
    p.printed.declared.trim = p.kind.name.toList ++ Command.sizeText p.size := by
  have htight := Line.tight_kindText p.kind p.size
  unfold printed
  cases p.value with
  | none => rw [List.append_nil, Text.trim_cons_of_isBlank (by decide), htight.trim_eq]
  | some v => exact Text.trim_blanks htight

theorem Param.WellFormed.declares {p : Param} (h : p.WellFormed) {cells : List Cell}
    (hcells : CellList.ofText (CellList.toText p.cells) = .ok cells) :
    p.printed.Declares { p with cells := cells, value := p.value.map Value.respelled } where
  name := rfl
  word := h.name
  cells := hcells
  equals := by
    intro hmem
    have hmem' := Text.mem_trim_of_mem hmem (by decide)
    rw [p.trim_declared_printed] at hmem'
    rcases Line.mem_kindText hmem' with hc | hc | hc
    · exact absurd hc (by decide)
    · cases hc
    · cases hc
  kind := ⟨Command.sizeText p.size, p.trim_declared_printed, isSize_sizeText h.size⟩
  filled := by
    intro value hvalue
    obtain ⟨v, hv, rfl⟩ := Option.map_eq_some_iff.1 hvalue
    rw [Text.trim_cons_of_isBlank (by decide), (h.value v hv).isCode.tight.trim_eq]
    exact (h.value v hv).isCode.ne_nil
  value := by
    show p.value.map Value.respelled = (p.value.map fun v => ' ' :: v.toText).map Value.ofText
    rw [Option.map_map]
    refine Option.map_congr fun v hv => ?_
    rw [Function.comp_apply, ← Value.ofText_trim, Text.trim_cons_of_isBlank (by decide),
      Value.ofText_trim, (h.value v hv).ofText_toText]

def Variable.printed (v : Variable) : Variable.Source where
  name := v.name.toList
  list := CellList.toText v.cells
  value := v.value.toText

theorem Variable.code_printed (v : Variable) : v.printed.code = (Command.var v).toText := by
  have hassoc (name list value : Text) :
      name ++ (" (".toList ++ (list ++ (") = ".toList ++ value))) =
        name ++ " (".toList ++ list ++ [')'] ++ (" = ".toList ++ value) := by
    simp
  exact hassoc _ _ _

theorem Variable.WellFormed.declares {v : Variable} (h : v.WellFormed) {cells : List Cell}
    (hcells : CellList.ofText (CellList.toText v.cells) = .ok cells) :
    v.printed.Declares { v with cells := cells, value := v.value.respelled } where
  name := rfl
  word := h.name
  cells := hcells
  filled := by
    show v.value.toText.trim ≠ []
    rw [h.value.isCode.tight.trim_eq]
    exact h.value.isCode.ne_nil
  value := h.value.ofText_toText.symm

theorem Variable.WellFormed.not_startsWith {v : Variable} (h : v.WellFormed) :
    ∀ keyword ∈ Line.keywords, v.printed.code.startsWith keyword = false :=
  Line.not_startsWith_keyword h.name
    ⟨mt String.toList_inj.1 h.keyword.1, mt String.toList_inj.1 h.keyword.2.1,
      mt String.toList_inj.1 h.keyword.2.2⟩ h.syscall

theorem Variable.WellFormed.cell_infix {v : Variable} (h : v.WellFormed) :
    "(C".toList <:+: v.printed.code := by
  obtain ⟨tail, htail⟩ := CellList.exists_toText_eq_cons h.cells
  refine ⟨v.name.toList ++ [' '], tail ++ (") = ".toList ++ v.value.toText), ?_⟩
  simp [Variable.Source.code, Variable.printed, htail]

end Declarations

namespace Command

/-- The line of a well-formed command is written as the command unless its cells merge into a range
that is too wide. -/
theorem WellFormed.respelled_writtenAs {c : Command} (h : c.WellFormed)
    (hshort : ∀ cells, c.cells? = some cells → ¬ CellList.HasLongRun cells) :
    c.respelled.WrittenAs c.toText := by
  cases c with
  | init i => exact .init (SyscallInit.WellFormed.writtenAs h)
  | param p =>
    have hcells := CellList.ofText_toText (Param.WellFormed.cells h) (hshort p.cells rfl)
    exact p.code_printed ▸ .param (Param.WellFormed.declares h hcells)
  | var v =>
    have hcells := CellList.ofText_toText (Variable.WellFormed.cells h) (hshort v.cells rfl)
    exact v.code_printed ▸ .var (Variable.WellFormed.not_startsWith h)
      (Variable.WellFormed.cell_infix h) (Variable.WellFormed.declares h hcells)
  | assign a => exact .assign (Assign.WellFormed.writtenAs h)
  | move m => exact .move (Move.WellFormed.writtenAs h)
  | call c => exact .call (Call.WellFormed.writtenAs h)

theorem ofCode_toText {c : Command} (h : c.WellFormed)
    (hshort : ∀ cells, c.cells? = some cells → ¬ CellList.HasLongRun cells) :
    Line.ofCode c.toText = .ok (.command c.respelled) :=
  Line.ofCode_eq_command_iff_writtenAs.2 (h.respelled_writtenAs hshort)

/-- The line of a parameter is read only if its printed cell list is. -/
theorem exists_cells_of_ofCode_param {p : Param} (h : p.WellFormed) {line : Line}
    (hread : Line.ofCode (param p).toText = .ok line) :
    ∃ cells, CellList.ofText (CellList.toText p.cells) = .ok cells := by
  rw [← p.code_printed] at hread
  obtain ⟨p', hparam, -⟩ := map_eq_ok.1 (Line.ofCode_param.symm.trans hread)
  obtain ⟨s, hcode, hs⟩ := Line.readParam_eq_ok_iff.1 hparam
  obtain ⟨-, hlist, -⟩ := heading_inj hs.word h.name (CellList.closing_not_mem hs.cells)
    (Line.closing_not_mem_cells p.cells) (List.append_cancel_left hcode)
  exact ⟨p'.cells, hlist ▸ hs.cells⟩

/-- The line of a variable is read only if its printed cell list is. -/
theorem exists_cells_of_ofCode_var {v : Variable} (h : v.WellFormed) {line : Line}
    (hread : Line.ofCode (var v).toText = .ok line) :
    ∃ cells, CellList.ofText (CellList.toText v.cells) = .ok cells := by
  rw [← v.code_printed, Line.ofCode_variable h.not_startsWith
    ((Line.looksLikeVariable_source _).2 h.cell_infix), map_eq_ok] at hread
  obtain ⟨v', hvariable, -⟩ := hread
  obtain ⟨s, hcode, hs⟩ := Line.readVariable_eq_ok_iff.1 hvariable
  obtain ⟨-, hlist, -⟩ := heading_inj hs.word h.name (CellList.closing_not_mem hs.cells)
    (Line.closing_not_mem_cells v.cells) hcode
  exact ⟨v'.cells, hlist ▸ hs.cells⟩

theorem exists_ofCode_toText_eq_error {c : Command} (h : c.WellFormed) {cells : List Cell}
    (hcells : c.cells? = some cells) (hlong : CellList.HasLongRun cells) :
    ∃ e, Line.ofCode c.toText = .error e := by
  cases hread : Line.ofCode c.toText with
  | error e => exact ⟨e, rfl⟩
  | ok line =>
    have hlist : cells ≠ [] ∧ ∃ cells', CellList.ofText (CellList.toText cells) = .ok cells' := by
      cases c with
      | param p =>
        obtain rfl := Option.some.inj hcells
        exact ⟨Param.WellFormed.cells h, exists_cells_of_ofCode_param h hread⟩
      | var v =>
        obtain rfl := Option.some.inj hcells
        exact ⟨Variable.WellFormed.cells h, exists_cells_of_ofCode_var h hread⟩
      | _ => cases hcells
    obtain ⟨hne, cells', hok⟩ := hlist
    obtain ⟨run, -, -, herror⟩ := CellList.exists_ofText_toText_eq_error hne hlong
    rw [hok] at herror
    cases herror

end Command

section Code

theorem CellList.isPlain_toText (cells : List Cell) : Text.IsPlain (CellList.toText cells) := by
  intro c hc
  rcases CellList.mem_toText hc with hword | rfl | rfl | rfl
  · exact Text.plain_of_isWordChar hword
  · decide
  · decide
  · decide

theorem Command.isPlain_declaredText {name : String} (hname : Text.isWord name.toList)
    (cells : List Cell) : Text.IsPlain (Command.declaredText name cells) := by
  simp only [Command.declaredText, Text.isPlain_append]
  exact ⟨⟨⟨Text.isPlain_of_isWord hname, by decide⟩, CellList.isPlain_toText cells⟩, by decide⟩

theorem Line.isCode_kindText (kind : DataKind) (size : Option Nat) :
    Text.IsCode (kind.name.toList ++ Command.sizeText size) := by
  refine ⟨tight_kindText kind size,
    List.append_ne_nil_of_left_ne_nil (Text.isWord_iff.1 kind.isWord_name).1 _, ?_⟩
  intro c hc
  rcases mem_kindText hc with hword | rfl | rfl
  · exact Text.plain_of_isWordChar hword
  · decide
  · decide

theorem Target.WellFormed.isPlain {t : Target} (h : t.WellFormed) : Text.IsPlain t.toText := by
  intro c hc
  constructor
  · rintro rfl
    exact not_mem_toText h (by decide) (by decide) hc
  · rintro rfl
    exact not_mem_toText h (by decide) (by decide) hc

namespace Command

theorem isCode_initText {i : SyscallInit} (h : i.WellFormed) : Text.IsCode (init i).toText := by
  refine Text.isCode_append rfl (by decide) ?_ (Text.isCode_of_isWord (Text.isWord_decimal _))
  simp only [Text.isPlain_append]
  exact ⟨⟨⟨⟨by decide, Text.isPlain_of_isWord (isWord_of_isSyscallName h.1).1⟩, by decide⟩,
    Text.isPlain_of_isWord i.cell.isWord_toText⟩, by decide⟩

theorem isCode_paramText {p : Param} (h : p.WellFormed) : Text.IsCode (param p).toText := by
  have hfront : Text.IsPlain ("PARAM ".toList ++ declaredText p.name p.cells ++ ": ".toList) := by
    simp only [Text.isPlain_append]
    exact ⟨⟨by decide, isPlain_declaredText h.name p.cells⟩, by decide⟩
  have hkind := Line.isCode_kindText p.kind p.size
  have htext : (param p).toText =
      "PARAM ".toList ++ declaredText p.name p.cells ++ ": ".toList ++
        (p.kind.name.toList ++ sizeText p.size) ++ valueText p.value := by
    show "PARAM ".toList ++ declaredText p.name p.cells ++ ": ".toList ++ p.kind.name.toList ++
      sizeText p.size ++ valueText p.value = _
    simp only [List.append_assoc]
  rw [htext]
  cases hvalue : p.value with
  | none =>
    rw [valueText, List.append_nil]
    exact Text.isCode_append rfl (by decide) hfront hkind
  | some v =>
    rw [valueText, ← List.append_assoc]
    refine Text.isCode_append rfl (by decide) ?_ (h.value v hvalue).isCode
    exact Text.isPlain_append.2 ⟨Text.isPlain_append.2 ⟨hfront, hkind.plain⟩, by decide⟩

theorem isCode_varText {v : Variable} (h : v.WellFormed) : Text.IsCode (var v).toText := by
  obtain ⟨hne, hword⟩ := Text.isWord_iff.1 h.name
  obtain ⟨c, name, hname⟩ := List.exists_cons_of_ne_nil hne
  have htext : (var v).toText =
      declaredText v.name v.cells ++ " = ".toList ++ v.value.toText := by
    rw [List.append_assoc]
    rfl
  have hhead : (declaredText v.name v.cells ++ " = ".toList).head? = some c := by
    rw [declaredText, hname]
    rfl
  rw [htext]
  refine Text.isCode_append hhead ?_ ?_ h.value.isCode
  · exact Text.isBlank_of_isWordChar (hword c (hname ▸ List.mem_cons_self))
  · exact Text.isPlain_append.2 ⟨isPlain_declaredText h.name v.cells, by decide⟩

theorem isCode_assignText {a : Assign} (h : a.WellFormed) :
    Text.IsCode (assign a).toText := by
  have htext : (assign a).toText =
      ("SET ".toList ++ a.target.toText ++ [' ']) ++ a.value.toText := by
    rw [List.append_assoc]
    rfl
  rw [htext]
  refine Text.isCode_append rfl (by decide) ?_ h.2.isCode
  simp only [Text.isPlain_append]
  exact ⟨⟨by decide, h.1.isPlain⟩, by decide⟩

theorem isCode_moveText {m : Move} (h : m.WellFormed) : Text.IsCode (move m).toText := by
  have htext : (move m).toText =
      ("MOV ".toList ++ m.source.toText ++ [' ']) ++ m.destination.toText := by
    rw [List.append_assoc]
    rfl
  rw [htext]
  refine Text.isCode_append rfl (by decide) ?_ (Text.isCode_of_isWord (isWord_toText h.2))
  simp only [Text.isPlain_append]
  exact ⟨⟨by decide, Text.isPlain_of_isWord (isWord_toText h.1)⟩, by decide⟩

theorem isCode_callText {c : Call} (h : c.WellFormed) : Text.IsCode (call c).toText := by
  obtain ⟨hword, tail, htail⟩ := isWord_of_isSyscallName h.1
  have harguments : Text.IsPlain (Text.commaSeparated (c.arguments.map Operand.toText)) := by
    refine Text.isPlain_commaSeparated fun item hitem => ?_
    obtain ⟨o, ho, rfl⟩ := List.mem_map.1 hitem
    exact Text.isPlain_of_isWord (isWord_toText (h.2 o ho))
  have hclosing : Text.IsCode [')'] :=
    ⟨Text.trim_eq_self_iff.1 rfl, List.cons_ne_nil _ _, by decide⟩
  have hhead : (c.syscall.toList ++
      '(' :: Text.commaSeparated (c.arguments.map Operand.toText)).head? = some 'S' := by
    rw [htail]
    rfl
  show Text.IsCode (c.syscall.toList ++
    '(' :: Text.commaSeparated (c.arguments.map Operand.toText) ++ [')'])
  refine Text.isCode_append hhead (by decide) ?_ hclosing
  rw [Text.isPlain_append, Text.isPlain_cons]
  exact ⟨Text.isPlain_of_isWord hword, by decide, harguments⟩

/-- The line of a well-formed command is code as it stands. -/
theorem WellFormed.isCode {c : Command} (h : c.WellFormed) : Text.IsCode c.toText := by
  cases c with
  | init i => exact isCode_initText h
  | param p => exact isCode_paramText h
  | var v => exact isCode_varText h
  | assign a => exact isCode_assignText h
  | move m => exact isCode_moveText h
  | call c => exact isCode_callText h

end Command

end Code

end CellCheck
