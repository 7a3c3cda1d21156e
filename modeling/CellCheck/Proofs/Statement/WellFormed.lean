import CellCheck.Proofs.Statement.Declaration
import CellCheck.Proofs.Statement.Operation

/-!
# Commands that were read

A line of code stands for the command that the grammar makes of it. What is known of that command:
its names are words that are no cells, its cell list is not empty, its numbers fit, and its value
comes from a text without white space at the ends. A variable is never named like the keyword of
another statement.
-/

namespace CellCheck

def Value.WellFormed (v : Value) : Prop :=
  ∃ form, Text.Tight form ∧ form ≠ [] ∧ Text.IsPlain form ∧ Value.Origin form v

def Operand.WellFormed : Operand → Prop
  | cell _ => True
  | name n => IsName n

def Target.WellFormed : Target → Prop
  | cell _ => True
  | range r => r.Ordered ∧ r.last.toNat - r.first.toNat < CellRange.maxWidth
  | name n => IsName n

def SyscallInit.WellFormed (i : SyscallInit) : Prop :=
  Text.isSyscallName i.syscall.toList ∧ i.argumentCount < UInt64.size

structure Param.WellFormed (p : Param) : Prop where
  name : Text.isWord p.name.toList
  cells : p.cells ≠ []
  size : ∀ n ∈ p.size, n < UInt32.size
  value : ∀ v ∈ p.value, v.WellFormed

structure Variable.WellFormed (v : Variable) : Prop where
  name : Text.isWord v.name.toList
  keyword : v.name ≠ "PARAM" ∧ v.name ≠ "SET" ∧ v.name ≠ "MOV"
  syscall : Text.startsWith v.name.toList "SYS_" = false
  cells : v.cells ≠ []
  value : v.value.WellFormed

def Assign.WellFormed (a : Assign) : Prop := a.target.WellFormed ∧ a.value.WellFormed

def Move.WellFormed (m : Move) : Prop := m.source.WellFormed ∧ m.destination.WellFormed

def Call.WellFormed (c : Call) : Prop :=
  Text.isSyscallName c.syscall.toList ∧ ∀ argument ∈ c.arguments, argument.WellFormed

def Command.WellFormed : Command → Prop
  | init i => i.WellFormed
  | param p => p.WellFormed
  | var v => v.WellFormed
  | assign a => a.WellFormed
  | move m => m.WellFormed
  | call c => c.WellFormed

theorem Value.wellFormed_ofText {s : Text} (hplain : Text.IsPlain s) (hne : s.trim ≠ []) :
    (Value.ofText s).WellFormed :=
  ⟨s.trim, Text.tight_trim s, hne, fun c hc => hplain c (Text.mem_of_mem_trim hc),
    Value.origin s⟩

inductive Command.WrittenAs : Command → Text → Prop where
  | init {i : SyscallInit} {code : Text} (h : i.WrittenAs code) : WrittenAs (.init i) code
  | param {p : Param} {s : Param.Source} (h : s.Declares p) : WrittenAs (.param p) s.code
  | var {v : Variable} {s : Variable.Source}
      (hkeyword : ∀ keyword ∈ Line.keywords, s.code.startsWith keyword = false)
      (hcell : "(C".toList <:+: s.code) (h : s.Declares v) : WrittenAs (.var v) s.code
  | assign {a : Assign} {code : Text} (h : a.WrittenAs code) : WrittenAs (.assign a) code
  | move {m : Move} {code : Text} (h : m.WrittenAs code) : WrittenAs (.move m) code
  | call {c : Call} {code : Text} (h : c.WrittenAs code) : WrittenAs (.call c) code

/-- A line is read as a command just if it is written as the grammar says. -/
theorem Line.ofCode_eq_command_iff_writtenAs {code : Text} {c : Command} :
    ofCode code = .ok (.command c) ↔ c.WrittenAs code := by
  have hread : ofCode code = .ok (.command c) ↔
      readAt 0 code = .ok (some (.command ⟨0, 0⟩ c)) := by
    rw [readAt_eq_command_iff, ofCode_eq_command_iff, eq_self_iff_true, true_and]
  rw [hread]
  constructor
  · intro h
    cases c with
    | init i => exact .init (readAt_eq_init_iff.1 h).2
    | param p =>
      obtain ⟨-, s, rfl, hs⟩ := readAt_eq_param_iff.1 h
      exact .param hs
    | var v =>
      obtain ⟨-, hkeyword, hcell, s, rfl, hs⟩ := readAt_eq_var_iff.1 h
      exact .var hkeyword hcell hs
    | assign a => exact .assign (readAt_eq_assign_iff.1 h).2
    | move m => exact .move (readAt_eq_move_iff.1 h).2
    | call c => exact .call (readAt_eq_call_iff.1 h).2
  · intro h
    cases h with
    | init h => exact readAt_eq_init_iff.2 ⟨rfl, h⟩
    | param h => exact readAt_eq_param_iff.2 ⟨rfl, _, rfl, h⟩
    | var hkeyword hcell h => exact readAt_eq_var_iff.2 ⟨rfl, hkeyword, hcell, _, rfl, h⟩
    | assign h => exact readAt_eq_assign_iff.2 ⟨rfl, h⟩
    | move h => exact readAt_eq_move_iff.2 ⟨rfl, h⟩
    | call h => exact readAt_eq_call_iff.2 ⟨rfl, h⟩

variable {s code : Text}

theorem Operand.WrittenAs.wellFormed {o : Operand} (h : o.WrittenAs s) : o.WellFormed := by
  cases o with
  | cell c => trivial
  | name n => exact h.2

theorem Target.WrittenAs.wellFormed {t : Target} (h : t.WrittenAs s) : t.WellFormed := by
  cases t with
  | cell c => trivial
  | range r =>
    obtain ⟨-, -, -, -, -, horder, hwidth⟩ := h
    exact ⟨horder, hwidth⟩
  | name n => exact h.2

theorem SyscallInit.WrittenAs.wellFormed {i : SyscallInit} (h : i.WrittenAs code) :
    i.WellFormed := by
  obtain ⟨-, -, -, hname, -, -, hlt⟩ := h
  exact ⟨isSyscallName_iff.2 hname, hlt⟩

theorem Move.WrittenAs.wellFormed {m : Move} (h : m.WrittenAs code) : m.WellFormed := by
  obtain ⟨source, destination, -, hsource, hdestination⟩ := h
  exact ⟨hsource.wellFormed, hdestination.wellFormed⟩

theorem Call.WrittenAs.wellFormed {c : Call} (h : c.WrittenAs code) : c.WellFormed := by
  obtain ⟨arguments, -, hname, harguments⟩ := h
  refine ⟨isSyscallName_iff.2 hname, fun argument hargument => ?_⟩
  rcases harguments with ⟨-, hnil⟩ | hitems
  · rw [hnil] at hargument
    cases hargument
  · obtain ⟨item, -, hitem⟩ := exists_of_mem_right hitems hargument
    exact Operand.WrittenAs.wellFormed hitem

theorem Assign.WrittenAs.wellFormed {a : Assign} (hplain : Text.IsPlain code)
    (htight : Text.Tight code) (h : a.WrittenAs code) : a.WellFormed := by
  obtain ⟨target, value, rfl, -, htarget, hvalue⟩ := h
  refine ⟨htarget.wellFormed, ?_⟩
  rw [hvalue]
  have hvaluePlain : Text.IsPlain value :=
    (Text.isPlain_cons.1 (Text.isPlain_append.1 (Text.isPlain_append.1 hplain).2).2).2
  refine Value.wellFormed_ofText hvaluePlain fun hblank => ?_
  -- A line with a blank value would end with white space.
  have hne : ' ' :: value ≠ [] := List.cons_ne_nil _ _
  have hlast : Text.isBlank ((' ' :: value).getLast hne) = false := by
    refine htight.last _ ?_
    rw [← List.append_assoc, List.getLast?_append_of_ne_nil _ hne,
      List.getLast?_eq_some_getLast hne]
    rfl
  have hend : Text.isBlank ((' ' :: value).getLast hne) := by
    rcases List.mem_cons.1 (List.getLast_mem hne) with heq | hmem
    · rw [heq]
      decide
    · exact Text.trim_eq_nil_iff.1 hblank _ hmem
  rw [hlast] at hend
  cases hend

theorem IsSize.lt {size : Option Nat} (h : IsSize s size) : ∀ n ∈ size, n < UInt32.size := by
  rintro n hn
  obtain rfl : size = some n := hn
  obtain ⟨-, -, -, hle⟩ := h
  exact Nat.lt_succ_of_le hle

theorem Param.Source.Declares.wellFormed {p : Param} {s : Param.Source}
    (hplain : Text.IsPlain s.code) (h : s.Declares p) : p.WellFormed := by
  refine ⟨h.name ▸ h.word, CellList.ne_nil_of_ofText h.cells, ?_, ?_⟩
  · obtain ⟨size, -, hsize⟩ := h.kind
    exact hsize.lt
  · intro v hv
    rw [h.value] at hv
    obtain ⟨value, hvalue, rfl⟩ := Option.map_eq_some_iff.1 hv
    refine Value.wellFormed_ofText (fun c hc => hplain c ?_) (h.filled value hvalue)
    have hvalueCode : c ∈ Param.Source.valueCode s.value := by
      rw [Option.mem_def.1 hvalue]
      exact List.mem_cons_of_mem _ hc
    exact s.valueCode_suffix.mem hvalueCode

theorem Variable.Source.Declares.wellFormed {v : Variable} {s : Variable.Source}
    (hplain : Text.IsPlain s.code)
    (hkeyword : ∀ keyword ∈ Line.keywords, s.code.startsWith keyword = false)
    (h : s.Declares v) : v.WellFormed := by
  have hne {keyword : String} (hmem : keyword ++ " " ∈ Line.keywords) : v.name ≠ keyword := by
    rintro rfl
    have hstarts : s.code.startsWith (v.name ++ " ") :=
      Text.startsWith_iff.2 ⟨'(' :: (s.list ++ (") = ".toList ++ s.value)), by
        rw [String.toList_append, ← h.name, List.append_assoc]
        rfl⟩
    rw [hkeyword _ hmem] at hstarts
    cases hstarts
  refine ⟨h.name ▸ h.word, ⟨hne (by decide), hne (by decide), hne (by decide)⟩, ?_,
    CellList.ne_nil_of_ofText h.cells, ?_⟩
  · rw [← h.name]
    refine Bool.eq_false_iff.2 fun hstarts => ?_
    exact Bool.eq_false_iff.1 (hkeyword "SYS_" (by decide)) (Text.startsWith_append hstarts _)
  · rw [h.value]
    exact Value.wellFormed_ofText (fun c hc => hplain c (s.value_suffix.mem hc)) h.filled

/-- A command that a line of code stands for is well formed. -/
theorem Line.wellFormed_of_ofCode {c : Command} (hplain : Text.IsPlain code)
    (htight : Text.Tight code) (h : ofCode code = .ok (.command c)) : c.WellFormed := by
  cases ofCode_eq_command_iff_writtenAs.1 h with
  | init hwritten => exact hwritten.wellFormed
  | param hwritten => exact hwritten.wellFormed hplain
  | var hkeyword _ hwritten => exact hwritten.wellFormed hplain hkeyword
  | assign hwritten => exact hwritten.wellFormed hplain htight
  | move hwritten => exact hwritten.wellFormed
  | call hwritten => exact hwritten.wellFormed

end CellCheck
