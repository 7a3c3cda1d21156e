import CellCheck.Proofs.Cell.Grammar
import CellCheck.Proofs.Statement.Dispatch

/-!
# The grammar of operations

    init    := "INIT " syscall " AT " cell " WITH " digit { digit }
    call    := syscall "(" [ operand { "," operand } ] ")"
    move    := "MOV " operand " " operand
    assign  := "SET " target " " value
    syscall := "SYS_" word
    operand := cell | name
    target  := range | cell | name

A name is a word that is not shaped like a cell. White space may surround the arguments of a call
and the value of an assignment, and there is one blank between the words of the other lines.
-/

namespace CellCheck

def IsName (name : String) : Prop :=
  Text.isWord name.toList ∧ Cell.isShaped name.toList = false

def Operand.WrittenAs : Operand → Text → Prop
  | cell c, s => c.WrittenAs s
  | name n, s => s = n.toList ∧ IsName n

def Target.WrittenAs : Target → Text → Prop
  | cell c, s => c.WrittenAs s
  | range r, s => r.WrittenAs s
  | name n, s => s = n.toList ∧ IsName n

def IsSyscall (name : String) : Prop :=
  ∃ word, name.toList = "SYS_".toList ++ word ∧ Text.isWord word

def SyscallInit.WrittenAs (i : SyscallInit) (code : Text) : Prop :=
  ∃ cell count, code = "INIT ".toList ++ (i.syscall.toList ++ (" AT ".toList ++ (cell ++
      (" WITH ".toList ++ count)))) ∧
    IsSyscall i.syscall ∧ i.cell.WrittenAs cell ∧ Numeral.Writes 10 count i.argumentCount ∧
    i.argumentCount < 2 ^ 64

def Call.ArgumentsWrittenAs (arguments : List Operand) (s : Text) : Prop :=
  (s.trim = [] ∧ arguments = []) ∨
    List.Forall₂ (fun item argument => Operand.WrittenAs argument item) s.items arguments

def Call.WrittenAs (c : Call) (code : Text) : Prop :=
  ∃ arguments, code = c.syscall.toList ++ '(' :: (arguments ++ [')']) ∧ IsSyscall c.syscall ∧
    ArgumentsWrittenAs c.arguments arguments

def Move.WrittenAs (m : Move) (code : Text) : Prop :=
  ∃ source destination, code = "MOV ".toList ++ (source ++ ' ' :: destination) ∧
    m.source.WrittenAs source ∧ m.destination.WrittenAs destination

def Assign.WrittenAs (a : Assign) (code : Text) : Prop :=
  ∃ target value, code = "SET ".toList ++ (target ++ ' ' :: value) ∧ ' ' ∉ target ∧
    a.target.WrittenAs target ∧ a.value = Value.ofText value

/-- Why a text is no target. With two dots in it, it could only be a range. -/
inductive Target.Rejected (s : Text) : SyntaxError → Prop where
  | range {e : CellListError} (hdots : "..".toList <:+: s) (h : CellRange.Rejected s e) :
      Rejected s (.cells e)
  | other (hdots : ¬ "..".toList <:+: s) (h : ∀ t : Target, ¬ t.WrittenAs s) :
      Rejected s .invalidAssign

inductive Assign.Rejected (code : Text) : SyntaxError → Prop where
  | blank {rest : Text} (hcode : code = "SET ".toList ++ rest) (h : ' ' ∉ rest) :
      Rejected code .invalidAssign
  | target {target value : Text} {e : SyntaxError}
      (hcode : code = "SET ".toList ++ (target ++ ' ' :: value)) (hblank : ' ' ∉ target)
      (h : Target.Rejected target e) : Rejected code e

section Words

variable {s : Text} {o : Operand}

theorem isSyscallName_iff {name : String} : Text.isSyscallName name.toList ↔ IsSyscall name := by
  rw [Text.isSyscallName, Option.any_eq_true, IsSyscall]
  simp only [Text.after?_eq_some_iff]

theorem IsSyscall.isWord {name : String} (h : IsSyscall name) : Text.isWord name.toList := by
  obtain ⟨word, hname, hword⟩ := h
  rw [hname]
  exact Text.isWord_append (by decide) (Text.isWord_iff.1 hword).2

theorem IsSyscall.startsWith {name : String} (h : IsSyscall name) (rest : Text) :
    Text.startsWith (name.toList ++ rest) "SYS_" := by
  obtain ⟨word, hname, -⟩ := h
  rw [hname]
  exact Text.startsWith_iff.2 ⟨word ++ rest, List.append_assoc _ _ _⟩

theorem IsName.ofText?_eq_none {name : String} (h : IsName name) :
    Cell.ofText? name.toList = none := by
  refine Option.eq_none_iff_forall_ne_some.2 fun c hc => ?_
  have hshape := (Cell.ofText?_eq_some_iff.1 hc).isShaped
  rw [h.2] at hshape
  cases hshape

theorem Operand.WrittenAs.isWord (h : o.WrittenAs s) : Text.isWord s := by
  cases o with
  | cell c => exact Cell.WrittenAs.isWord h
  | name n =>
    obtain ⟨rfl, hname⟩ := h
    exact hname.1

theorem Line.readOperand?_eq_some_iff : readOperand? s = some o ↔ o.WrittenAs s := by
  constructor
  · intro h
    unfold readOperand? at h
    split_ifs at h with hword
    obtain rfl := Option.some.inj h
    simp only [Bool.and_eq_true, Bool.not_eq_true', Bool.and_eq_false_iff,
      Option.isNone_eq_false_iff] at hword
    unfold Operand.classify
    cases hcell : Cell.ofText? s with
    | some c => exact Cell.ofText?_eq_some_iff.1 hcell
    | none =>
      rw [hcell, Option.isSome_none] at hword
      refine ⟨String.toList_ofList.symm, ?_⟩
      rw [IsName, String.toList_ofList]
      exact ⟨hword.1, hword.2.resolve_right Bool.false_ne_true⟩
  · intro h
    have hword := h.isWord
    cases o with
    | cell c =>
      have hread := Cell.ofText?_eq_some_iff.2 h
      simp [readOperand?, Operand.classify, hread, hword]
    | name n =>
      obtain ⟨rfl, hname⟩ := h
      simp [readOperand?, Operand.classify, hname.ofText?_eq_none, hword, hname.2]

end Words

namespace Line

variable {code rest : Text}

section Readers

theorem readInit?_eq_some_iff {i : SyscallInit} :
    readInit? rest = some i ↔ i.WrittenAs ("INIT ".toList ++ rest) := by
  constructor
  · intro h
    unfold readInit? at h
    split at h
    · next name before cell after count hwords =>
      split_ifs at h with hkeywords
      simp only [Bool.and_eq_true, decide_eq_true_eq] at hkeywords
      obtain ⟨⟨hname, rfl⟩, rfl⟩ := hkeywords
      split at h
      · next hcell hcount =>
        obtain rfl := Option.some.inj h
        obtain ⟨-, -, hrest⟩ := Text.splitOn_eq_iff.1 hwords
        obtain ⟨hdigits, hlt⟩ := Numeral.readBelow?_eq_some_iff.1 hcount
        refine ⟨cell, count, ?_, isSyscallName_iff.1 ?_, Cell.ofText?_eq_some_iff.1 hcell,
          hdigits, hlt⟩
        · rw [hrest, String.toList_ofList]
          simp [List.intercalate]
        · rwa [String.toList_ofList]
      · cases h
    · cases h
  · rintro ⟨cell, count, hcode, hname, hcell, hcount, hlt⟩
    obtain rfl := List.append_cancel_left hcode
    have hblank {s : Text} (hs : Text.isWord s) : ' ' ∉ s := Text.not_mem_of_isWord hs (by decide)
    have hwords : (i.syscall.toList ++ (" AT ".toList ++ (cell ++ (" WITH ".toList ++
        count)))).splitOn ' ' = [i.syscall.toList, "AT".toList, cell, "WITH".toList, count] := by
      refine Text.splitOn_eq_iff.2 ⟨List.cons_ne_nil _ _, ?_, by simp [List.intercalate]⟩
      simp only [List.forall_mem_cons]
      exact ⟨hblank hname.isWord, by decide, hblank hcell.isWord, by decide, hblank hcount.isWord,
        List.forall_mem_nil _⟩
    have hcount' : Numeral.readBelow? UInt64.size count = some i.argumentCount :=
      Numeral.readBelow?_eq_some_iff.2 ⟨hcount, hlt⟩
    rw [readInit?, hwords]
    simp only [isSyscallName_iff.2 hname, Cell.ofText?_eq_some_iff.2 hcell, hcount',
      String.ofList_toList]
    rfl

theorem readMove?_eq_some_iff {m : Move} :
    readMove? rest = some m ↔ m.WrittenAs ("MOV ".toList ++ rest) := by
  constructor
  · intro h
    unfold readMove? at h
    split at h
    · next source destination hwords =>
      split at h
      · next hsource hdestination =>
        obtain rfl := Option.some.inj h
        obtain ⟨-, -, rfl⟩ := Text.splitOn_eq_iff.1 hwords
        exact ⟨source, destination, by simp [List.intercalate], readOperand?_eq_some_iff.1 hsource,
          readOperand?_eq_some_iff.1 hdestination⟩
      · cases h
    · cases h
  · rintro ⟨source, destination, hcode, hsource, hdestination⟩
    obtain rfl := List.append_cancel_left hcode
    have hblank {o : Operand} {s : Text} (ho : o.WrittenAs s) : ' ' ∉ s :=
      Text.not_mem_of_isWord ho.isWord (by decide)
    rw [readMove?, List.splitOn_append_cons_self_of_not_mem (hblank hsource),
      List.splitOn_eq_singleton (hblank hdestination)]
    simp only [readOperand?_eq_some_iff.2 hsource, readOperand?_eq_some_iff.2 hdestination]

section Calls

variable {s : Text} {arguments : List Operand}

/-- Neither white space nor arguments have a closing bracket in them. -/
theorem closing_not_mem_arguments (h : Call.ArgumentsWrittenAs arguments s) : ')' ∉ s := by
  intro hmem
  rcases h with ⟨hblank, -⟩ | hitems
  · exact absurd (Text.trim_eq_nil_iff.1 hblank _ hmem) (by decide)
  · obtain ⟨piece, hpiece, hc⟩ := Text.exists_mem_splitOn (a := ',') hmem (by decide)
    obtain ⟨argument, -, hargument⟩ := exists_of_mem_left hitems (List.mem_map_of_mem hpiece)
    exact Text.not_mem_of_isWord hargument.isWord (by decide) (Text.mem_trim_of_mem hc (by decide))

/-- A text of white space is no operand and has no comma in it. -/
theorem trim_ne_nil_of_arguments
    (h : List.Forall₂ (fun item argument => Operand.WrittenAs argument item) s.items arguments) :
    s.trim ≠ [] := by
  obtain ⟨piece, hpiece⟩ := List.exists_mem_of_ne_nil _ (List.splitOn_ne_nil ',' s)
  obtain ⟨argument, -, hargument⟩ := exists_of_mem_left h (List.mem_map_of_mem hpiece)
  obtain ⟨hne, hword⟩ := Text.isWord_iff.1 hargument.isWord
  obtain ⟨c, hc⟩ := List.exists_mem_of_ne_nil _ hne
  exact Text.trim_ne_nil_of_mem ((Text.infix_of_mem_splitOn hpiece).mem (Text.mem_of_mem_trim hc))
    (Text.isBlank_of_isWordChar (hword c hc))

theorem readArguments?_eq_some_iff :
    readArguments? s = some arguments ↔ Call.ArgumentsWrittenAs arguments s := by
  have hread : readArguments? s =
      if s.trim.isEmpty then some [] else s.items.mapM readOperand? := rfl
  have hmap : s.items.mapM readOperand? = some arguments ↔
      List.Forall₂ (fun item argument => Operand.WrittenAs argument item) s.items arguments := by
    simp only [mapM_eq_some_iff, readOperand?_eq_some_iff]
  by_cases hblank : s.trim = []
  · rw [hread, if_pos (List.isEmpty_iff.2 hblank), Option.some.injEq]
    constructor
    · rintro rfl
      exact .inl ⟨hblank, rfl⟩
    · rintro (⟨-, rfl⟩ | hitems)
      · rfl
      · exact absurd hblank (trim_ne_nil_of_arguments hitems)
  · rw [hread, if_neg (mt List.isEmpty_iff.1 hblank), hmap]
    exact ⟨.inr, fun h => h.resolve_left fun h => hblank h.1⟩

theorem readCall?_eq_some_iff {c : Call} : readCall? code = some c ↔ c.WrittenAs code := by
  constructor
  · intro h
    unfold readCall? at h
    split at h
    · cases h
    next name rest hcut =>
    split at h
    · cases h
    next arguments hbefore =>
    split_ifs at h with hname
    obtain ⟨operands, hoperands, rfl⟩ := Option.map_eq_some_iff.1 h
    rw [Bool.and_eq_true] at hname
    obtain ⟨hcode, -⟩ := (Text.cut?_char_eq_some_iff (c := '(') rfl).1 hcut
    refine ⟨arguments, ?_, isSyscallName_iff.1 ?_, readArguments?_eq_some_iff.1 hoperands⟩
    · show code = (String.ofList name).toList ++ '(' :: (arguments ++ [')'])
      rw [String.toList_ofList, hcode, Text.before?_eq_some_iff.1 hbefore]
      rfl
    · rw [String.toList_ofList]
      exact hname.1
  · rintro ⟨arguments, rfl, hname, harguments⟩
    have hbracket : '(' ∉ c.syscall.toList := Text.not_mem_of_isWord hname.isWord (by decide)
    have hcut : Text.cut? (c.syscall.toList ++ '(' :: (arguments ++ [')'])) "(" =
        some (c.syscall.toList, arguments ++ [')']) :=
      (Text.cut?_char_eq_some_iff rfl).2 ⟨rfl, hbracket⟩
    have hbefore : Text.before? (arguments ++ [')']) ")" = some arguments :=
      Text.before?_eq_some_iff.2 rfl
    rw [readCall?, hcut]
    simp only [hbefore, isSyscallName_iff.2 hname, List.contains_eq_mem,
      closing_not_mem_arguments harguments, decide_false, Bool.not_false, Bool.and_self, if_true,
      readArguments?_eq_some_iff.2 harguments, Option.map_some, String.ofList_toList]

end Calls

section Assignments

variable {s : Text} {t : Target} {a : Assign} {e : SyntaxError}

theorem readTarget_eq_ok_iff : readTarget s = .ok t ↔ t.WrittenAs s := by
  constructor
  · intro h
    unfold readTarget at h
    split_ifs at h with hdots hshape hword
    · split at h
      · next range hrange =>
        obtain rfl := Except.ok.inj h
        exact CellRange.ofText_eq_ok_iff.1 hrange
      · cases h
    · split at h
      · next c hc =>
        obtain rfl := Except.ok.inj h
        exact Cell.ofText?_eq_some_iff.1 hc
      · cases h
    · obtain rfl := Except.ok.inj h
      refine ⟨String.toList_ofList.symm, ?_⟩
      rw [IsName, String.toList_ofList]
      exact ⟨hword, Bool.eq_false_iff.2 hshape⟩
  · intro h
    cases t with
    | cell c =>
      have hread := Cell.ofText?_eq_some_iff.2 h
      rw [readTarget, Text.hasPart_dots_of_isWord (Cell.WrittenAs.isWord h),
        Cell.WrittenAs.isShaped h, hread]
      rfl
    | range r =>
      rw [readTarget, if_pos ((Text.hasPart_iff (by decide)).2 (CellList.dots_infix_of_range h)),
        CellRange.ofText_eq_ok_iff.2 h]
    | name n =>
      obtain ⟨rfl, hname⟩ := h
      rw [readTarget, Text.hasPart_dots_of_isWord hname.1, hname.2, hname.1, String.ofList_toList]
      rfl

theorem rejected_of_readTarget (h : readTarget s = .error e) : Target.Rejected s e := by
  by_cases hdots : "..".toList <:+: s
  · rw [readTarget, if_pos ((Text.hasPart_iff (by decide)).2 hdots)] at h
    split at h
    · cases h
    · next e' hrange =>
      obtain rfl := Except.error.inj h
      exact .range hdots (CellRange.ofText_eq_error_iff.1 hrange)
  · have hnone (t : Target) : ¬ t.WrittenAs s := by
      intro ht
      rw [readTarget_eq_ok_iff.2 ht] at h
      cases h
    rw [readTarget, if_neg (mt (Text.hasPart_iff (by decide)).1 hdots)] at h
    obtain rfl : e = .invalidAssign := by
      split_ifs at h
      · split at h
        · cases h
        · exact (Except.error.inj h).symm
      · exact (Except.error.inj h).symm
    exact .other hdots hnone

theorem readTarget_eq_error_iff : readTarget s = .error e ↔ Target.Rejected s e := by
  refine ⟨rejected_of_readTarget, fun h => ?_⟩
  cases h with
  | range hdots h =>
    rw [readTarget, if_pos ((Text.hasPart_iff (by decide)).2 hdots),
      CellRange.ofText_eq_error_iff.2 h]
  | other hdots h =>
    cases hread : readTarget s with
    | ok t => exact absurd (readTarget_eq_ok_iff.1 hread) (h t)
    | error e =>
      cases rejected_of_readTarget hread with
      | range hdots' _ => exact absurd hdots' hdots
      | other _ _ => rfl

theorem readAssign_of_blank {target : Text} (h : ' ' ∉ target) (value : Text) :
    readAssign (target ++ ' ' :: value) =
      (readTarget target).map fun target => ⟨target, Value.ofText value⟩ := by
  have hcut : Text.cut? (target ++ ' ' :: value) " " = some (target, value) :=
    (Text.cut?_char_eq_some_iff rfl).2 ⟨rfl, h⟩
  rw [readAssign, hcut]

theorem readAssign_of_no_blank (h : ' ' ∉ rest) : readAssign rest = .error .invalidAssign := by
  rw [readAssign, (Text.cut?_char_eq_none_iff rfl).2 h]

theorem exists_target (rest : Text) :
    ' ' ∉ rest ∨ ∃ target value, rest = target ++ ' ' :: value ∧ ' ' ∉ target := by
  cases hcut : rest.cut? " " with
  | none => exact .inl ((Text.cut?_char_eq_none_iff rfl).1 hcut)
  | some parts => exact .inr ⟨parts.1, parts.2, (Text.cut?_char_eq_some_iff rfl).1 hcut⟩

theorem readAssign_eq_ok_iff :
    readAssign rest = .ok a ↔ a.WrittenAs ("SET ".toList ++ rest) := by
  constructor
  · intro h
    rcases exists_target rest with hnone | ⟨target, value, rfl, hblank⟩
    · rw [readAssign_of_no_blank hnone] at h
      cases h
    · rw [readAssign_of_blank hblank, map_eq_ok] at h
      obtain ⟨t, ht, rfl⟩ := h
      exact ⟨target, value, rfl, hblank, readTarget_eq_ok_iff.1 ht, rfl⟩
  · rintro ⟨target, value, hcode, hblank, htarget, hvalue⟩
    obtain rfl := List.append_cancel_left hcode
    rw [readAssign_of_blank hblank, readTarget_eq_ok_iff.2 htarget, ← hvalue]
    rfl

theorem readAssign_eq_error_iff :
    readAssign rest = .error e ↔ Assign.Rejected ("SET ".toList ++ rest) e := by
  constructor
  · intro h
    rcases exists_target rest with hnone | ⟨target, value, rfl, hblank⟩
    · rw [readAssign_of_no_blank hnone] at h
      obtain rfl := Except.error.inj h
      exact .blank rfl hnone
    · rw [readAssign_of_blank hblank, map_eq_error] at h
      exact .target rfl hblank (rejected_of_readTarget h)
  · intro h
    cases h with
    | blank hcode hnone =>
      obtain rfl := List.append_cancel_left hcode
      exact readAssign_of_no_blank hnone
    | target hcode hblank h =>
      obtain rfl := List.append_cancel_left hcode
      rw [readAssign_of_blank hblank, readTarget_eq_error_iff.2 h]
      rfl

end Assignments

end Readers

section Lines

variable {number : Nat} {position : Position} {e : SyntaxError}

theorem readAt_eq_init_iff {i : SyscallInit} :
    readAt number code = .ok (some (.command position (.init i))) ↔
      position = ⟨number, 0⟩ ∧ i.WrittenAs code := by
  rw [readAt_eq_command_iff]
  refine and_congr_right fun _ => ⟨?_, ?_⟩
  · intro h
    cases h with
    | init hcode _ hread => exact hcode ▸ readInit?_eq_some_iff.1 hread
  · intro h
    obtain ⟨cell, count, rfl, hname, -⟩ := id h
    exact .init rfl (hname.startsWith _) (readInit?_eq_some_iff.2 h)

theorem readAt_eq_call_iff {c : Call} :
    readAt number code = .ok (some (.command position (.call c))) ↔
      position = ⟨number, 0⟩ ∧ c.WrittenAs code := by
  rw [readAt_eq_command_iff]
  refine and_congr_right fun _ => ⟨?_, ?_⟩
  · intro h
    cases h with
    | call _ hread => exact readCall?_eq_some_iff.1 hread
  · intro h
    obtain ⟨arguments, rfl, hname, -⟩ := id h
    exact .call (hname.startsWith _) (readCall?_eq_some_iff.2 h)

theorem readAt_eq_move_iff {m : Move} :
    readAt number code = .ok (some (.command position (.move m))) ↔
      position = ⟨number, 0⟩ ∧ m.WrittenAs code := by
  rw [readAt_eq_command_iff]
  refine and_congr_right fun _ => ⟨?_, ?_⟩
  · intro h
    cases h with
    | move hcode hread => exact hcode ▸ readMove?_eq_some_iff.1 hread
  · intro h
    obtain ⟨source, destination, rfl, -⟩ := id h
    exact .move rfl (readMove?_eq_some_iff.2 h)

theorem readAt_eq_assign_iff {a : Assign} :
    readAt number code = .ok (some (.command position (.assign a))) ↔
      position = ⟨number, 0⟩ ∧ a.WrittenAs code := by
  rw [readAt_eq_command_iff]
  refine and_congr_right fun _ => ⟨?_, ?_⟩
  · intro h
    cases h with
    | assign hcode hread => exact hcode ▸ readAssign_eq_ok_iff.1 hread
  · intro h
    obtain ⟨target, value, rfl, -⟩ := id h
    exact .assign rfl (readAssign_eq_ok_iff.2 h)

theorem init_rejected_iff (h : code.startsWith "INIT SYS_") :
    readAt number code = .error e ↔ e = .invalidInit ∧ ∀ i : SyscallInit, ¬ i.WrittenAs code := by
  obtain ⟨rest, hrest⟩ := startsWith_init_iff.1 h
  obtain ⟨rfl, hsyscall⟩ := afterInit?_eq_some_iff.1 hrest
  simp only [readAt_eq_error_iff, ofCode_init hsyscall, map_eq_error, orError_eq_error, ne_eq,
    readInit?_eq_some_iff]

theorem call_rejected_iff (h : code.startsWith "SYS_") :
    readAt number code = .error e ↔ e = .invalidCall ∧ ∀ c : Call, ¬ c.WrittenAs code := by
  simp only [readAt_eq_error_iff, ofCode_call h, map_eq_error, orError_eq_error, ne_eq,
    readCall?_eq_some_iff]

theorem move_rejected_iff (h : code.startsWith "MOV ") :
    readAt number code = .error e ↔ e = .invalidMove ∧ ∀ m : Move, ¬ m.WrittenAs code := by
  obtain ⟨rest, rfl⟩ := Text.startsWith_iff.1 h
  simp only [readAt_eq_error_iff, ofCode_move, map_eq_error, orError_eq_error, ne_eq,
    readMove?_eq_some_iff]

theorem assign_rejected_iff (h : code.startsWith "SET ") :
    readAt number code = .error e ↔ Assign.Rejected code e := by
  obtain ⟨rest, rfl⟩ := Text.startsWith_iff.1 h
  rw [readAt_eq_error_iff, ofCode_assign, map_eq_error, readAssign_eq_error_iff]

/-- A line is an operation just if the grammar says so. A line that starts like an operation and is
none is rejected, with the error of that operation or of the range that the target is not. -/
theorem operations_read_exactly (number : Nat) (code : Text) :
    (∀ position i, readAt number code = .ok (some (.command position (.init i))) ↔
      position = ⟨number, 0⟩ ∧ i.WrittenAs code) ∧
    (∀ position c, readAt number code = .ok (some (.command position (.call c))) ↔
      position = ⟨number, 0⟩ ∧ c.WrittenAs code) ∧
    (∀ position m, readAt number code = .ok (some (.command position (.move m))) ↔
      position = ⟨number, 0⟩ ∧ m.WrittenAs code) ∧
    (∀ position a, readAt number code = .ok (some (.command position (.assign a))) ↔
      position = ⟨number, 0⟩ ∧ a.WrittenAs code) ∧
    (code.startsWith "INIT SYS_" → ∀ e, readAt number code = .error e ↔
      e = .invalidInit ∧ ∀ i : SyscallInit, ¬ i.WrittenAs code) ∧
    (code.startsWith "SYS_" → ∀ e, readAt number code = .error e ↔
      e = .invalidCall ∧ ∀ c : Call, ¬ c.WrittenAs code) ∧
    (code.startsWith "MOV " → ∀ e, readAt number code = .error e ↔
      e = .invalidMove ∧ ∀ m : Move, ¬ m.WrittenAs code) ∧
    (code.startsWith "SET " → ∀ e, readAt number code = .error e ↔ Assign.Rejected code e) :=
  ⟨fun _ _ => readAt_eq_init_iff, fun _ _ => readAt_eq_call_iff, fun _ _ => readAt_eq_move_iff,
    fun _ _ => readAt_eq_assign_iff, fun h _ => init_rejected_iff h, fun h _ => call_rejected_iff h,
    fun h _ => move_rejected_iff h, fun h _ => assign_rejected_iff h⟩

/-- A number past 32 bits makes neither a cell nor a name, and one `C` alone is a name. -/
example : readAt 0 "MOV C C4294967296".toList = .error .invalidMove ∧
    readAt 0 "MOV C C007".toList =
      .ok (some (.command ⟨0, 0⟩ (.move ⟨.name "C", .cell ⟨7⟩⟩))) := by
  decide +kernel

end Lines

end Line

end CellCheck
