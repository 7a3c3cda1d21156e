import CellCheck.Proofs.Cell.Grammar
import CellCheck.Proofs.Statement.Dispatch
import CellCheck.Proofs.Value

/-!
# The grammar of declarations

    parameter := "PARAM " name " (" list "):" declared [ "=" value ]
    variable  := name " (" list ") = " value
    declared  := kind [ "[" digit { digit } "]" ]

White space may surround `declared` and the value. A name has no blank, a list of cells no closing
bracket, and `declared` no equals sign. So the separators are found where the grammar has them,
whatever the value looks like.
-/

namespace CellCheck

/-- Nothing, or a 32-bit number in brackets. -/
def IsSize (s : Text) : Option Nat → Prop
  | none => s = []
  | some n => ∃ digits, s = '[' :: (digits ++ [']']) ∧ Numeral.Writes 10 digits n ∧ n ≤ 4294967295

/-- The texts between the separators of a parameter declaration. -/
structure Param.Source where
  name : Text
  list : Text
  declared : Text
  value : Option Text

namespace Param.Source

def valueCode : Option Text → Text
  | none => []
  | some value => '=' :: value

def afterKeyword (s : Source) : Text :=
  s.name ++ (" (".toList ++ (s.list ++ ("):".toList ++ (s.declared ++ valueCode s.value))))

def code (s : Source) : Text := "PARAM ".toList ++ s.afterKeyword

structure Declares (s : Source) (p : Param) : Prop where
  name : s.name = p.name.toList
  word : Text.isWord s.name
  cells : CellList.ofText s.list = .ok p.cells
  equals : '=' ∉ s.declared
  kind : ∃ size, s.declared.trim = p.kind.name.toList ++ size ∧ IsSize size p.size
  filled : ∀ value ∈ s.value, value.trim ≠ []
  value : p.value = s.value.map Value.ofText

theorem valueCode_suffix (s : Source) : valueCode s.value <:+ s.code := by
  have hlist : valueCode s.value <:+ s.list ++ ("):".toList ++ (s.declared ++ valueCode s.value)) :=
    ((List.suffix_append _ _).trans (List.suffix_append _ _)).trans (List.suffix_append _ _)
  exact ((hlist.trans (List.suffix_append _ _)).trans (List.suffix_append _ _)).trans
    (List.suffix_append _ _)

end Param.Source

structure Variable.Source where
  name : Text
  list : Text
  value : Text

namespace Variable.Source

def code (s : Source) : Text :=
  s.name ++ (" (".toList ++ (s.list ++ (") = ".toList ++ s.value)))

structure Declares (s : Source) (v : Variable) : Prop where
  name : s.name = v.name.toList
  word : Text.isWord s.name
  cells : CellList.ofText s.list = .ok v.cells
  filled : s.value.trim ≠ []
  value : v.value = Value.ofText s.value

theorem value_suffix (s : Source) : s.value <:+ s.code := by
  have hlist : s.value <:+ s.list ++ (") = ".toList ++ s.value) :=
    (List.suffix_append _ _).trans (List.suffix_append _ _)
  exact (hlist.trans (List.suffix_append _ _)).trans (List.suffix_append _ _)

end Variable.Source

section Separators

variable {list : Text} {cells : List Cell} {c : Char}

theorem CellRange.WrittenAs.mem {r : CellRange} {s : Text} (h : r.WrittenAs s) (hmem : c ∈ s)
    (hblank : Text.isBlank c = false) : Text.isWordChar c ∨ c = '.' := by
  obtain ⟨left, right, rfl, hfirst, hlast, -⟩ := h
  have hside {side : Text} {cell : Cell} (hside : cell.WrittenAs side.trim) (hc : c ∈ side) :
      Text.isWordChar c :=
    (Text.isWord_iff.1 hside.isWord).2 c (Text.mem_trim_of_mem hc hblank)
  rcases List.mem_append.1 hmem with hmem | hright
  · rcases List.mem_append.1 hmem with hleft | hdots
    · exact .inl (hside hfirst hleft)
    · exact .inr (by simpa using hdots)
  · exact .inl (hside hlast hright)

/-- What a list of cells is made of. -/
theorem CellList.mem_of_ofText (h : CellList.ofText list = .ok cells) (hmem : c ∈ list) :
    Text.isWordChar c ∨ c = '.' ∨ c = ',' ∨ Text.isBlank c := by
  by_cases hcomma : c = ','
  · exact .inr (.inr (.inl hcomma))
  cases hblank : Text.isBlank c with
  | true => exact .inr (.inr (.inr rfl))
  | false =>
    obtain ⟨parts, hparts, -⟩ := CellList.ofText_eq_ok_iff.1 h
    obtain ⟨piece, hpiece, hc⟩ := Text.exists_mem_splitOn hmem hcomma
    obtain ⟨part, -, hitem⟩ := exists_of_mem_left hparts (List.mem_map_of_mem hpiece)
    have hc' : c ∈ Text.trim piece := Text.mem_trim_of_mem hc hblank
    cases hitem with
    | cell hcell => exact .inl ((Text.isWord_iff.1 hcell.isWord).2 c hc')
    | range hrange _ => exact (hrange.mem hc' hblank).imp_right .inl

theorem CellList.closing_not_mem (h : CellList.ofText list = .ok cells) : ')' ∉ list := by
  intro hmem
  rcases CellList.mem_of_ofText h hmem with hc | hc | hc | hc
  · exact absurd hc (by decide)
  · cases hc
  · cases hc
  · exact absurd hc (by decide)

/-- The blank after a name and the bracket after a list are the first ones. -/
theorem heading_inj {name name' list' rest rest' : Text} (hname : Text.isWord name)
    (hname' : Text.isWord name') (hlist : ')' ∉ list) (hlist' : ')' ∉ list')
    (h : name ++ ' ' :: '(' :: (list ++ ')' :: rest) =
      name' ++ ' ' :: '(' :: (list' ++ ')' :: rest')) :
    name = name' ∧ list = list' ∧ rest = rest' := by
  have hblank {word : Text} (hword : Text.isWord word) : ' ' ∉ word :=
    Text.not_mem_of_isWord hword (by decide)
  obtain ⟨rfl, hafter⟩ := Text.append_cons_inj (hblank hname) (hblank hname') h
  obtain ⟨rfl, rfl⟩ := Text.append_cons_inj hlist hlist' (List.cons.inj hafter).2
  exact ⟨rfl, rfl, rfl⟩

end Separators

theorem DataKind.ofName_eq_ok_iff {name : String} {kind : DataKind} :
    DataKind.ofName name = .ok kind ↔ name = kind.name := by
  constructor
  · intro h
    unfold DataKind.ofName at h
    split_ifs at h with hint hstruct hpointer
    · exact Except.ok.inj h ▸ hint
    · exact Except.ok.inj h ▸ hstruct
    · exact Except.ok.inj h ▸ hpointer
  · rintro rfl
    exact DataKind.ofName_name kind

theorem DataKind.isWord_name (kind : DataKind) : Text.isWord kind.name.toList := by
  cases kind <;> decide

theorem Value.ofText_trim (s : Text) : Value.ofText s.trim = Value.ofText s := by
  simp only [Value.ofText, Text.trim_trim]

namespace Line

section Variables

variable {code : Text} {v : Variable}

theorem exists_source_of_readVariable (h : readVariable code = .ok v) :
    ∃ s : Variable.Source, s.code = code ∧ s.Declares v := by
  unfold readVariable at h
  split at h
  · cases h
  next name afterName hname =>
  split at h
  · cases h
  next list value hlist =>
  split_ifs at h with hparts
  simp only [Bool.and_eq_true, Bool.not_eq_true', List.isEmpty_eq_false_iff] at hparts
  split at h
  · cases h
  next cells hcells =>
  obtain rfl := Except.ok.inj h
  refine ⟨⟨name, list, value⟩, ?_, ?_⟩
  · rw [Text.cut?_eq_some hname, Text.cut?_eq_some hlist, List.append_assoc, List.append_assoc]
    rfl
  · exact ⟨String.toList_ofList.symm, hparts.1, hcells, hparts.2, rfl⟩

theorem readVariable_of_source {s : Variable.Source} (h : s.Declares v) :
    readVariable s.code = .ok v := by
  have hname : s.code.cut? " (" = some (s.name, s.list ++ (") = ".toList ++ s.value)) :=
    Text.cut?_append rfl (Text.not_mem_of_isWord h.word (by decide))
  have hlist : Text.cut? (s.list ++ (") = ".toList ++ s.value)) ") = " = some (s.list, s.value) :=
    Text.cut?_append rfl (CellList.closing_not_mem h.cells)
  have hfilled : s.value.trim.isEmpty = false := List.isEmpty_eq_false_iff.2 h.filled
  rw [readVariable, hname]
  dsimp only
  rw [hlist]
  simp only [h.word, hfilled, Bool.not_false, Bool.and_self, if_true, h.cells]
  rw [h.name, String.ofList_toList, ← h.value]

theorem readVariable_eq_ok_iff :
    readVariable code = .ok v ↔ ∃ s : Variable.Source, s.code = code ∧ s.Declares v := by
  constructor
  · exact exists_source_of_readVariable
  · rintro ⟨s, rfl, h⟩
    exact readVariable_of_source h

/-- A variable declaration has the marks of one if its cells start right behind the bracket or the
value has a bracket with a cell in it. -/
theorem looksLikeVariable_source (s : Variable.Source) :
    looksLikeVariable s.code ↔ "(C".toList <:+: s.code := by
  have hclosing : ')' ∈ s.code := by simp [Variable.Source.code]
  have hequals : '=' ∈ s.code := by simp [Variable.Source.code]
  simp only [looksLikeVariable, Bool.and_eq_true, List.contains_iff_mem, hclosing, hequals,
    and_true]
  exact Text.hasPart_iff (by decide)

theorem source_unique_of_variable {s s' : Variable.Source} {v' : Variable}
    (hcode : s.code = s'.code) (h : s.Declares v) (h' : s'.Declares v') : s = s' := by
  obtain ⟨name, list, value⟩ := s
  obtain ⟨name', list', value'⟩ := s'
  obtain ⟨rfl, rfl, hrest⟩ := heading_inj h.word h'.word (CellList.closing_not_mem h.cells)
    (CellList.closing_not_mem h'.cells) hcode
  have hvalue : " = ".toList ++ value = " = ".toList ++ value' := hrest
  obtain rfl := List.append_cancel_left hvalue
  rfl

end Variables

section Parameters

variable {code rest declared kind : Text} {size : Option Nat} {p : Param}

theorem kindAndSize?_eq_some_iff : kindAndSize? declared = some (kind, size) ↔
    '[' ∉ kind ∧ ∃ brackets, declared = kind ++ brackets ∧ IsSize brackets size := by
  cases hcut : declared.cut? "[" with
  | none =>
    have hbracket := (Text.cut?_char_eq_none_iff (c := '[') rfl).1 hcut
    rw [kindAndSize?, hcut]
    constructor
    · intro h
      obtain ⟨rfl, rfl⟩ := Prod.mk.inj (Option.some.inj h)
      exact ⟨hbracket, [], (List.append_nil _).symm, rfl⟩
    · rintro ⟨-, brackets, rfl, hsize⟩
      cases size with
      | none => rw [show brackets = [] from hsize, List.append_nil]
      | some n =>
        obtain ⟨digits, rfl, -⟩ := hsize
        exact absurd (by simp) hbracket
  | some parts =>
    obtain ⟨front, back⟩ := parts
    obtain ⟨rfl, hbracket⟩ := (Text.cut?_char_eq_some_iff (c := '[') rfl).1 hcut
    rw [kindAndSize?, hcut]
    simp only [Option.map_eq_some_iff, Option.bind_eq_some_iff, Text.before?_eq_some_iff,
      Numeral.readBelow?_eq_some_iff, Prod.mk.injEq]
    constructor
    · rintro ⟨n, ⟨digits, rfl, hdigits, hlt⟩, rfl, rfl⟩
      exact ⟨hbracket, _, rfl, digits, rfl, hdigits, Nat.le_of_lt_succ hlt⟩
    · rintro ⟨hkind, brackets, hdeclared, hsize⟩
      cases size with
      | none =>
        rw [show brackets = [] from hsize, List.append_nil] at hdeclared
        exact absurd (hdeclared ▸ by simp) hkind
      | some n =>
        obtain ⟨digits, rfl, hdigits, hle⟩ := hsize
        obtain ⟨rfl, rfl⟩ := Text.append_cons_inj hbracket hkind hdeclared
        exact ⟨n, ⟨digits, rfl, hdigits, Nat.lt_succ_of_le hle⟩, rfl, rfl⟩

theorem declaredAndValue_valueCode (h : '=' ∉ declared) (value : Option Text) :
    declaredAndValue (declared ++ Param.Source.valueCode value) =
      (declared.trim, value.map Text.trim) := by
  cases value with
  | none =>
    rw [Param.Source.valueCode, List.append_nil, declaredAndValue,
      (Text.cut?_char_eq_none_iff rfl).2 h]
    rfl
  | some value =>
    have hcut : Text.cut? (declared ++ Param.Source.valueCode (some value)) "=" =
        some (declared, value) := (Text.cut?_char_eq_some_iff rfl).2 ⟨rfl, h⟩
    rw [declaredAndValue, hcut]
    rfl

theorem exists_declaredAndValue (rest : Text) : ∃ declared value,
    '=' ∉ declared ∧ rest = declared ++ Param.Source.valueCode value := by
  cases hcut : rest.cut? "=" with
  | none => exact ⟨rest, none, (Text.cut?_char_eq_none_iff rfl).1 hcut, (List.append_nil _).symm⟩
  | some parts =>
    obtain ⟨hrest, hequals⟩ := (Text.cut?_char_eq_some_iff rfl).1 hcut
    exact ⟨parts.1, some parts.2, hequals, hrest⟩

/-- What the texts between the separators are, before the kind and the cells are looked at. -/
theorem exists_texts_of_paramParts? {parts : ParamParts} (h : paramParts? rest = some parts) :
    ∃ s : Param.Source, s.code = "PARAM ".toList ++ rest ∧ s.name = parts.name ∧
      s.list = parts.cells ∧ Text.isWord s.name ∧ '=' ∉ s.declared ∧
      (∃ size, s.declared.trim = parts.kind ++ size ∧ IsSize size parts.size) ∧
      parts.value = s.value.map Text.trim ∧ ∀ value ∈ s.value, value.trim ≠ [] := by
  unfold paramParts? at h
  split at h
  · cases h
  next name afterName hname =>
  split at h
  · cases h
  next list afterList hlist =>
  obtain ⟨declared, value, hequals, rfl⟩ := exists_declaredAndValue afterList
  rw [declaredAndValue_valueCode hequals] at h
  dsimp only at h
  split_ifs at h with hparts
  rw [Bool.and_eq_true, bne_iff_ne] at hparts
  split at h
  · next kind size hkind =>
    split_ifs at h with hword
    obtain rfl := Option.some.inj h
    refine ⟨⟨name, list, declared, value⟩, ?_, rfl, rfl, hparts.1, hequals,
      (kindAndSize?_eq_some_iff.1 hkind).2, rfl, ?_⟩
    · rw [Text.cut?_eq_some hname, Text.cut?_eq_some hlist, List.append_assoc, List.append_assoc]
      rfl
    · rintro text htext hblank
      obtain rfl : value = some text := htext
      exact hparts.2 (congrArg some hblank)
  · cases h

theorem exists_source_of_readParam (h : readParam code rest = .ok p) :
    ∃ s : Param.Source, s.code = "PARAM ".toList ++ rest ∧ s.Declares p := by
  unfold readParam at h
  split at h
  · cases h
  next parts hparts =>
  split at h
  · cases h
  next kind hkind =>
  split at h
  · cases h
  next cells hcells =>
  obtain rfl := Except.ok.inj h
  obtain ⟨s, hcode, hname, hlist, hword, hequals, ⟨size, hdeclared, hsize⟩, hvalue, hfilled⟩ :=
    exists_texts_of_paramParts? hparts
  refine ⟨s, hcode, ?_, hword, hlist ▸ hcells, hequals, ⟨size, ?_, hsize⟩, hfilled, ?_⟩
  · rw [String.toList_ofList, hname]
  · rw [hdeclared, ← DataKind.ofName_eq_ok_iff.1 hkind, String.toList_ofList]
  · rw [hvalue, Option.map_map]
    exact congrArg (s.value.map ·) (funext Value.ofText_trim)

theorem paramParts?_afterKeyword {s : Param.Source} (hword : Text.isWord s.name)
    (hlist : ')' ∉ s.list) (hequals : '=' ∉ s.declared) (hkind : Text.isWord kind)
    (hdeclared : kindAndSize? s.declared.trim = some (kind, size))
    (hfilled : ∀ value ∈ s.value, value.trim ≠ []) :
    paramParts? s.afterKeyword = some ⟨s.name, s.list, kind, size, s.value.map Text.trim⟩ := by
  have hname : s.afterKeyword.cut? " (" =
      some (s.name, s.list ++ ("):".toList ++ (s.declared ++ Param.Source.valueCode s.value))) :=
    Text.cut?_append rfl (Text.not_mem_of_isWord hword (by decide))
  have hcells : Text.cut? (s.list ++ ("):".toList ++
      (s.declared ++ Param.Source.valueCode s.value))) "):" =
        some (s.list, s.declared ++ Param.Source.valueCode s.value) := Text.cut?_append rfl hlist
  have hvalue : (s.value.map Text.trim != some []) = true := by
    refine bne_iff_ne.2 fun hnil => ?_
    obtain ⟨value, hvalue, hblank⟩ := Option.map_eq_some_iff.1 hnil
    exact hfilled value hvalue hblank
  rw [paramParts?, hname]
  dsimp only
  rw [hcells]
  simp only [declaredAndValue_valueCode hequals, hdeclared, hword, hkind, hvalue, Bool.and_self,
    if_true]

theorem readParam_of_source {s : Param.Source} (h : s.Declares p) :
    readParam code s.afterKeyword = .ok p := by
  obtain ⟨size, hdeclared, hsize⟩ := h.kind
  have hbracket : '[' ∉ p.kind.name.toList := Text.not_mem_of_isWord p.kind.isWord_name (by decide)
  have hparts := paramParts?_afterKeyword h.word (CellList.closing_not_mem h.cells) h.equals
    p.kind.isWord_name (kindAndSize?_eq_some_iff.2 ⟨hbracket, size, hdeclared, hsize⟩) h.filled
  have hvalue : (s.value.map Text.trim).map Value.ofText = p.value := by
    rw [h.value, Option.map_map]
    exact congrArg (s.value.map ·) (funext Value.ofText_trim)
  rw [readParam, hparts]
  simp only [String.ofList_toList, DataKind.ofName_name, h.cells, hvalue, h.name]

theorem readParam_eq_ok_iff : readParam code rest = .ok p ↔
    ∃ s : Param.Source, s.code = "PARAM ".toList ++ rest ∧ s.Declares p := by
  constructor
  · exact exists_source_of_readParam
  · rintro ⟨s, hcode, h⟩
    obtain rfl := List.append_cancel_left hcode
    exact readParam_of_source h

theorem valueCode_append_inj {declared' : Text} {value value' : Option Text} (h : '=' ∉ declared)
    (h' : '=' ∉ declared') (heq : declared ++ Param.Source.valueCode value =
      declared' ++ Param.Source.valueCode value') : declared = declared' ∧ value = value' := by
  cases value with
  | none =>
    rw [Param.Source.valueCode, List.append_nil] at heq
    cases value' with
    | none => exact ⟨heq.trans (List.append_nil _), rfl⟩
    | some text' =>
      rw [heq] at h
      exact absurd (List.mem_append_right _ List.mem_cons_self) h
  | some text =>
    cases value' with
    | none =>
      rw [Param.Source.valueCode, List.append_nil] at heq
      rw [← heq] at h'
      exact absurd (List.mem_append_right _ List.mem_cons_self) h'
    | some text' =>
      obtain ⟨rfl, rfl⟩ := Text.append_cons_inj h h' heq
      exact ⟨rfl, rfl⟩

theorem source_unique_of_param {s s' : Param.Source} {p' : Param} (hcode : s.code = s'.code)
    (h : s.Declares p) (h' : s'.Declares p') : s = s' := by
  obtain ⟨name, list, declared, value⟩ := s
  obtain ⟨name', list', declared', value'⟩ := s'
  obtain ⟨rfl, rfl, hrest⟩ := heading_inj h.word h'.word (CellList.closing_not_mem h.cells)
    (CellList.closing_not_mem h'.cells) (List.append_cancel_left hcode)
  obtain ⟨rfl, rfl⟩ := valueCode_append_inj h.equals h'.equals (List.cons.inj hrest).2
  rfl

end Parameters

section Lines

variable {number : Nat} {code : Text} {position : Position}

theorem readAt_eq_param_iff {p : Param} :
    readAt number code = .ok (some (.command position (.param p))) ↔
      position = ⟨number, 0⟩ ∧ ∃ s : Param.Source, s.code = code ∧ s.Declares p := by
  rw [readAt_eq_command_iff]
  refine and_congr_right fun _ => ⟨?_, ?_⟩
  · intro h
    cases h with
    | param hcode hread =>
      obtain ⟨s, hs, hdeclares⟩ := readParam_eq_ok_iff.1 hread
      exact ⟨s, hs.trans hcode.symm, hdeclares⟩
  · rintro ⟨s, rfl, hdeclares⟩
    exact .param rfl (readParam_of_source hdeclares)

theorem readAt_eq_var_iff {v : Variable} :
    readAt number code = .ok (some (.command position (.var v))) ↔
      position = ⟨number, 0⟩ ∧ (∀ keyword ∈ keywords, code.startsWith keyword = false) ∧
        "(C".toList <:+: code ∧ ∃ s : Variable.Source, s.code = code ∧ s.Declares v := by
  rw [readAt_eq_command_iff]
  refine and_congr_right fun _ => ⟨?_, ?_⟩
  · intro h
    cases h with
    | var hkeyword hlooks hread =>
      obtain ⟨s, rfl, hdeclares⟩ := readVariable_eq_ok_iff.1 hread
      exact ⟨hkeyword, (looksLikeVariable_source s).1 hlooks, s, rfl, hdeclares⟩
  · rintro ⟨hkeyword, hcell, s, rfl, hdeclares⟩
    exact .var hkeyword ((looksLikeVariable_source s).2 hcell) (readVariable_of_source hdeclares)

/-- A line is a declaration just if it can be taken apart as the grammar says, and it can be taken
apart in one way only. -/
theorem declarations_read_exactly (number : Nat) (code : Text) :
    (∀ position p, readAt number code = .ok (some (.command position (.param p))) ↔
      position = ⟨number, 0⟩ ∧ ∃ s : Param.Source, s.code = code ∧ s.Declares p) ∧
    (∀ (s s' : Param.Source) (p p' : Param), s.code = code → s.Declares p →
      s'.code = code → s'.Declares p' → s = s') ∧
    (∀ position v, readAt number code = .ok (some (.command position (.var v))) ↔
      position = ⟨number, 0⟩ ∧ (∀ keyword ∈ keywords, code.startsWith keyword = false) ∧
        "(C".toList <:+: code ∧ ∃ s : Variable.Source, s.code = code ∧ s.Declares v) ∧
    (∀ (s s' : Variable.Source) (v v' : Variable), s.code = code → s.Declares v →
      s'.code = code → s'.Declares v' → s = s') := by
  refine ⟨fun _ _ => readAt_eq_param_iff, ?_, fun _ _ => readAt_eq_var_iff, ?_⟩
  · intro s s' p p' hcode h hcode' h'
    exact source_unique_of_param (hcode.trans hcode'.symm) h h'
  · intro s s' v v' hcode h hcode' h'
    exact source_unique_of_variable (hcode.trans hcode'.symm) h h'

/-- The separators of the line are the first ones, and those in the value belong to the value. -/
example : readAt 2 "x (C0) = y (C1) = 2".toList =
    .ok (some (.command ⟨2, 0⟩ (.var ⟨"x", [⟨0⟩], .text "y (C1) = 2"⟩))) := by
  decide +kernel

end Lines

end Line

end CellCheck
