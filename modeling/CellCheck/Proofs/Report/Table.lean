import CellCheck.Proofs.Cell.List
import CellCheck.Report.Printer

/-!
# The table of claimed cells

Each row of the table tells its cell, and it ends with a mark that tells the number of claims if
there are several. So what the printed table says of a cell can be read off its lines.
-/

namespace CellCheck

def cellField (c : Cell) : Text := "| ".toList ++ (Text.alignRight 8 c.toText ++ " | ".toList)

def claimsMark (claims : Nat) : Text :=
  ' ' :: Style.apply [.yellow] ("shared x".toList ++ Numeral.decimal claims)

/-- The table has a row of the cell that is marked as shared among that number of claims. -/
def MarksShared (table : Text) (c : Cell) (claims : Nat) : Prop :=
  ∃ row ∈ table.lines, cellField c <+: row ∧ claimsMark claims <:+ row

section Fields

theorem Cell.toText_injective {c d : Cell} (h : c.toText = d.toText) : c = d := by
  have hread := congrArg Cell.ofText? h
  rw [Cell.ofText?_toText, Cell.ofText?_toText] at hread
  exact Option.some.inj hread

theorem Numeral.decimal_injective {n k : Nat} (h : decimal n = decimal k) : n = k := by
  have hread := congrArg readDecimal? h
  rw [readDecimal?_decimal, readDecimal?_decimal] at hread
  exact Option.some.inj hread

/-- Blanks in front of a text without white space at its ends are trimmed away. -/
theorem Text.trim_alignRight {s : Text} (h : Tight s) (width : Nat) :
    trim (alignRight width s) = s := by
  rw [alignRight, List.leftpad]
  induction width - s.length with
  | zero => exact h.trim_eq
  | succ n ih => rw [List.replicate_succ, List.cons_append, trim_cons_of_isBlank (by decide), ih]

theorem Text.mem_alignRight {s : Text} {width : Nat} {c : Char} (h : c ∈ alignRight width s) :
    c = ' ' ∨ c ∈ s := by
  rcases List.mem_append.1 h with hblank | hmem
  · exact .inl (List.eq_of_mem_replicate hblank)
  · exact .inr hmem

theorem takeWhile_cellField (c : Cell) (rest : Text) :
    (Text.alignRight 8 c.toText ++ (" | ".toList ++ rest)).takeWhile (· != '|') =
      Text.alignRight 8 c.toText ++ [' '] := by
  have hbar : '|' ∉ Text.alignRight 8 c.toText ++ [' '] := by
    intro hmem
    rcases List.mem_append.1 hmem with hfield | hblank
    · rcases Text.mem_alignRight hfield with heq | hcell
      · cases heq
      · exact Text.not_mem_of_isWord c.isWord_toText (by decide) hcell
    · cases List.mem_singleton.1 hblank
  have hsplit : Text.alignRight 8 c.toText ++ (" | ".toList ++ rest) =
      (Text.alignRight 8 c.toText ++ [' ']) ++ '|' :: (' ' :: rest) := by
    rw [List.append_assoc]
    rfl
  rw [hsplit, (Text.takeWhile_bne_append hbar _).1]

/-- A row tells its cell. -/
theorem cellField_prefix_iff {c d : Cell} {rest : Text} :
    cellField c <+: cellField d ++ rest ↔ c = d := by
  constructor
  · rintro ⟨tail, htail⟩
    simp only [cellField, List.append_assoc] at htail
    have hfield := congrArg (List.takeWhile (· != '|')) (List.append_cancel_left htail)
    rw [takeWhile_cellField, takeWhile_cellField, List.append_left_inj] at hfield
    have htrim := congrArg Text.trim hfield
    rw [Text.trim_alignRight (Text.tight_of_isWord c.isWord_toText),
      Text.trim_alignRight (Text.tight_of_isWord d.isWord_toText)] at htrim
    exact Cell.toText_injective htrim
  · rintro rfl
    exact List.prefix_append _ _

theorem claimsMark_eq (n : Nat) :
    claimsMark n = (' ' :: (Style.escape 33 ++ "shared ".toList) ++ 'x' :: Numeral.decimal n) ++
      Style.escape 39 := by
  simp [claimsMark, Style.apply, Style.openingCode, Style.closingCode]

theorem getLast?_append_claimsMark (front : Text) (n : Nat) :
    (front ++ claimsMark n).getLast? = some 'm' := by
  have hclosing : Style.escape 39 = ('\x1b' :: '[' :: Numeral.decimal 39) ++ ['m'] := rfl
  rw [claimsMark_eq, hclosing, ← List.append_assoc, ← List.append_assoc]
  exact List.getLast?_concat

/-- A mark tells its number. -/
theorem claimsMark_suffix_iff {front : Text} {n k : Nat} :
    claimsMark n <:+ front ++ claimsMark k ↔ n = k := by
  constructor
  · rintro ⟨start, hstart⟩
    have hdigits (start : Text) (n : Nat) :
        ((start ++ 'x' :: Numeral.decimal n).reverse.takeWhile (· != 'x')) =
          (Numeral.decimal n).reverse := by
      have hx : 'x' ∉ (Numeral.decimal n).reverse := by
        rw [List.mem_reverse]
        intro hmem
        exact absurd (Nat.isDigit_of_mem_toDigits (by decide) (by decide) hmem) (by decide)
      rw [List.reverse_append, List.reverse_cons, List.append_assoc]
      exact (Text.takeWhile_bne_append hx _).1
    rw [claimsMark_eq, claimsMark_eq, ← List.append_assoc, ← List.append_assoc front] at hstart
    have hopened := List.append_cancel_right hstart
    rw [← List.append_assoc, ← List.append_assoc] at hopened
    have hread := congrArg (fun s : Text => s.reverse.takeWhile (· != 'x')) hopened
    simp only [hdigits, List.reverse_inj] at hread
    exact Numeral.decimal_injective hread
  · rintro rfl
    exact List.suffix_append _ _

end Fields

section Table

def Text.IsLine (s : Text) : Prop := '\n' ∉ s ∧ s.getLast? ≠ some '\r'

instance (s : Text) : Decidable s.IsLine :=
  inferInstanceAs (Decidable ('\n' ∉ s ∧ s.getLast? ≠ some '\r'))

theorem Style.isPlain_escape (code : Nat) : Text.IsPlain (escape code) := by
  rw [escape, List.cons_append, List.cons_append, Text.isPlain_cons, Text.isPlain_cons,
    Text.isPlain_append]
  exact ⟨by decide, by decide, Text.isPlain_of_isWord (Text.isWord_decimal code), by decide⟩

theorem Style.isPlain_apply (styles : List Style) {s : Text} (h : Text.IsPlain s) :
    Text.IsPlain (apply styles s) := by
  have hescapes (code : Style → Nat) :
      Text.IsPlain (styles.flatMap fun style => escape (code style)) := by
    intro c hc
    obtain ⟨style, -, hmem⟩ := List.mem_flatMap.1 hc
    exact isPlain_escape _ c hmem
  rw [apply, Text.isPlain_append, Text.isPlain_append]
  exact ⟨⟨hescapes openingCode, h⟩, hescapes closingCode⟩

namespace CellInfo

/-- The row between its cell and the closing parenthesis. -/
def rowContent (info : CellInfo) : Text :=
  Style.apply [info.kind.color] (Text.alignLeft 8 info.kind.name.toList) ++ (" | ".toList ++
    (Style.apply [.bold] info.owner.toList ++ (" (size ".toList ++ Numeral.decimal info.size)))

theorem toRow_eq (info : CellInfo) (claims : Nat) :
    info.toRow claims =
      cellField info.cell ++ (info.rowContent ++ ')' :: sharedMark claims) := by
  delta toRow cellField rowContent
  simp only [List.append_assoc]

variable {info : CellInfo} {claims n : Nat}

theorem cellField_prefix_toRow_iff {c : Cell} :
    cellField c <+: info.toRow claims ↔ c = info.cell := by
  rw [toRow_eq, cellField_prefix_iff]

/-- A row ends with the mark of its claims, or with the parenthesis if there is no mark. -/
theorem exists_toRow_eq (info : CellInfo) (claims : Nat) :
    ∃ front : Text, info.toRow claims =
      if 1 < claims then front ++ claimsMark claims else front ++ [')'] := by
  rw [toRow_eq, ← List.append_assoc, sharedMark]
  split_ifs
  · exact ⟨_, (List.append_assoc _ [')'] (claimsMark claims)).symm⟩
  · exact ⟨_, rfl⟩

theorem claimsMark_suffix_toRow_iff :
    claimsMark n <:+ info.toRow claims ↔ n = claims ∧ 1 < claims := by
  obtain ⟨front, hrow⟩ := info.exists_toRow_eq claims
  rw [hrow]
  split_ifs with hclaims
  · rw [claimsMark_suffix_iff]
    exact (and_iff_left hclaims).symm
  · refine iff_of_false ?_ fun h => hclaims h.2
    rintro ⟨start, hstart⟩
    have hlast := congrArg List.getLast? hstart
    rw [getLast?_append_claimsMark, List.getLast?_concat] at hlast
    cases hlast

theorem isPlain_rowContent (h : Text.isWord info.owner.toList) : Text.IsPlain info.rowContent := by
  have hkind : Text.IsPlain (Text.alignLeft 8 info.kind.name.toList) := by
    cases info.kind with
    | syscall => decide
    | data kind => cases kind <;> decide
  simp only [rowContent, Text.isPlain_append]
  exact ⟨Style.isPlain_apply _ hkind, by decide, Style.isPlain_apply _ (Text.isPlain_of_isWord h),
    by decide, Text.isPlain_of_isWord (Text.isWord_decimal _)⟩

theorem isPlain_toRow (h : Text.isWord info.owner.toList) : Text.IsPlain (info.toRow claims) := by
  have hfield : Text.IsPlain (cellField info.cell) := by
    simp only [cellField, Text.isPlain_append]
    refine ⟨by decide, fun c hc => ?_, by decide⟩
    rcases Text.mem_alignRight hc with rfl | hmem
    · decide
    · exact Text.isPlain_of_isWord info.cell.isWord_toText c hmem
  have hmark : Text.IsPlain (sharedMark claims) := by
    rw [sharedMark]
    split_ifs
    · refine Text.isPlain_cons.2 ⟨by decide, Style.isPlain_apply _ ?_⟩
      exact Text.isPlain_append.2 ⟨by decide, Text.isPlain_of_isWord (Text.isWord_decimal _)⟩
    · exact nofun
  rw [toRow_eq, Text.isPlain_append, Text.isPlain_append, Text.isPlain_cons]
  exact ⟨hfield, isPlain_rowContent h, by decide, hmark⟩

theorem isLine_toRow (h : Text.isWord info.owner.toList) : (info.toRow claims).IsLine := by
  refine ⟨fun hmem => (isPlain_toRow h _ hmem).2 rfl, ?_⟩
  obtain ⟨front, hrow⟩ := info.exists_toRow_eq claims
  rw [hrow]
  split_ifs
  · rw [getLast?_append_claimsMark]
    decide
  · rw [List.getLast?_concat]
    decide

end CellInfo

/-- The lines of a table are its rows between two lines that belong to no cell. -/
theorem lines_cellTable {cells : List CellInfo} (claims : Std.TreeMap Cell Nat)
    (h : ∀ info ∈ cells, Text.isWord info.owner.toList) :
    ∃ head foot : Text, head.head? = some '+' ∧ foot.head? = some '+' ∧
      (cellTable cells claims).lines =
        head :: cells.map (fun info => info.toRow (claimCount claims info.cell)) ++ [foot] := by
  let rows := cells.map fun info => info.toRow (claimCount claims info.cell)
  have hrows : ∀ row ∈ rows, row.IsLine :=
    List.forall_mem_map.2 fun info hinfo => CellInfo.isLine_toRow (h info hinfo)
  have hframed {head foot : Text} (hhead : head.IsLine) (hfoot : foot.IsLine) :
      Text.lines ((head :: rows ++ [foot]).flatMap (· ++ ['\n'])) = head :: rows ++ [foot] := by
    have hlines : ∀ line ∈ head :: rows ++ [foot], line.IsLine :=
      List.forall_mem_append.2
        ⟨List.forall_mem_cons.2 ⟨hhead, hrows⟩, List.forall_mem_singleton.2 hfoot⟩
    exact Text.lines_flatMap_newline (fun line hline => (hlines line hline).1)
      fun line hline => (hlines line hline).2
  exact ⟨_, _, by decide, by decide, hframed (by decide) (by decide)⟩

/-- A table marks a cell just if it has a row for it and the cell goes with that number of claims,
two or more. -/
theorem marksShared_cellTable_iff {cells : List CellInfo} {claims : Std.TreeMap Cell Nat}
    (h : ∀ info ∈ cells, Text.isWord info.owner.toList) {c : Cell} {n : Nat} :
    MarksShared (cellTable cells claims) c n ↔
      (∃ info ∈ cells, info.cell = c) ∧ claimCount claims c = n ∧ 1 < n := by
  obtain ⟨head, foot, hhead, hfoot, hlines⟩ := lines_cellTable claims h
  have hbar {line : Text} (hline : line.head? = some '+') : ¬ cellField c <+: line := by
    rintro ⟨rest, rfl⟩
    cases hline
  rw [MarksShared, hlines]
  constructor
  · rintro ⟨row, hrow, hfield, hmark⟩
    rw [List.cons_append, List.mem_cons, List.mem_append, List.mem_singleton] at hrow
    rcases hrow with rfl | hrow | rfl
    · exact absurd hfield (hbar hhead)
    · obtain ⟨info, hinfo, rfl⟩ := List.mem_map.1 hrow
      obtain rfl := CellInfo.cellField_prefix_toRow_iff.1 hfield
      obtain ⟨hn, hseveral⟩ := CellInfo.claimsMark_suffix_toRow_iff.1 hmark
      exact ⟨⟨info, hinfo, rfl⟩, hn.symm, hn ▸ hseveral⟩
    · exact absurd hfield (hbar hfoot)
  · rintro ⟨⟨info, hinfo, rfl⟩, rfl, hseveral⟩
    refine ⟨_, List.mem_cons_of_mem _ (List.mem_append_left _ (List.mem_map_of_mem hinfo)), ?_, ?_⟩
    · exact CellInfo.cellField_prefix_toRow_iff.2 rfl
    · exact CellInfo.claimsMark_suffix_toRow_iff.2 ⟨rfl, hseveral⟩

end Table

end CellCheck
