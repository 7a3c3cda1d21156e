import CellCheck.Proofs.Program.RoundTrip

/-!
# Statements and their lines

Each statement of a program comes from a line of its own, and the statements stand in the order of
their lines. Which loop a statement belongs to is found by going through the lines once and keeping
in mind where the open block began.
-/

namespace CellCheck

namespace Statement

def header : Statement → Statement
  | command position c => command position c
  | loop position _ => loop position []

def body : Statement → List Statement
  | command _ _ => []
  | loop _ body => body

/-- The header and the statements of the body, each with the line of the loop around it. -/
def listing (s : Statement) : List (Option Nat × Statement) :=
  (none, s.header) :: s.body.map (some s.position.line, ·)

def placed? : Statement → Option Placed
  | command position c => some ⟨position, c⟩
  | loop _ _ => none

end Statement

namespace Program

def inOrder (p : Program) : List Statement := p.statements.flatMap fun s => s.header :: s.body

def statementAt? (line : Nat × Text) : Option Statement :=
  (Line.ofCode line.2).toOption.bind (·.statement? line.1)

/-- The block that is open behind the line, known by its first line. -/
def blockAfter (block : Option Nat) (line : Nat × Text) : Option Nat :=
  match block with
  | none => if line.2 = "while:".toList then some line.1 else none
  | some first => if line.2 = "endwhile".toList then none else some first

def openBlock (source : Text) (number : Nat) : Option Nat :=
  ((numbered 0 (source.lines.map stripComment)).take number).foldl blockAfter none

/-- The program is what its lines say one by one, in blocks as the open block tells. -/
structure FollowsLines (source : Text) (p : Program) : Prop where
  no_line_rejected : ∀ line ∈ codeLines source, ∃ reading, Line.ofCode line.2 = .ok reading
  inOrder_eq : p.inOrder = (codeLines source).filterMap statementAt?
  lines_increase : p.inOrder.Pairwise fun s t => s.position.line < t.position.line
  own_line : ∀ s ∈ p.inOrder, ∃ raw, source.lines[s.position.line]? = some raw ∧
    statementAt? (s.position.line, stripComment raw) = some s
  outside : ∀ s, s ∈ p.statements.map Statement.header ↔
    s ∈ p.inOrder ∧ openBlock source s.position.line = none
  inside : ∀ t ∈ p.statements, ∀ s, s ∈ t.body ↔
    s ∈ p.inOrder ∧ openBlock source s.position.line = some t.position.line
  inner_empty : ∀ t ∈ p.statements, ∀ s ∈ t.body, s.body = []

section Scanning

def scan (block : Option Nat) : List (Nat × Text) → List (Option Nat × Statement)
  | [] => []
  | line :: rest => (statementAt? line).toList.map (block, ·) ++ scan (blockAfter block line) rest

theorem statementAt?_eq_some {line : Nat × Text} {s : Statement} (h : statementAt? line = some s) :
    s.position.line = line.1 ∧ s.body = [] := by
  obtain ⟨reading, -, hs⟩ := Option.bind_eq_some_iff.1 h
  cases reading with
  | command c =>
    obtain rfl := Option.some.inj hs
    exact ⟨rfl, rfl⟩
  | loopStart =>
    obtain rfl := Option.some.inj hs
    exact ⟨rfl, rfl⟩
  | nothing => cases hs
  | loopEnd => cases hs

theorem map_snd_scan (block : Option Nat) (lines : List (Nat × Text)) :
    (scan block lines).map Prod.snd = lines.filterMap statementAt? := by
  induction lines generalizing block with
  | nil => rfl
  | cons line rest ih =>
    rw [scan, List.map_append, ih, List.filterMap_cons]
    cases statementAt? line <;> rfl

theorem mem_scan {block b : Option Nat} {lines : List (Nat × Text)} {s : Statement} :
    (b, s) ∈ scan block lines ↔ ∃ i line, lines[i]? = some line ∧ statementAt? line = some s ∧
      b = (lines.take i).foldl blockAfter block := by
  induction lines generalizing block with
  | nil => simp [scan]
  | cons line rest ih =>
    rw [scan, List.mem_append, ih]
    constructor
    · rintro (hline | ⟨i, l, hl, hs, hb⟩)
      · obtain ⟨t, ht, hpair⟩ := List.mem_map.1 hline
        obtain ⟨rfl, rfl⟩ := Prod.mk.inj hpair
        exact ⟨0, line, rfl, Option.mem_toList.1 ht, rfl⟩
      · exact ⟨i + 1, l, hl, hs, hb⟩
    · rintro ⟨i, l, hl, hs, hb⟩
      cases i with
      | zero =>
        obtain rfl := Option.some.inj hl
        obtain rfl : b = block := hb
        exact .inl (List.mem_map.2 ⟨s, Option.mem_toList.2 hs, rfl⟩)
      | succ i => exact .inr ⟨i, l, hl, hs, hb⟩

/-- Lines without code make no statement and neither open nor close a block. -/
theorem scan_filter (block : Option Nat) (lines : List (Nat × Text)) :
    scan block (lines.filter fun line => !line.2.isEmpty) = scan block lines := by
  induction lines generalizing block with
  | nil => rfl
  | cons line rest ih =>
    obtain ⟨number, code⟩ := line
    cases code with
    | nil =>
      have hblock : blockAfter block (number, []) = block := by cases block <;> rfl
      rw [List.filter_cons_of_neg (by simp), ih, scan, hblock]
      rfl
    | cons c code => rw [List.filter_cons_of_pos rfl, scan, ih, scan]

end Scanning

section Grouping

def blockBehind (block : Option Nat) (line : Nat × Line) : Option Nat :=
  match line.2 with
  | .loopStart => block.or (some line.1)
  | .loopEnd => none
  | _ => block

def scanRead (block : Option Nat) : List (Nat × Line) → List (Option Nat × Statement)
  | [] => []
  | line :: rest =>
    (line.2.statement? line.1).toList.map (block, ·) ++ scanRead (blockBehind block line) rest

theorem loop_of_ofCode {code : Text} {reading : Line} (h : Line.ofCode code = .ok reading) :
    (reading = .loopStart → code = "while:".toList) ∧
      (reading = .loopEnd → code = "endwhile".toList) := by
  have hcommand {α : Type} {x : Except SyntaxError α} {f : α → Command}
      (hx : x.map (Line.command ∘ f) = .ok reading) :
      (reading = .loopStart → code = "while:".toList) ∧
        (reading = .loopEnd → code = "endwhile".toList) := by
    obtain ⟨a, -, rfl⟩ := map_eq_ok.1 hx
    exact ⟨nofun, nofun⟩
  unfold Line.ofCode at h
  split at h
  · exact hcommand h
  split at h
  · exact hcommand h
  split at h
  · exact hcommand h
  split at h
  · exact hcommand h
  split_ifs at h with hstart hend
  · obtain rfl := Except.ok.inj h
    exact ⟨fun _ => hstart, nofun⟩
  · obtain rfl := Except.ok.inj h
    exact ⟨nofun, fun _ => hend⟩
  · exact hcommand h
  · exact hcommand h
  · obtain rfl := Except.ok.inj h
    exact ⟨nofun, nofun⟩

theorem blockAfter_of_readLine {line : Nat × Text} {l : Nat × Line} (h : readLine line = .ok l)
    (block : Option Nat) : blockAfter block line = blockBehind block l := by
  obtain ⟨number, code⟩ := line
  obtain ⟨number', reading⟩ := l
  obtain ⟨rfl, hread⟩ := readLine_eq_ok_iff.1 h
  obtain ⟨hstart, hend⟩ := loop_of_ofCode hread
  by_cases hwhile : code = "while:".toList
  · subst hwhile
    obtain rfl : Line.loopStart = reading := Except.ok.inj hread
    cases block <;> rfl
  · by_cases hendwhile : code = "endwhile".toList
    · subst hendwhile
      obtain rfl : Line.loopEnd = reading := Except.ok.inj hread
      cases block <;> rfl
    · have hbehind : blockBehind block (number', reading) = block := by
        cases reading with
        | loopStart => exact absurd (hstart rfl) hwhile
        | loopEnd => exact absurd (hend rfl) hendwhile
        | command c => rfl
        | nothing => rfl
      rw [hbehind]
      cases block with
      | none => exact if_neg hwhile
      | some first => exact if_neg hendwhile

theorem statementAt?_of_readLine {line : Nat × Text} {l : Nat × Line} (h : readLine line = .ok l) :
    statementAt? line = l.2.statement? l.1 := by
  obtain ⟨hnumber, hread⟩ := readLine_eq_ok_iff.1 h
  rw [statementAt?, hread, hnumber]
  rfl

theorem scan_eq_scanRead {lines : List (Nat × Text)} {readings : List (Nat × Line)}
    (h : List.Forall₂ (fun line l => readLine line = .ok l) lines readings) (block : Option Nat) :
    scan block lines = scanRead block readings := by
  induction h generalizing block with
  | nil => rfl
  | cons hline _ ih =>
    rw [scan, scanRead, statementAt?_of_readLine hline, blockAfter_of_readLine hline, ih]

/-- Inside a block, the lines up to the next end make its body. -/
theorem scanRead_inside (first : Nat) (lines : List (Nat × Line)) :
    scanRead (some first) lines =
      (bodyOf (lines.takeWhile isInside)).map (some first, ·) ++
        scanRead none (lines.dropWhile isInside) := by
  induction lines with
  | nil => rfl
  | cons line rest ih =>
    obtain ⟨number, reading⟩ := line
    cases reading with
    | loopEnd => rfl
    | nothing => exact ih
    | command c => exact congrArg (_ :: ·) ih
    | loopStart => exact congrArg (_ :: ·) ih

theorem flatMap_listing_group (lines : List (Nat × Line)) :
    (group lines).flatMap Statement.listing = scanRead none lines := by
  fun_induction group lines with
  | case1 => rfl
  | case2 number c rest ih => exact congrArg (_ :: ·) ih
  | case3 number rest hlength ih =>
    rw [List.flatMap_cons, ih]
    exact congrArg (_ :: ·) (scanRead_inside number rest).symm
  | case4 number rest ih => exact ih
  | case5 number rest ih => exact ih

end Grouping

section Lines

variable {source : Text} {p : Program}

theorem getElem?_numbered {α : Type} (first i : Nat) (items : List α) :
    (numbered first items)[i]? = items[i]?.map (first + i, ·) := by
  rw [numbered, List.getElem?_map, List.getElem?_zipIdx, Option.map_map]
  rfl

theorem pairwise_numbered {α : Type} (first : Nat) (items : List α) :
    (numbered first items).Pairwise fun a b => a.1 < b.1 := by
  rw [numbered, List.pairwise_map]
  apply List.pairwise_map.1
  change ((items.zipIdx first).map Prod.snd).Pairwise (· < ·)
  rw [List.zipIdx_map_snd]
  exact List.pairwise_lt_range'

theorem listing_eq_scan (h : ofText source = .ok p) :
    p.statements.flatMap Statement.listing =
      scan none (numbered 0 (source.lines.map stripComment)) := by
  obtain ⟨readings, hread, rfl⟩ := map_eq_ok.1 h
  rw [flatMap_listing_group, ← scan_eq_scanRead (mapM_eq_ok_iff.1 hread)]
  exact scan_filter none _

theorem map_snd_listing (statements : List Statement) :
    (statements.flatMap Statement.listing).map Prod.snd =
      statements.flatMap fun s => s.header :: s.body := by
  rw [List.map_flatMap]
  simp [Statement.listing, Function.comp_def]

theorem inOrder_eq_filterMap (h : ofText source = .ok p) :
    p.inOrder = (codeLines source).filterMap statementAt? := by
  rw [inOrder, ← map_snd_listing, listing_eq_scan h, ← scan_filter, map_snd_scan]
  rfl

/-- What is listed is what the lines make, each with the block that is open at its line. -/
theorem mem_listing_iff (h : ofText source = .ok p) {b : Option Nat} {s : Statement} :
    (b, s) ∈ p.statements.flatMap Statement.listing ↔
      (∃ raw, source.lines[s.position.line]? = some raw ∧
        statementAt? (s.position.line, stripComment raw) = some s) ∧
      b = openBlock source s.position.line := by
  rw [listing_eq_scan h, mem_scan]
  constructor
  · rintro ⟨i, line, hline, hs, rfl⟩
    rw [getElem?_numbered, List.getElem?_map, Option.map_map, Option.map_eq_some_iff] at hline
    obtain ⟨raw, hraw, rfl⟩ := hline
    obtain ⟨hi, -⟩ := statementAt?_eq_some hs
    obtain rfl : i = s.position.line := by simpa using hi.symm
    refine ⟨⟨raw, hraw, ?_⟩, rfl⟩
    simpa using hs
  · rintro ⟨⟨raw, hraw, hs⟩, hb⟩
    refine ⟨s.position.line, _, ?_, hs, hb⟩
    simp [getElem?_numbered, hraw]

theorem mem_inOrder_iff (h : ofText source = .ok p) {s : Statement} :
    s ∈ p.inOrder ↔ ∃ raw, source.lines[s.position.line]? = some raw ∧
      statementAt? (s.position.line, stripComment raw) = some s := by
  rw [inOrder, ← map_snd_listing, List.mem_map]
  constructor
  · rintro ⟨⟨b, s⟩, hmem, rfl⟩
    exact ((mem_listing_iff h).1 hmem).1
  · exact fun hline => ⟨(_, s), (mem_listing_iff h).2 ⟨hline, rfl⟩, rfl⟩

theorem lines_increase (h : ofText source = .ok p) :
    p.inOrder.Pairwise fun s t => s.position.line < t.position.line := by
  rw [inOrder_eq_filterMap h]
  refine List.Pairwise.filterMap statementAt? ?_ ((pairwise_numbered 0 _).filter _)
  intro line line' hlt s hs t ht
  rwa [(statementAt?_eq_some hs).1, (statementAt?_eq_some ht).1]

theorem position_header (s : Statement) : s.header.position = s.position := by
  cases s <;> rfl

theorem eq_of_position_line_eq (h : ofText source = .ok p) {s t : Statement}
    (hs : s ∈ p.statements) (ht : t ∈ p.statements) (hline : s.position.line = t.position.line) :
    s = t := by
  have hincrease : p.statements.Pairwise fun s t => s.position.line < t.position.line := by
    refine (List.pairwise_flatMap.1 (lines_increase h)).2.imp fun hlt => ?_
    have hheader := hlt _ List.mem_cons_self _ List.mem_cons_self
    rwa [position_header, position_header] at hheader
  have hnodup : (p.statements.map (·.position.line)).Nodup :=
    List.pairwise_map.2 (hincrease.imp Nat.ne_of_lt)
  exact List.inj_on_of_nodup_map hnodup hs ht hline

theorem mem_listing_none {statements : List Statement} {s : Statement} :
    (none, s) ∈ statements.flatMap Statement.listing ↔ s ∈ statements.map Statement.header := by
  simp [Statement.listing, eq_comm]

theorem mem_listing_some {statements : List Statement} {number : Nat} {s : Statement} :
    (some number, s) ∈ statements.flatMap Statement.listing ↔
      ∃ t ∈ statements, t.position.line = number ∧ s ∈ t.body := by
  simp [Statement.listing, and_comm]

theorem mem_body_iff (h : ofText source = .ok p) {t : Statement} (ht : t ∈ p.statements)
    {s : Statement} :
    s ∈ t.body ↔ (some t.position.line, s) ∈ p.statements.flatMap Statement.listing := by
  rw [mem_listing_some]
  constructor
  · exact fun hs => ⟨t, ht, rfl, hs⟩
  · rintro ⟨t', ht', hline, hs⟩
    rwa [eq_of_position_line_eq h ht ht' hline.symm]

/-- A program that was read has the statements of its lines, no more and no fewer, in the order of
the lines and in the blocks that the lines form. -/
theorem parsed_program_follows_lines (h : ofText source = .ok p) : p.FollowsLines source where
  no_line_rejected line hline := by
    obtain ⟨readings, hread, -⟩ := map_eq_ok.1 h
    obtain ⟨l, -, hl⟩ := exists_of_mem_left (mapM_eq_ok_iff.1 hread) hline
    exact ⟨l.2, (readLine_eq_ok_iff.1 hl).2⟩
  inOrder_eq := inOrder_eq_filterMap h
  lines_increase := lines_increase h
  own_line _ hs := (mem_inOrder_iff h).1 hs
  outside s := by
    rw [← mem_listing_none, mem_listing_iff h, mem_inOrder_iff h, eq_comm]
  inside t ht s := by
    rw [mem_body_iff h ht, mem_listing_iff h, mem_inOrder_iff h, eq_comm]
  inner_empty t ht s hs := by
    obtain ⟨⟨raw, -, hline⟩, -⟩ := (mem_listing_iff h).1 ((mem_body_iff h ht).1 hs)
    exact (statementAt?_eq_some hline).2

def strayEnds : Program where
  statements :=
    [.command ⟨0, 0⟩ (.var ⟨"a", [⟨0⟩], .int 1⟩),
      .loop ⟨3, 0⟩ [.command ⟨5, 0⟩ (.move ⟨.cell ⟨1⟩, .name "a"⟩), .loop ⟨6, 0⟩ []],
      .command ⟨8, 0⟩ (.move ⟨.cell ⟨2⟩, .name "a"⟩),
      .loop ⟨10, 0⟩ [.command ⟨11, 0⟩ (.move ⟨.cell ⟨3⟩, .name "a"⟩)]]

def strayEndsSource : Text :=
  ["a (C0) = 1 # first", "", "endwhile", "while:", "ignored", "MOV C1 a", "while:",
    "  endwhile # outer", "MOV C2 a", "endwhile", "while:", "MOV C3 a"].flatMap fun line =>
      line.toList ++ ['\n']

theorem parsed_strayEnds_follows_lines :
    ofText strayEndsSource = .ok strayEnds ∧ strayEnds.FollowsLines strayEndsSource := by
  have h : ofText strayEndsSource = .ok strayEnds := by decide +kernel
  exact ⟨h, parsed_program_follows_lines h⟩

end Lines

section Commands

variable {source : Text} {p : Program}

theorem flattenAll_eq_flatMap (statements : List Statement) :
    Statement.flattenAll statements = statements.flatMap Statement.flatten := by
  induction statements with
  | nil => rfl
  | cons s rest ih => rw [Statement.flattenAll, ih, List.flatMap_cons]

theorem flatten_of_innerWellFormed {s : Statement} (h : s.InnerWellFormed) :
    s.flatten = s.placed?.toList := by
  cases s with
  | command position c => rfl
  | loop position body =>
    obtain ⟨-, rfl⟩ := h
    rfl

/-- The commands of a statement are those on its own line and on the lines of its body. -/
theorem flatten_statement {s : Statement} (h : s.WellFormed) :
    s.flatten = (s.header :: s.body).filterMap Statement.placed? := by
  cases s with
  | command position c => rfl
  | loop position body =>
    rw [Statement.flatten, flattenAll_eq_flatMap,
      List.flatMap_congr fun s hs => flatten_of_innerWellFormed (h.2 s hs),
      ← List.filterMap_eq_flatMap_toList]
    rfl

theorem flatten_eq_filterMap (h : ofText source = .ok p) :
    p.flatten = p.inOrder.filterMap Statement.placed? := by
  rw [flatten, flattenAll_eq_flatMap, inOrder, List.filterMap_flatMap]
  exact List.flatMap_congr fun s hs => flatten_statement (wellFormed_of_ofText h s hs)

theorem placed?_eq_some_iff {s : Statement} {placed : Placed} :
    s.placed? = some placed ↔ s = .command placed.position placed.command := by
  obtain ⟨position, c⟩ := placed
  cases s <;> simp [Statement.placed?]

theorem mem_flatten_iff (h : ofText source = .ok p) {placed : Placed} :
    placed ∈ p.flatten ↔ .command placed.position placed.command ∈ p.inOrder := by
  simp only [flatten_eq_filterMap h, List.mem_filterMap, placed?_eq_some_iff, exists_eq_right]

/-- The commands of a program that was read stand on lines of their own, in order. -/
theorem flatten_lines_increase (h : ofText source = .ok p) :
    p.flatten.Pairwise fun q r => q.position.line < r.position.line := by
  rw [flatten_eq_filterMap h]
  refine List.Pairwise.filterMap Statement.placed? ?_ (lines_increase h)
  intro s t hlt q hq r hr
  rw [placed?_eq_some_iff.1 hq, placed?_eq_some_iff.1 hr] at hlt
  exact hlt

end Commands

end Program

end CellCheck
