import CellCheck.Program.Reader
import CellCheck.Proofs.Statement.RoundTrip

/-!
# Printed programs read back

A program that was read is printed with one line for each command and two for each loop. Read
again, the lines give the same statements at their new lines, unless the cells of a declaration
merge into a range that is too wide.
-/

namespace CellCheck

namespace Statement

def respelledInner (line : Nat) : Statement → Statement
  | command position c => command ⟨line, position.column⟩ c.respelled
  | loop position body => loop ⟨line, position.column⟩ body

/-- A statement as it is read from the given line and, for a loop, the lines behind it. -/
def respelled (line : Nat) : Statement → Statement
  | command position c => command ⟨line, position.column⟩ c.respelled
  | loop position body =>
    loop ⟨line, position.column⟩ ((body.zipIdx (line + 1)).map fun s => s.1.respelledInner s.2)

def innerReading : Statement → Line
  | command _ c => .command c.respelled
  | loop _ _ => .loopStart

def readings : Statement → List Line
  | command _ c => [.command c.respelled]
  | loop _ body => .loopStart :: (body.map innerReading ++ [.loopEnd])

/-- A statement that was read inside a loop, where a loop is always empty. -/
def InnerWellFormed : Statement → Prop
  | command position c => position.column = 0 ∧ c.WellFormed
  | loop position body => position.column = 0 ∧ body = []

def WellFormed : Statement → Prop
  | command position c => position.column = 0 ∧ c.WellFormed
  | loop position body => position.column = 0 ∧ ∀ s ∈ body, s.InnerWellFormed

end Statement

namespace Program

def respelledFrom (line : Nat) : List Statement → List Statement
  | [] => []
  | s :: rest => s.respelled line :: respelledFrom (line + s.toLines.length) rest

def respelled (p : Program) : Program := ⟨respelledFrom 0 p.statements⟩

section Printing

theorem innerText_respelledInner (line : Nat) (s : Statement) :
    (s.respelledInner line).innerText = s.innerText := by
  cases s with
  | command position c => exact c.toText_respelled
  | loop position body => rfl

theorem toLines_respelled (line : Nat) (s : Statement) :
    (s.respelled line).toLines = s.toLines := by
  cases s with
  | command position c => exact congrArg ([·]) c.toText_respelled
  | loop position body =>
    have hbody : ((body.zipIdx (line + 1)).map fun s => s.1.respelledInner s.2).map
        Statement.innerText = body.map Statement.innerText := by
      rw [List.map_map]
      simp only [Function.comp_def, innerText_respelledInner]
      rw [← Function.comp_def Statement.innerText Prod.fst, ← List.map_map, List.zipIdx_map_fst]
    simp only [Statement.respelled, Statement.toLines, hbody]

theorem toText_respelled (p : Program) : p.respelled.toText = p.toText := by
  have hlines (line : Nat) (statements : List Statement) :
      (respelledFrom line statements).flatMap Statement.toLines =
        statements.flatMap Statement.toLines := by
    induction statements generalizing line with
    | nil => rfl
    | cons s rest ih =>
      rw [respelledFrom, List.flatMap_cons, List.flatMap_cons, toLines_respelled, ih]
  rw [toText, toText, respelled, hlines]

end Printing

section Grouping

def numbered {α : Type} (line : Nat) (items : List α) : List (Nat × α) :=
  (items.zipIdx line).map Prod.swap

theorem numbered_cons {α : Type} (line : Nat) (item : α) (rest : List α) :
    numbered line (item :: rest) = (line, item) :: numbered (line + 1) rest := rfl

theorem numbered_append {α : Type} (line : Nat) (front back : List α) :
    numbered line (front ++ back) =
      numbered line front ++ numbered (line + front.length) back := by
  rw [numbered, List.zipIdx_append, List.map_append]
  rfl

theorem isInside_of_mem_numbered {line : Nat} {body : List Statement} {l : Nat × Line}
    (h : l ∈ numbered line (body.map Statement.innerReading)) : isInside l := by
  obtain ⟨⟨reading, number⟩, hmem, rfl⟩ := List.mem_map.1 h
  obtain ⟨s, -, rfl⟩ := List.mem_map.1 (List.fst_mem_of_mem_zipIdx hmem)
  cases s <;> rfl

theorem bodyOf_numbered {body : List Statement} (h : ∀ s ∈ body, s.InnerWellFormed) (line : Nat) :
    bodyOf (numbered line (body.map Statement.innerReading)) =
      (body.zipIdx line).map fun s => s.1.respelledInner s.2 := by
  induction body generalizing line with
  | nil => rfl
  | cons s rest ih =>
    have hrest := ih (fun t ht => h t (List.mem_cons_of_mem _ ht)) (line + 1)
    have hs := h s List.mem_cons_self
    rw [bodyOf] at hrest ⊢
    rw [List.map_cons, numbered_cons, List.zipIdx_cons, List.map_cons, ← hrest]
    cases s with
    | command position c =>
      obtain ⟨line', column⟩ := position
      obtain rfl : column = 0 := hs.1
      rfl
    | loop position body =>
      obtain ⟨line', column⟩ := position
      obtain ⟨rfl, rfl⟩ : column = 0 ∧ body = [] := hs
      rfl

/-- The end of a loop ends the loop that is open, if there is one. -/
theorem group_append_loopEnd (front : List (Nat × Line)) (number : Nat)
    (back : List (Nat × Line)) :
    group (front ++ (number, .loopEnd) :: back) = group front ++ group back := by
  have hstop : ∀ l ∈ ((number, Line.loopEnd) :: back).head?, isInside l = false := by
    intro l hl
    obtain rfl := Option.some.inj hl
    rfl
  fun_induction group front with
  | case1 => rw [List.nil_append, group, List.nil_append]
  | case2 first c rest ih => rw [List.cons_append, group, ih, List.cons_append]
  | case3 first rest hlength ih =>
    -- the body of the last loop ends there, if it has not ended before
    obtain ⟨htake, hdrop⟩ := takeWhile_dropWhile_append_of_head rest hstop
    rw [List.cons_append, group, htake, hdrop, ih, List.cons_append]
  | case4 first rest ih => rw [List.cons_append, group, ih]
  | case5 first rest ih => rw [List.cons_append, group, ih]

theorem group_loop {line number : Nat} {inner rest : List (Nat × Line)}
    (h : ∀ l ∈ inner, isInside l) :
    group ((line, .loopStart) :: (inner ++ (number, .loopEnd) :: rest)) =
      .loop ⟨line, 0⟩ (bodyOf inner) :: group rest := by
  have hinner : group ((line, .loopStart) :: inner) = [.loop ⟨line, 0⟩ (bodyOf inner)] := by
    rw [group, List.takeWhile_eq_self_iff.2 h, List.dropWhile_eq_nil_iff.2 h, group]
  have hgroup := group_append_loopEnd ((line, .loopStart) :: inner) number rest
  rw [hinner] at hgroup
  exact hgroup

theorem group_numbered {statements : List Statement} (h : ∀ s ∈ statements, s.WellFormed)
    (line : Nat) :
    group (numbered line (statements.flatMap Statement.readings)) =
      respelledFrom line statements := by
  induction statements generalizing line with
  | nil => simp [numbered, group, respelledFrom]
  | cons s rest ih =>
    have hrest := ih fun t ht => h t (List.mem_cons_of_mem _ ht)
    have hs := h s List.mem_cons_self
    rw [List.flatMap_cons, respelledFrom]
    cases s with
    | command position c =>
      obtain ⟨line', column⟩ := position
      obtain rfl : column = 0 := hs.1
      rw [Statement.readings, List.singleton_append, numbered_cons, group, hrest]
      rfl
    | loop position body =>
      obtain ⟨line', column⟩ := position
      obtain rfl : column = 0 := hs.1
      have hnext : line + 1 + (body.map Statement.innerReading).length + 1 =
          line + (Statement.loop ⟨line', 0⟩ body).toLines.length := by
        simp only [Statement.toLines, List.length_append, List.length_cons, List.length_map,
          List.length_nil]
        omega
      rw [Statement.readings, List.cons_append, numbered_cons, List.append_assoc, numbered_append,
        List.singleton_append, numbered_cons, group_loop fun l => isInside_of_mem_numbered,
        bodyOf_numbered hs.2, hrest, hnext]
      rfl

end Grouping

section Lines

theorem stripComment_of_isCode {line : Text} (h : Text.IsCode line) : stripComment line = line := by
  have hall : ∀ c ∈ line, (c != '#') = true := fun c hc => bne_iff_ne.2 (h.plain c hc).1
  have htake : line.takeWhile (· != '#') = line := List.takeWhile_eq_self_iff.2 hall
  rw [stripComment, htake, h.tight.trim_eq]

/-- Lines of code that are printed one after the other are the code lines of the text. -/
theorem codeLines_flatMap_newline {lines : List Text} (h : ∀ line ∈ lines, Text.IsCode line) :
    codeLines (lines.flatMap (· ++ ['\n'])) = numbered 0 lines := by
  have hfeed : ∀ line ∈ lines, '\n' ∉ line := fun line hline hmem =>
    ((h line hline).plain _ hmem).2 rfl
  have hreturn : ∀ line ∈ lines, line.getLast? ≠ some '\r' := by
    intro line hline hlast
    exact absurd ((h line hline).tight.last _ hlast) (by decide)
  have hstrip : lines.map stripComment = lines := by
    refine (List.map_congr_left fun line hline => ?_).trans (List.map_id lines)
    exact stripComment_of_isCode (h line hline)
  rw [codeLines, Text.lines_flatMap_newline hfeed hreturn, hstrip, ← numbered,
    List.filter_eq_self]
  intro line hline
  obtain ⟨⟨text, number⟩, hmem, rfl⟩ := List.mem_map.1 hline
  have hne := (h text (List.fst_mem_of_mem_zipIdx hmem)).ne_nil
  simp [hne]

theorem readLine_eq_ok_iff {line : Nat × Text} {l : Nat × Line} :
    readLine line = .ok l ↔ l.1 = line.1 ∧ Line.ofCode line.2 = .ok l.2 := by
  obtain ⟨number, reading⟩ := l
  unfold readLine
  cases Line.ofCode line.2 <;> simp [eq_comm]

theorem mapM_readLine_numbered {lines : List Text} {readings : List Line}
    (h : List.Forall₂ (fun text reading => Line.ofCode text = .ok reading) lines readings)
    (line : Nat) : (numbered line lines).mapM readLine = .ok (numbered line readings) := by
  rw [mapM_eq_ok_iff]
  induction h generalizing line with
  | nil => exact .nil
  | @cons text reading lines readings hread _ ih =>
    rw [numbered_cons, numbered_cons]
    exact .cons (readLine_eq_ok_iff.2 ⟨rfl, hread⟩) (ih (line + 1))

theorem exists_mapM_readLine_eq_error {lines : List Text} {text : Text} {e : SyntaxError}
    (hmem : text ∈ lines) (h : Line.ofCode text = .error e) :
    ∃ e', (numbered 0 lines).mapM readLine = .error e' := by
  obtain ⟨i, hi, rfl⟩ := List.getElem_of_mem hmem
  have hline : (i, lines[i]) ∈ numbered 0 lines := by
    refine List.mem_map.2 ⟨(lines[i], i), ?_, rfl⟩
    simp [List.mem_zipIdx_iff_getElem?, hi]
  have hread : readLine (i, lines[i]) = .error ⟨i + 1, e⟩ := by
    rw [readLine, h]
  exact exists_mapM_eq_error hline hread

theorem isCode_of_mem_codeLines {source : Text} {line : Nat × Text}
    (h : line ∈ codeLines source) : Text.IsCode line.2 := by
  obtain ⟨hmem, hne⟩ := List.mem_filter.1 h
  obtain ⟨⟨text, number⟩, hindexed, rfl⟩ := List.mem_map.1 hmem
  obtain ⟨raw, hraw, rfl⟩ := List.mem_map.1 (List.fst_mem_of_mem_zipIdx hindexed)
  refine ⟨Text.tight_trim _, by simpa using hne, fun c hc => ?_⟩
  have htake : c ∈ raw.takeWhile (· != '#') := Text.mem_of_mem_trim hc
  have hcomment : (c != '#') = true := List.mem_takeWhile_imp (p := (· != '#')) htake
  refine ⟨bne_iff_ne.1 hcomment, ?_⟩
  rintro rfl
  exact Text.newline_not_mem_of_mem_lines hraw ((List.takeWhile_sublist _).mem htake)

end Lines

section Shape

theorem wellFormed_of_mem_bodyOf {lines : List (Nat × Line)}
    (h : ∀ l ∈ lines, ∀ c, l.2 = .command c → c.WellFormed) {s : Statement}
    (hs : s ∈ bodyOf lines) : s.InnerWellFormed := by
  obtain ⟨⟨number, line⟩, hline, hstatement⟩ := List.mem_filterMap.1 hs
  cases line with
  | command c =>
    obtain rfl := Option.some.inj hstatement
    exact ⟨rfl, h _ hline c rfl⟩
  | loopStart =>
    obtain rfl := Option.some.inj hstatement
    exact ⟨rfl, rfl⟩
  | nothing => cases hstatement
  | loopEnd => cases hstatement

theorem wellFormed_of_mem_group {lines : List (Nat × Line)}
    (h : ∀ l ∈ lines, ∀ c, l.2 = .command c → c.WellFormed) {s : Statement}
    (hs : s ∈ group lines) : s.WellFormed := by
  fun_induction group lines with
  | case1 => cases hs
  | case2 number c rest ih =>
    rcases List.mem_cons.1 hs with rfl | hrest
    · exact ⟨rfl, h _ List.mem_cons_self c rfl⟩
    · exact ih (fun l hl => h l (List.mem_cons_of_mem _ hl)) hrest
  | case3 number rest hlength ih =>
    rcases List.mem_cons.1 hs with rfl | hrest
    · refine ⟨rfl, fun t ht => wellFormed_of_mem_bodyOf (fun l hl => ?_) ht⟩
      exact h l (List.mem_cons_of_mem _ ((List.takeWhile_sublist _).mem hl))
    · exact ih (fun l hl => h l (List.mem_cons_of_mem _ ((List.dropWhile_sublist _).mem hl))) hrest
  | case4 number rest ih => exact ih (fun l hl => h l (List.mem_cons_of_mem _ hl)) hs
  | case5 number rest ih => exact ih (fun l hl => h l (List.mem_cons_of_mem _ hl)) hs

theorem wellFormed_of_ofText {source : Text} {p : Program} (h : ofText source = .ok p) :
    ∀ s ∈ p.statements, s.WellFormed := by
  obtain ⟨lines, hlines, rfl⟩ := map_eq_ok.1 h
  refine fun s hs => wellFormed_of_mem_group (fun l hl c hc => ?_) hs
  obtain ⟨line, hline, hread⟩ := exists_of_mem_right (mapM_eq_ok_iff.1 hlines) hl
  have hcode := isCode_of_mem_codeLines hline
  obtain ⟨-, hreading⟩ := readLine_eq_ok_iff.1 hread
  rw [hc] at hreading
  exact Line.wellFormed_of_ofCode hcode.plain hcode.tight hreading

end Shape

section RoundTrip

theorem mem_flattenAll {statements : List Statement} {placed : Placed} :
    placed ∈ Statement.flattenAll statements ↔ ∃ s ∈ statements, placed ∈ s.flatten := by
  induction statements with
  | nil => simp [Statement.flattenAll]
  | cons s rest ih => simp [Statement.flattenAll, ih]

theorem isCode_loopStartText : Text.IsCode Statement.loopStartText :=
  ⟨Text.trim_eq_self_iff.1 rfl, by decide, by decide⟩

theorem isCode_loopEndText : Text.IsCode Statement.loopEndText :=
  Text.isCode_of_isWord (by decide)

theorem isCode_of_mem_toLines {s : Statement} (h : s.WellFormed) {line : Text}
    (hline : line ∈ s.toLines) : Text.IsCode line := by
  cases s with
  | command position c =>
    obtain rfl := List.mem_singleton.1 hline
    exact h.2.isCode
  | loop position body =>
    rw [Statement.toLines, List.cons_append, List.mem_cons, List.mem_append,
      List.mem_singleton] at hline
    rcases hline with rfl | hbody | rfl
    · exact isCode_loopStartText
    · obtain ⟨s, hs, rfl⟩ := List.mem_map.1 hbody
      have hinner := h.2 s hs
      cases s with
      | command position c => exact hinner.2.isCode
      | loop position body => exact isCode_loopStartText
    · exact isCode_loopEndText

def ShortRuns (placed : List Placed) : Prop :=
  ∀ p ∈ placed, ∀ cells, p.command.cells? = some cells → ¬ CellList.HasLongRun cells

theorem forall₂_readings {s : Statement} (h : s.WellFormed) (hshort : ShortRuns s.flatten) :
    List.Forall₂ (fun text reading => Line.ofCode text = .ok reading) s.toLines s.readings := by
  cases s with
  | command position c =>
    exact .cons (Command.ofCode_toText h.2 (hshort _ (List.mem_singleton.2 rfl))) .nil
  | loop position body =>
    have hbody : List.Forall₂ (fun text reading => Line.ofCode text = .ok reading)
        (body.map Statement.innerText) (body.map Statement.innerReading) := by
      rw [List.forall₂_map_left_iff, List.forall₂_map_right_iff, List.forall₂_same]
      intro s hs
      have hinner := h.2 s hs
      cases s with
      | command position c =>
        refine Command.ofCode_toText hinner.2 (hshort ⟨position, c⟩ ?_)
        exact mem_flattenAll.2 ⟨_, hs, List.mem_singleton.2 rfl⟩
      | loop position body => rfl
    exact .cons rfl (List.rel_append hbody (.cons rfl .nil))

/-- A command of the program is printed on a line of its own. -/
theorem toText_mem_toLines {s : Statement} (h : s.WellFormed) {placed : Placed}
    (hplaced : placed ∈ s.flatten) :
    placed.command.WellFormed ∧ placed.command.toText ∈ s.toLines := by
  cases s with
  | command position c =>
    obtain rfl := List.mem_singleton.1 hplaced
    exact ⟨h.2, List.mem_singleton.2 rfl⟩
  | loop position body =>
    obtain ⟨s, hs, hmem⟩ := mem_flattenAll.1 hplaced
    have hinner := h.2 s hs
    cases s with
    | command position c =>
      obtain rfl := List.mem_singleton.1 hmem
      refine ⟨hinner.2, ?_⟩
      rw [Statement.toLines]
      exact List.mem_append_left _ (List.mem_cons_of_mem _ (List.mem_map.2 ⟨_, hs, rfl⟩))
    | loop position body =>
      obtain ⟨-, rfl⟩ := hinner
      cases hmem

theorem wellFormed_of_mem_flatten {source : Text} {p : Program} (h : ofText source = .ok p)
    {placed : Placed} (hplaced : placed ∈ p.flatten) : placed.command.WellFormed := by
  obtain ⟨s, hs, hmem⟩ := mem_flattenAll.1 hplaced
  exact (toText_mem_toLines (wellFormed_of_ofText h s hs) hmem).1

/-- The code lines of a printed program are its printed lines. -/
theorem codeLines_toText {p : Program} (h : ∀ s ∈ p.statements, s.WellFormed) :
    codeLines p.toText = numbered 0 (p.statements.flatMap Statement.toLines) := by
  rw [toText, codeLines_flatMap_newline]
  intro line hline
  obtain ⟨s, hs, hmem⟩ := List.mem_flatMap.1 hline
  exact isCode_of_mem_toLines (h s hs) hmem

theorem ofText_toText_of_shortRuns {p : Program} (h : ∀ s ∈ p.statements, s.WellFormed)
    (hshort : ShortRuns p.flatten) : ofText p.toText = .ok p.respelled := by
  have hread : List.Forall₂ (fun text reading => Line.ofCode text = .ok reading)
      (p.statements.flatMap Statement.toLines) (p.statements.flatMap Statement.readings) := by
    have hsame : List.Forall₂ (fun s t => s = t ∧ s ∈ p.statements) p.statements p.statements :=
      List.forall₂_same.2 fun s hs => ⟨rfl, hs⟩
    refine List.rel_flatMap hsame ?_
    rintro s _ ⟨rfl, hs⟩
    refine forall₂_readings (h s hs) fun placed hplaced => hshort placed ?_
    exact mem_flattenAll.2 ⟨s, hs, hplaced⟩
  rw [ofText, codeLines_toText h, mapM_readLine_numbered hread]
  exact congrArg (fun statements => Except.ok (Program.mk statements)) (group_numbered h 0)

theorem exists_ofText_toText_eq_error {p : Program} (h : ∀ s ∈ p.statements, s.WellFormed)
    {placed : Placed} (hplaced : placed ∈ p.flatten) {cells : List Cell}
    (hcells : placed.command.cells? = some cells) (hlong : CellList.HasLongRun cells) :
    ∃ e, ofText p.toText = .error e := by
  obtain ⟨s, hs, hmem⟩ := mem_flattenAll.1 hplaced
  obtain ⟨hcommand, hline⟩ := toText_mem_toLines (h s hs) hmem
  obtain ⟨e, he⟩ := Command.exists_ofCode_toText_eq_error hcommand hcells hlong
  obtain ⟨e', he'⟩ := exists_mapM_readLine_eq_error (List.mem_flatMap.2 ⟨s, hs, hline⟩) he
  refine ⟨e', ?_⟩
  rw [ofText, codeLines_toText h, he']
  rfl

/-- The printed form of a program that was read is read again unless some cell list of it has more
cells in a row that count up by one than a range may cover. What is read then is the program at its
new lines, with its infinite numbers as texts, and it is printed in the same way. -/
theorem printed_program_reads_back {source : Text} {p : Program} (h : ofText source = .ok p) :
    ((∃ q, ofText p.toText = .ok q) ↔
      ∀ placed ∈ p.flatten, ∀ cells, placed.command.cells? = some cells →
        ¬ CellList.HasLongRun cells) ∧
    ∀ q, ofText p.toText = .ok q → q = p.respelled ∧ q.toText = p.toText := by
  have hformed := wellFormed_of_ofText h
  have hshort : (∃ q, ofText p.toText = .ok q) → ShortRuns p.flatten := by
    rintro ⟨q, hq⟩ placed hplaced cells hcells hlong
    obtain ⟨e, he⟩ := exists_ofText_toText_eq_error hformed hplaced hcells hlong
    rw [hq] at he
    cases he
  refine ⟨⟨hshort, fun hruns => ⟨_, ofText_toText_of_shortRuns hformed hruns⟩⟩, ?_⟩
  intro q hq
  have hread := ofText_toText_of_shortRuns hformed (hshort ⟨q, hq⟩)
  rw [hq] at hread
  obtain rfl := Except.ok.inj hread
  exact ⟨rfl, toText_respelled p⟩

def openLoop : Program where
  statements :=
    [.command ⟨0, 0⟩ (.param ⟨"a", [⟨1⟩, ⟨2⟩, ⟨3⟩], .struct, none,
        some (.array [.number (.infinite false), .text "x"])⟩),
      .loop ⟨2, 0⟩ [.command ⟨3, 0⟩ (.move ⟨.cell ⟨1⟩, .name "a"⟩)]]

theorem printed_openLoop_reads_back :
    ofText "PARAM a (C1..C2, C3): STRUCT = [1e999, x]\n\nwhile:\nMOV C1 a".toList = .ok openLoop ∧
      ((∃ q, ofText openLoop.toText = .ok q) ↔
        ∀ placed ∈ openLoop.flatten, ∀ cells, placed.command.cells? = some cells →
          ¬ CellList.HasLongRun cells) ∧
      ∀ q, ofText openLoop.toText = .ok q →
        q = openLoop.respelled ∧ q.toText = openLoop.toText := by
  have h : ofText "PARAM a (C1..C2, C3): STRUCT = [1e999, x]\n\nwhile:\nMOV C1 a".toList =
      .ok openLoop := by
    decide +kernel
  exact ⟨h, printed_program_reads_back h⟩

end RoundTrip

end Program

end CellCheck
