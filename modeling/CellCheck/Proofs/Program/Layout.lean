import CellCheck.Proofs.Analysis.Renumbering

/-!
# Layout

White space at the ends of lines, comments and lines that stand for nothing make no difference. Two
sources that differ in them only are read alike and analysed alike, up to the numbers of the lines.
-/

namespace CellCheck.Program

/-- The code starts no statement and ends no loop. No code is such code. -/
def IsIdle (code : Text) : Prop := Line.ofCode code = .ok .nothing

instance (code : Text) : Decidable (IsIdle code) :=
  inferInstanceAs (Decidable (Line.ofCode code = .ok .nothing))

theorem isIdle_nil : IsIdle [] := rfl

/-- The second lines are the first ones with some replaced by lines of the same code, some idle ones
put in and some idle ones left out. -/
inductive Relaid : List Text → List Text → Prop
  | nil : Relaid [] []
  | replaced {line line' : Text} {rest rest' : List Text}
      (hcode : stripComment line' = stripComment line) (h : Relaid rest rest') :
      Relaid (line :: rest) (line' :: rest')
  | inserted {line' : Text} {rest rest' : List Text} (hidle : IsIdle (stripComment line'))
      (h : Relaid rest rest') : Relaid rest (line' :: rest')
  | deleted {line : Text} {rest rest' : List Text} (hidle : IsIdle (stripComment line))
      (h : Relaid rest rest') : Relaid (line :: rest) rest'

def Counts (source : Text) (number : Nat) (code : Text) : Prop :=
  HasCode source number code ∧ ¬ IsIdle code

/-- The lines that count are the same in both sources and in the same order, at the numbers that
`f` gives. -/
structure Renumbers (f : Nat → Nat) (source source' : Text) : Prop where
  increases : ∀ i j code code', Counts source i code → Counts source j code' → i < j → f i < f j
  counts_iff : ∀ number code,
    Counts source' number code ↔ ∃ i, f i = number ∧ Counts source i code

def countingLines (source : Text) : List (Nat × Text) :=
  (codeLines source).filter fun line => ¬ IsIdle line.2

section Lines

variable {source source' : Text}

theorem mem_countingLines_iff {number : Nat} {code : Text} :
    (number, code) ∈ countingLines source ↔ Counts source number code := by
  rw [countingLines, List.mem_filter, mem_codeLines_iff, decide_eq_true_iff, Counts]

theorem countingLines_ascending (source : Text) :
    (countingLines source).Pairwise fun a b => a.1 < b.1 :=
  (codeLines_ascending source).filter _

theorem countingLines_eq (source : Text) :
    countingLines source =
      (numbered 0 (source.lines.map stripComment)).filter fun line => ¬ IsIdle line.2 := by
  rw [countingLines, codeLines, List.filter_filter]
  refine List.filter_congr fun line _ => ?_
  obtain ⟨number, code⟩ := line
  cases code with
  | nil => simp [isIdle_nil]
  | cons c code => simp

theorem map_snd_numbered {α : Type} (first : Nat) (items : List α) :
    (numbered first items).map Prod.snd = items := by
  rw [numbered, List.map_map]
  exact List.zipIdx_map_fst first items

theorem map_snd_countingLines (source : Text) :
    (countingLines source).map Prod.snd =
      (source.lines.map stripComment).filter fun code => ¬ IsIdle code := by
  conv_rhs => rw [← map_snd_numbered 0 (source.lines.map stripComment), List.filter_map]
  rw [countingLines_eq]
  rfl

theorem Relaid.filter_eq {lines lines' : List Text} (h : Relaid lines lines') :
    (lines'.map stripComment).filter (fun code => ¬ IsIdle code) =
      (lines.map stripComment).filter fun code => ¬ IsIdle code := by
  induction h with
  | nil => rfl
  | replaced hcode h ih => rw [List.map_cons, List.map_cons, hcode, List.filter_cons, ih,
      List.filter_cons]
  | inserted hidle h ih => rw [List.map_cons, List.filter_cons_of_neg (by simpa using hidle), ih]
  | deleted hidle h ih => rw [List.map_cons, List.filter_cons_of_neg (by simpa using hidle), ih]

/-- Numbered items with the same contents are the same up to their numbers. -/
theorem exists_renumbering {α : Type} {items items' : List (Nat × α)}
    (hnodup : (items.map Prod.fst).Nodup) (hsame : items'.map Prod.snd = items.map Prod.snd) :
    ∃ f : Nat → Nat, items' = items.map (Prod.map f id) := by
  induction items generalizing items' with
  | nil => exact ⟨id, List.map_eq_nil_iff.1 hsame⟩
  | cons item rest ih =>
    obtain ⟨number, a⟩ := item
    obtain ⟨item', rest', rfl, ha, hrest⟩ := List.map_eq_cons_iff.1 hsame
    obtain ⟨hfresh, hnodup⟩ := List.nodup_cons.1 hnodup
    obtain ⟨f, rfl⟩ := ih hnodup hrest
    refine ⟨Function.update f number item'.1, ?_⟩
    have hold : rest.map (Prod.map (Function.update f number item'.1) id) =
        rest.map (Prod.map f id) := by
      refine List.map_congr_left fun other hother => ?_
      have hne : other.1 ≠ number := fun heq => hfresh (List.mem_map.2 ⟨other, hother, heq⟩)
      exact Prod.ext (Function.update_of_ne hne _ _) rfl
    have hhead : item' = Prod.map (Function.update f number item'.1) id (number, a) := by
      rw [Prod.map_apply, Function.update_self]
      exact Prod.ext rfl ha
    rw [List.map_cons, hold, ← hhead]

/-- Numbers that ascend before and after stand in the same order before and after. -/
theorem lt_of_ascending {α : Type} {f : Nat → Nat} {items : List (Nat × α)}
    (hbefore : items.Pairwise fun a b => a.1 < b.1)
    (hafter : (items.map (Prod.map f id)).Pairwise fun a b => a.1 < b.1) {a b : Nat × α}
    (ha : a ∈ items) (hb : b ∈ items) (hlt : a.1 < b.1) : f a.1 < f b.1 := by
  rw [List.pairwise_map] at hafter
  have hkept : items.Pairwise fun a b => a.1 < b.1 → f a.1 < f b.1 := by
    refine hafter.imp ?_
    exact fun h _ => h
  have hnever : items.Pairwise (flip fun a b => a.1 < b.1 → f a.1 < f b.1) :=
    hbefore.imp fun h hgt => absurd hgt (Nat.lt_asymm h)
  exact hkept.forall_of_forall_of_flip (fun _ _ h => absurd h (Nat.lt_irrefl _)) hnever ha hb hlt

theorem renumbers_of_countingLines {f : Nat → Nat}
    (h : countingLines source' = (countingLines source).map (Prod.map f id)) :
    Renumbers f source source' where
  increases i j code code' hi hj hlt := by
    have hafter := countingLines_ascending source'
    rw [h] at hafter
    exact lt_of_ascending (countingLines_ascending source) hafter (mem_countingLines_iff.2 hi)
      (mem_countingLines_iff.2 hj) hlt
  counts_iff number code := by
    rw [← mem_countingLines_iff, h, List.mem_map]
    constructor
    · rintro ⟨⟨i, code⟩, hi, heq⟩
      obtain ⟨rfl, rfl⟩ := Prod.mk.inj heq
      exact ⟨i, rfl, mem_countingLines_iff.1 hi⟩
    · rintro ⟨i, rfl, hi⟩
      exact ⟨(i, code), mem_countingLines_iff.2 hi, rfl⟩

end Lines

section Reading

def isSomething (line : Nat × Line) : Bool := line.2 ≠ .nothing

theorem bodyOf_filter (lines : List (Nat × Line)) :
    bodyOf (lines.filter isSomething) = bodyOf lines := by
  rw [bodyOf, List.filterMap_filter]
  refine List.filterMap_congr fun line _ => ?_
  obtain ⟨number, reading⟩ := line
  cases reading <;> rfl

theorem group_filter (lines : List (Nat × Line)) :
    group (lines.filter isSomething) = group lines := by
  have hinside : ∀ line, isSomething line = false → isInside line = true := by
    rintro ⟨number, reading⟩ h
    cases reading with
    | nothing => rfl
    | _ => cases h
  fun_induction group lines with
  | case1 => rw [List.filter_nil, group]
  | case2 number c rest ih => rw [List.filter_cons_of_pos rfl, group, ih]
  | case3 number rest hlength ih =>
    obtain ⟨htake, hdrop⟩ := takeWhile_dropWhile_filter hinside rest
    rw [List.filter_cons_of_pos rfl, group, htake, hdrop, bodyOf_filter, ih]
  | case4 number rest ih => rw [List.filter_cons_of_neg Bool.false_ne_true, ih]
  | case5 number rest ih => rw [List.filter_cons_of_pos rfl, group, ih]

/-- Only the lines that count are looked at. -/
theorem ofText_eq_countingLines (source : Text) :
    ofText source = ((countingLines source).mapM readLine).map fun lines => ⟨group lines⟩ := by
  have hmapM : (countingLines source).mapM readLine =
      ((codeLines source).mapM readLine).map (List.filter isSomething) := by
    refine mapM_filter ?_ ?_ (codeLines source)
    · intro line hidle
      have hread : IsIdle line.2 := not_not.1 (of_decide_eq_false hidle)
      exact ⟨(line.1, .nothing), readLine_eq_ok_iff.2 ⟨rfl, hread⟩, rfl⟩
    · rintro line ⟨number, reading⟩ hcounts hread
      refine decide_eq_true fun hnothing => of_decide_eq_true hcounts ?_
      obtain rfl : reading = .nothing := hnothing
      exact (readLine_eq_ok_iff.1 hread).2
  rw [hmapM, ofText]
  cases (codeLines source).mapM readLine with
  | error e => rfl
  | ok lines => exact congrArg (fun s => Except.ok (Program.mk s)) (group_filter lines).symm

theorem ofText_of_countingLines {source source' : Text} {f : Nat → Nat}
    (h : countingLines source' = (countingLines source).map (Prod.map f id)) :
    ofText source' =
      match ofText source with
      | .ok p => .ok (p.renumbered f)
      | .error e => .error (e.renumbered f) := by
  rw [ofText_eq_countingLines, h, mapM_readLine_renumbered, ofText_eq_countingLines]
  cases (countingLines source).mapM readLine with
  | error e => rfl
  | ok lines => exact congrArg (fun s => Except.ok (Program.mk s)) (group_renumbered f lines)

/-- Statements start on lines that count. -/
theorem counts_of_mem_inOrder {source : Text} {p : Program} (h : ofText source = .ok p)
    {s : Statement} (hs : s ∈ p.inOrder) : ∃ code, Counts source s.position.line code := by
  rw [inOrder_eq_filterMap h, List.mem_filterMap] at hs
  obtain ⟨⟨number, code⟩, hline, hat⟩ := hs
  obtain ⟨hnumber, -⟩ := statementAt?_eq_some hat
  refine ⟨code, hnumber ▸ mem_codeLines_iff.1 hline, fun hidle => ?_⟩
  have hnone : statementAt? (number, code) = none := by rw [statementAt?, hidle]; rfl
  exact Option.some_ne_none s (hat.symm.trans hnone)

/-- Errors stand on lines that count. -/
theorem counts_of_ofText_eq_error {source : Text} {e : ParseError} (h : ofText source = .error e) :
    ∃ number code, e.line = number + 1 ∧ Counts source number code := by
  obtain ⟨hline, ⟨code, hcode, hrejected⟩, -⟩ := ofText_eq_error_iff_firstRejected.1 h
  refine ⟨e.line - 1, code, (Nat.sub_add_cancel hline).symm, hcode, fun hidle => ?_⟩
  exact nomatch hrejected.symm.trans hidle

end Reading

/-- Two sources that differ in their layout only are both read or both rejected. If they are read,
the programs and all that the analysis reports of them are the same up to the numbers of the lines;
if they are rejected, it is with the same error on the same line at its new number. -/
theorem layout_makes_no_difference {source source' : Text}
    (h : Relaid source.lines source'.lines) :
    ∃ f, Renumbers f source source' ∧
      match ofText source, ofText source' with
      | .ok p, .ok q =>
        (∀ s ∈ p.inOrder, ∃ code, Counts source s.position.line code) ∧
        q = p.renumbered f ∧ (Analysis.ofProgram p).Renumbered f (Analysis.ofProgram q)
      | .error e, .error e' =>
        (∃ number code, e.line = number + 1 ∧ Counts source number code) ∧ e' = e.renumbered f
      | _, _ => False := by
  have hsame : (countingLines source').map Prod.snd = (countingLines source).map Prod.snd := by
    rw [map_snd_countingLines, map_snd_countingLines, h.filter_eq]
  have hnodup : ((countingLines source).map Prod.fst).Nodup :=
    List.pairwise_map.2 ((countingLines_ascending source).imp Nat.ne_of_lt)
  obtain ⟨f, hlines⟩ := exists_renumbering hnodup hsame
  refine ⟨f, renumbers_of_countingLines hlines, ?_⟩
  rw [ofText_of_countingLines hlines]
  cases hread : ofText source with
  | error e => exact ⟨counts_of_ofText_eq_error hread, rfl⟩
  | ok p =>
    exact ⟨fun s => counts_of_mem_inOrder hread, rfl, Analysis.renumbered_ofProgram f p⟩

def plainLines : List Text :=
  ["a (C0) = 1", "while:", "", "MOV C1 b", "endwhile"].map String.toList

def laidOutLines : List Text :=
  ["## cells", "  a (C0) = 1   # one", "while: # on", "no statement", "\tMOV C1 b ",
    " endwhile"].map String.toList

def plainSource : Text := plainLines.flatMap (· ++ ['\n'])

def laidOutSource : Text := laidOutLines.flatMap (· ++ ['\r', '\n'])

def plainProgram : Program where
  statements :=
    [.command ⟨0, 0⟩ (.var ⟨"a", [⟨0⟩], .int 1⟩),
      .loop ⟨1, 0⟩ [.command ⟨3, 0⟩ (.move ⟨.cell ⟨1⟩, .name "b"⟩)]]

def laidOutProgram : Program where
  statements :=
    [.command ⟨1, 0⟩ (.var ⟨"a", [⟨0⟩], .int 1⟩),
      .loop ⟨2, 0⟩ [.command ⟨4, 0⟩ (.move ⟨.cell ⟨1⟩, .name "b"⟩)]]

theorem layout_of_laidOutSource :
    Relaid plainSource.lines laidOutSource.lines ∧
    ofText plainSource = .ok plainProgram ∧ ofText laidOutSource = .ok laidOutProgram ∧
    ∃ f, Renumbers f plainSource laidOutSource ∧
      (∀ s ∈ plainProgram.inOrder, ∃ code, Counts plainSource s.position.line code) ∧
      laidOutProgram = plainProgram.renumbered f ∧
      (Analysis.ofProgram plainProgram).Renumbered f (Analysis.ofProgram laidOutProgram) := by
  have hplain : plainSource.lines = plainLines := by decide +kernel
  have hlaidOut : laidOutSource.lines = laidOutLines := by decide +kernel
  have hrelaid : Relaid plainLines laidOutLines :=
    .inserted (by decide) (.replaced (by decide) (.replaced (by decide) (.deleted (by decide)
      (.inserted (by decide) (.replaced (by decide) (.replaced (by decide) .nil))))))
  rw [← hplain, ← hlaidOut] at hrelaid
  have hread : ofText plainSource = .ok plainProgram := by decide +kernel
  have hread' : ofText laidOutSource = .ok laidOutProgram := by decide +kernel
  obtain ⟨f, hf, hsame⟩ := layout_makes_no_difference hrelaid
  rw [hread, hread'] at hsame
  exact ⟨hrelaid, hread, hread', f, hf, hsame⟩

end CellCheck.Program
