import CellCheck.Proofs.Program.Rejection

/-!
# Sources one after the other

Two sources with an `endwhile` line between them are read as the statements of the first and then
those of the second at their new lines. The line closes what the first source leaves open, and
closes nothing if nothing is open.
-/

namespace CellCheck

mutual

def Statement.renumbered (f : Nat → Nat) : Statement → Statement
  | .command position c => .command ⟨f position.line, position.column⟩ c
  | .loop position body => .loop ⟨f position.line, position.column⟩ (renumberedAll f body)

def Statement.renumberedAll (f : Nat → Nat) : List Statement → List Statement
  | [] => []
  | s :: rest => s.renumbered f :: renumberedAll f rest

end

/-- The error at its new line, where lines are counted from one. -/
def ParseError.renumbered (f : Nat → Nat) (e : ParseError) : ParseError :=
  ⟨f (e.line - 1) + 1, e.error⟩

theorem Statement.renumberedAll_eq_map (f : Nat → Nat) (statements : List Statement) :
    renumberedAll f statements = statements.map (renumbered f) := by
  induction statements with
  | nil => rfl
  | cons s rest ih => rw [renumberedAll, ih, List.map_cons]

namespace Program

def renumbered (f : Nat → Nat) (p : Program) : Program :=
  ⟨Statement.renumberedAll f p.statements⟩

section Lines

def codeFrom (first : Nat) (codes : List Text) : List (Nat × Text) :=
  (numbered first codes).filter fun line => !line.2.isEmpty

theorem codeFrom_append (first : Nat) (front back : List Text) :
    codeFrom first (front ++ back) =
      codeFrom first front ++ codeFrom (first + front.length) back := by
  rw [codeFrom, numbered_append, List.filter_append]
  rfl

theorem codeFrom_add (first k : Nat) (codes : List Text) :
    codeFrom (first + k) codes = (codeFrom first codes).map (Prod.map (· + k) id) := by
  induction codes generalizing first with
  | nil => rfl
  | cons code rest ih =>
    have hrest := ih (first + 1)
    rw [Nat.add_right_comm] at hrest
    rw [codeFrom, codeFrom] at hrest ⊢
    rw [numbered_cons, numbered_cons]
    cases code with
    | nil => exact hrest
    | cons c code =>
      rw [List.filter_cons_of_pos rfl, List.filter_cons_of_pos rfl, hrest]
      rfl

/-- A carriage return at the end of a line is white space or stands in the comment. -/
theorem stripComment_withoutReturn (line : Text) :
    stripComment line.withoutReturn = stripComment line := by
  unfold Text.withoutReturn
  cases hbefore : line.before? "\r" with
  | none => rfl
  | some rest =>
    obtain rfl := Text.before?_eq_some_iff.1 hbefore
    change Text.trim (rest.takeWhile (· != '#')) =
      Text.trim ((rest ++ ['\r']).takeWhile (· != '#'))
    rw [List.takeWhile_append]
    split
    · next hall =>
      have hrest : rest.takeWhile (· != '#') = rest :=
        (List.takeWhile_prefix _).eq_of_length hall
      rw [hrest]
      exact (Text.trim_append_of_isBlank (by decide) rest).symm
    · rfl

def codes (source : Text) : List Text := (source.splitOn '\n').map stripComment

theorem length_codes (source : Text) : (codes source).length = source.count '\n' + 1 := by
  rw [codes, List.length_map, Text.length_splitOn]

theorem codes_append_loopEnd_append (a b : Text) :
    codes (a ++ "\nendwhile\n".toList ++ b) = codes a ++ Statement.loopEndText :: codes b := by
  have hsource : a ++ "\nendwhile\n".toList ++ b =
      a ++ '\n' :: (Statement.loopEndText ++ '\n' :: b) := by
    rw [List.append_assoc]
    rfl
  have hend : Statement.loopEndText.splitOn '\n' = [Statement.loopEndText] := rfl
  rw [hsource, codes, List.splitOn_append_cons_self, List.splitOn_append_cons_self, hend,
    List.map_append]
  rfl

/-- The code lines are the pieces with code in them; an empty last piece makes no difference. -/
theorem codeLines_eq_codeFrom (source : Text) : codeLines source = codeFrom 0 (codes source) := by
  obtain ⟨front, last, hpieces⟩ : ∃ front last, source.splitOn '\n' = front ++ [last] :=
    ⟨_, _, (List.dropLast_concat_getLast (List.splitOn_ne_nil _ _)).symm⟩
  have hfront : (front.map Text.withoutReturn).map stripComment = front.map stripComment := by
    rw [List.map_map]
    exact List.map_congr_left fun line _ => stripComment_withoutReturn line
  change codeFrom 0 (source.lines.map stripComment) = _
  rw [Text.lines, codes, hpieces, List.dropLast_concat, List.getLast?_concat, List.map_append,
    List.map_append, hfront]
  cases last with
  | nil => rw [codeFrom_append, codeFrom_append]; rfl
  | cons c last => rfl

theorem codeLines_append_loopEnd_append (a b : Text) :
    codeLines (a ++ "\nendwhile\n".toList ++ b) =
      codeLines a ++ (a.count '\n' + 1, Statement.loopEndText) ::
        (codeLines b).map (Prod.map (· + (a.count '\n' + 2)) id) := by
  have hend (first : Nat) (rest : List Text) : codeFrom first (Statement.loopEndText :: rest) =
      (first, Statement.loopEndText) :: codeFrom (first + 1) rest := rfl
  rw [codeLines_eq_codeFrom, codeLines_eq_codeFrom a, codeLines_eq_codeFrom b,
    codes_append_loopEnd_append, codeFrom_append, hend, length_codes, ← codeFrom_add,
    Nat.zero_add, Nat.zero_add]

end Lines

section Renumbering

variable (f : Nat → Nat)

theorem readLine_renumbered (line : Nat × Text) :
    readLine (line.map f id) =
      match readLine line with
      | .ok l => .ok (l.map f id)
      | .error e => .error (e.renumbered f) := by
  obtain ⟨number, code⟩ := line
  simp only [readLine, Prod.map_apply, id_eq]
  cases Line.ofCode code <;> rfl

theorem mapM_readLine_renumbered (lines : List (Nat × Text)) :
    (lines.map (Prod.map f id)).mapM readLine =
      match lines.mapM readLine with
      | .ok readings => .ok (readings.map (Prod.map f id))
      | .error e => .error (e.renumbered f) := by
  induction lines with
  | nil => rfl
  | cons line rest ih =>
    rw [List.map_cons, List.mapM_cons, List.mapM_cons, ih]
    have hline : readLine (Prod.map f id line) = _ := readLine_renumbered f line
    rw [hline]
    cases readLine line with
    | error e => rfl
    | ok l =>
      cases rest.mapM readLine with
      | error e => rfl
      | ok readings => rfl

theorem bodyOf_renumbered (lines : List (Nat × Line)) :
    bodyOf (lines.map (Prod.map f id)) = Statement.renumberedAll f (bodyOf lines) := by
  rw [Statement.renumberedAll_eq_map, bodyOf, bodyOf, List.filterMap_map, List.map_filterMap]
  apply List.filterMap_congr
  rintro ⟨number, reading⟩ -
  cases reading <;> rfl

theorem group_renumbered (lines : List (Nat × Line)) :
    group (lines.map (Prod.map f id)) = Statement.renumberedAll f (group lines) := by
  have hinside : isInside ∘ Prod.map f id = isInside := rfl
  fun_induction group lines with
  | case1 => rw [List.map_nil, group, Statement.renumberedAll]
  | case2 number c rest ih =>
    rw [List.map_cons, Prod.map_apply, id, group, ih, Statement.renumberedAll]
    rfl
  | case3 number rest hlength ih =>
    rw [List.map_cons, Prod.map_apply, id, group, List.takeWhile_map, List.dropWhile_map, hinside,
      ih, bodyOf_renumbered, Statement.renumberedAll]
    rfl
  | case4 number rest ih => rw [List.map_cons, Prod.map_apply, id, group, ih]
  | case5 number rest ih => rw [List.map_cons, Prod.map_apply, id, group, ih]

end Renumbering

theorem renumbered_of_mapM_eq_error {lines : List (Nat × Text)} {e : ParseError}
    (h : lines.mapM readLine = .error e) (k : Nat) :
    e.renumbered (· + k) = ⟨e.line + k, e.error⟩ := by
  obtain ⟨line, -, hline⟩ := exists_eq_error_of_mapM h
  obtain ⟨hnumber, -⟩ := readLine_eq_error_iff.1 hline
  have hsum : e.line - 1 + k + 1 = e.line + k := by omega
  rw [ParseError.renumbered, hsum]

/-- Two sources with a line between them that ends a loop are read one after the other, whether or
not the first leaves a loop open. The error is that of the first source, if it has one. -/
theorem ofText_append_loopEnd_append (a b : Text) :
    ofText (a ++ "\nendwhile\n".toList ++ b) =
      match ofText a, ofText b with
      | .ok p, .ok q =>
        .ok ⟨p.statements ++ (q.renumbered (· + (a.count '\n' + 2))).statements⟩
      | .error e, _ => .error e
      | .ok _, .error e => .error ⟨e.line + (a.count '\n' + 2), e.error⟩ := by
  have hend (number : Nat) :
      readLine (number, Statement.loopEndText) = .ok (number, .loopEnd) := rfl
  rw [ofText, ofText, ofText, codeLines_append_loopEnd_append, List.mapM_append, List.mapM_cons,
    hend, mapM_readLine_renumbered]
  cases (codeLines a).mapM readLine with
  | error e => rfl
  | ok front =>
    cases hback : (codeLines b).mapM readLine with
    | error e => exact congrArg Except.error (renumbered_of_mapM_eq_error hback _)
    | ok back =>
      have hgroup := group_append_loopEnd front (a.count '\n' + 1)
        (back.map (Prod.map (· + (a.count '\n' + 2)) id))
      rw [group_renumbered] at hgroup
      exact congrArg (fun statements => Except.ok (Program.mk statements)) hgroup

end Program

end CellCheck
