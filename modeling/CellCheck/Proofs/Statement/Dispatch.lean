import CellCheck.Proofs.Text.Pieces
import CellCheck.Statement.Line

/-!
# Kinds of lines

How a line of code starts decides which command it may stand for, and the reader for that command
alone decides whether it does.
-/

namespace CellCheck.Line

/-- The beginnings of the lines that are read as something else than a variable. -/
def keywords : List String := ["INIT SYS_", "PARAM ", "SET ", "MOV ", "SYS_"]

/-- How the code starts that the command was read from, and which reader it was read by. -/
inductive CommandOf (code : Text) : Command → Prop where
  | init {rest : Text} {i : SyscallInit} (hcode : code = "INIT ".toList ++ rest)
      (hsyscall : rest.startsWith "SYS_") (h : readInit? rest = some i) : CommandOf code (.init i)
  | param {rest : Text} {p : Param} (hcode : code = "PARAM ".toList ++ rest)
      (h : readParam code rest = .ok p) : CommandOf code (.param p)
  | var {v : Variable} (hkeyword : ∀ keyword ∈ keywords, code.startsWith keyword = false)
      (hlooks : looksLikeVariable code) (h : readVariable code = .ok v) : CommandOf code (.var v)
  | assign {rest : Text} {a : Assign} (hcode : code = "SET ".toList ++ rest)
      (h : readAssign rest = .ok a) : CommandOf code (.assign a)
  | move {rest : Text} {m : Move} (hcode : code = "MOV ".toList ++ rest)
      (h : readMove? rest = some m) : CommandOf code (.move m)
  | call {c : Call} (hcode : code.startsWith "SYS_") (h : readCall? code = some c) :
      CommandOf code (.call c)

def readAt (number : Nat) (code : Text) : Except SyntaxError (Option Statement) :=
  (ofCode code).map (statement? number)

variable {code rest : Text}

theorem orError_eq_ok {α : Type} {e : SyntaxError} {x : Option α} {a : α} :
    orError e x = .ok a ↔ x = some a := by
  cases x with
  | none => simp [orError]
  | some b => simp [orError]

theorem orError_eq_error {α : Type} {e e' : SyntaxError} {x : Option α} :
    orError e x = .error e' ↔ e' = e ∧ ∀ a, x ≠ some a := by
  cases x with
  | none => simp [orError, eq_comm]
  | some b => simp [orError]

section Beginnings

theorem afterInit?_eq_some_iff :
    afterInit? code = some rest ↔ code = "INIT ".toList ++ rest ∧ rest.startsWith "SYS_" := by
  rw [afterInit?, Option.filter_eq_some_iff, Text.after?_eq_some_iff]

theorem startsWith_init_iff :
    code.startsWith "INIT SYS_" ↔ ∃ rest, afterInit? code = some rest := by
  simp only [Text.startsWith_iff, afterInit?_eq_some_iff]
  constructor
  · rintro ⟨tail, rfl⟩
    exact ⟨"SYS_".toList ++ tail, rfl, tail, rfl⟩
  · rintro ⟨rest, rfl, tail, rfl⟩
    exact ⟨tail, rfl⟩

theorem after?_eq_none_iff {beginning : String} :
    code.after? beginning = none ↔ code.startsWith beginning = false := by
  rw [Text.startsWith, Option.isSome_eq_false_iff, Option.isNone_iff_eq_none]

theorem ofCode_init (h : rest.startsWith "SYS_") :
    ofCode ("INIT ".toList ++ rest) =
      (orError .invalidInit (readInit? rest)).map (command ∘ .init) := by
  have hafter : afterInit? ("INIT ".toList ++ rest) = some rest := by
    rw [afterInit?, Text.after?_eq_some_iff.2 rfl, Option.filter_some, if_pos h]
  rw [ofCode, hafter]

theorem ofCode_param :
    ofCode ("PARAM ".toList ++ rest) =
      (readParam ("PARAM ".toList ++ rest) rest).map (command ∘ .param) := by
  have hafter : Text.after? ("PARAM ".toList ++ rest) "PARAM " = some rest :=
    Text.after?_eq_some_iff.2 rfl
  have hinit : afterInit? ("PARAM ".toList ++ rest) = none := rfl
  rw [ofCode, hinit, hafter]

theorem ofCode_assign :
    ofCode ("SET ".toList ++ rest) = (readAssign rest).map (command ∘ .assign) := by
  have hafter : Text.after? ("SET ".toList ++ rest) "SET " = some rest :=
    Text.after?_eq_some_iff.2 rfl
  have hinit : afterInit? ("SET ".toList ++ rest) = none := rfl
  have hparam : Text.after? ("SET ".toList ++ rest) "PARAM " = none := rfl
  rw [ofCode, hinit, hparam, hafter]

theorem ofCode_move :
    ofCode ("MOV ".toList ++ rest) =
      (orError .invalidMove (readMove? rest)).map (command ∘ .move) := by
  have hafter : Text.after? ("MOV ".toList ++ rest) "MOV " = some rest :=
    Text.after?_eq_some_iff.2 rfl
  have hinit : afterInit? ("MOV ".toList ++ rest) = none := rfl
  have hparam : Text.after? ("MOV ".toList ++ rest) "PARAM " = none := rfl
  have hset : Text.after? ("MOV ".toList ++ rest) "SET " = none := rfl
  rw [ofCode, hinit, hparam, hset, hafter]

theorem ofCode_call (h : code.startsWith "SYS_") :
    ofCode code = (orError .invalidCall (readCall? code)).map (command ∘ .call) := by
  obtain ⟨rest, rfl⟩ := Text.startsWith_iff.1 h
  have hinit : afterInit? ("SYS_".toList ++ rest) = none := rfl
  have hparam : Text.after? ("SYS_".toList ++ rest) "PARAM " = none := rfl
  have hset : Text.after? ("SYS_".toList ++ rest) "SET " = none := rfl
  have hmov : Text.after? ("SYS_".toList ++ rest) "MOV " = none := rfl
  have hwhile : "SYS_".toList ++ rest ≠ "while:".toList := fun h => by simp at h
  have hendwhile : "SYS_".toList ++ rest ≠ "endwhile".toList := fun h => by simp at h
  rw [ofCode, hinit, hparam, hset, hmov]
  simp only [if_neg hwhile, if_neg hendwhile, if_pos h]

/-- A line with no keyword and the marks of a variable is read as a variable. -/
theorem ofCode_variable (hkeyword : ∀ keyword ∈ keywords, code.startsWith keyword = false)
    (hlooks : looksLikeVariable code) :
    ofCode code = (readVariable code).map (command ∘ .var) := by
  have hnone {keyword : String} (hmem : keyword ∈ keywords) : code.after? keyword = none :=
    after?_eq_none_iff.2 (hkeyword keyword hmem)
  have hinit : afterInit? code = none := by
    refine Option.eq_none_iff_forall_ne_some.2 fun rest hrest => ?_
    have hstarts := startsWith_init_iff.2 ⟨rest, hrest⟩
    rw [hkeyword "INIT SYS_" (by decide)] at hstarts
    cases hstarts
  have hbracket : ')' ∈ code := by
    simp only [looksLikeVariable, Bool.and_eq_true, List.contains_iff_mem] at hlooks
    exact hlooks.1.2
  have hwhile : code ≠ "while:".toList := by
    rintro rfl
    exact absurd hbracket (by decide)
  have hendwhile : code ≠ "endwhile".toList := by
    rintro rfl
    exact absurd hbracket (by decide)
  rw [ofCode, hinit, hnone (by decide), hnone (by decide), hnone (by decide)]
  simp only [if_neg hwhile, if_neg hendwhile, hkeyword "SYS_" (by decide), hlooks, if_true,
    Bool.false_eq_true, if_false]

end Beginnings

section Commands

variable {c : Command}

theorem commandOf_of_ofCode (h : ofCode code = .ok (.command c)) : CommandOf code c := by
  unfold ofCode at h
  split at h
  · next rest hrest =>
    obtain ⟨i, hi, hc⟩ := map_eq_ok.1 h
    obtain rfl := Line.command.inj hc
    obtain ⟨hcode, hsyscall⟩ := afterInit?_eq_some_iff.1 hrest
    exact .init hcode hsyscall (orError_eq_ok.1 hi)
  next hinit =>
  split at h
  · next rest hrest =>
    obtain ⟨p, hp, hc⟩ := map_eq_ok.1 h
    obtain rfl := Line.command.inj hc
    exact .param (Text.after?_eq_some_iff.1 hrest) hp
  next hparam =>
  split at h
  · next rest hrest =>
    obtain ⟨a, ha, hc⟩ := map_eq_ok.1 h
    obtain rfl := Line.command.inj hc
    exact .assign (Text.after?_eq_some_iff.1 hrest) ha
  next hset =>
  split at h
  · next rest hrest =>
    obtain ⟨m, hm, hc⟩ := map_eq_ok.1 h
    obtain rfl := Line.command.inj hc
    exact .move (Text.after?_eq_some_iff.1 hrest) (orError_eq_ok.1 hm)
  next hmov =>
  split_ifs at h with hwhile hendwhile hsyscall hlooks
  · cases h
  · cases h
  · obtain ⟨call, hcall, hc⟩ := map_eq_ok.1 h
    obtain rfl := Line.command.inj hc
    exact .call hsyscall (orError_eq_ok.1 hcall)
  · obtain ⟨v, hv, hc⟩ := map_eq_ok.1 h
    obtain rfl := Line.command.inj hc
    refine .var ?_ hlooks hv
    have hinit' : code.startsWith "INIT SYS_" = false := by
      refine Bool.eq_false_iff.2 fun hstarts => ?_
      obtain ⟨rest, hrest⟩ := startsWith_init_iff.1 hstarts
      rw [hinit] at hrest
      cases hrest
    simp only [keywords, List.forall_mem_cons]
    exact ⟨hinit', after?_eq_none_iff.1 hparam, after?_eq_none_iff.1 hset,
      after?_eq_none_iff.1 hmov, Bool.eq_false_iff.2 hsyscall, List.forall_mem_nil _⟩
  · cases h

theorem ofCode_eq_command_iff : ofCode code = .ok (.command c) ↔ CommandOf code c := by
  constructor
  · exact commandOf_of_ofCode
  · intro h
    cases h with
    | init hcode hsyscall h =>
      rw [hcode, ofCode_init hsyscall, h]
      rfl
    | param hcode h =>
      subst hcode
      rw [ofCode_param, h]
      rfl
    | var hkeyword hlooks h =>
      rw [ofCode_variable hkeyword hlooks, h]
      rfl
    | assign hcode h =>
      rw [hcode, ofCode_assign, h]
      rfl
    | move hcode h =>
      rw [hcode, ofCode_move, h]
      rfl
    | call hcode h =>
      rw [ofCode_call hcode, h]
      rfl

theorem readAt_eq_command_iff {number : Nat} {position : Position} :
    readAt number code = .ok (some (.command position c)) ↔
      position = ⟨number, 0⟩ ∧ CommandOf code c := by
  rw [readAt, map_eq_ok, ← ofCode_eq_command_iff]
  constructor
  · rintro ⟨line, hline, hstatement⟩
    cases line with
    | command c' =>
      obtain ⟨rfl, rfl⟩ := Statement.command.inj (Option.some.inj hstatement)
      exact ⟨rfl, hline⟩
    | _ => cases hstatement
  · rintro ⟨rfl, hcode⟩
    exact ⟨_, hcode, rfl⟩

theorem readAt_eq_error_iff {number : Nat} {e : SyntaxError} :
    readAt number code = .error e ↔ ofCode code = .error e := map_eq_error

end Commands

end CellCheck.Line
