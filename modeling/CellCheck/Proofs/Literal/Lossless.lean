import Mathlib.Data.List.Chain
import CellCheck.Proofs.Literal.Lexer

/-!
# What tokens are read from

A text is white space and the source forms of its tokens in turn. A token stands at the byte where
its source form begins, so the text is found again from the tokens but for its white space.
-/

namespace CellCheck

namespace TokenKind

/-- What a token of this kind is read from. The message of an error ends with it. -/
def form : TokenKind → Text
  | colon => [':']
  | comma => [',']
  | openBracket => ['[']
  | closeBracket => [']']
  | openBrace => ['{']
  | closeBrace => ['}']
  | quoted content => '"' :: (content.toList ++ ['"'])
  | bare content => content.toList
  | error message => message.toList.drop "Unterminated string: ".length

def isBare : TokenKind → Bool
  | bare _ => true
  | _ => false

def isError : TokenKind → Bool
  | error _ => true
  | _ => false

def unterminated (content : Text) : TokenKind :=
  error (String.ofList ("Unterminated string: \"".toList ++ content))

@[simp] theorem form_unterminated (content : Text) :
    (unterminated content).form = '"' :: content := by
  rw [unterminated, form, String.toList_ofList]
  rfl

end TokenKind

def Token.stop (t : Token) : Nat := t.column + Text.byteSize t.kind.form

namespace Literal

structure IsBareRun (s : Text) : Prop where
  ne_nil : s ≠ []
  tight : Text.Tight s
  plain : ∀ c ∈ s, c ∉ ['{', '}', '[', ']', ',', ':', '"']

def IsClosed : TokenKind → Prop
  | .quoted content => '"' ∉ content.toList
  | .bare content => IsBareRun content.toList
  | .error _ => False
  | _ => True

/-- From the given column on, the text is white space and source forms in turn, and the tokens stand
where their forms begin. A quote that nothing closes takes all that is left, and there is something
other than white space between two bare runs. -/
inductive Laid : Nat → Text → List Token → Prop
  | blanks {column : Nat} {blanks : Text} (hblanks : ∀ c ∈ blanks, Text.isBlank c) :
      Laid column blanks []
  | unterminated {column : Nat} {blanks content : Text} (hblanks : ∀ c ∈ blanks, Text.isBlank c)
      (hquote : '"' ∉ content) :
      Laid column (blanks ++ '"' :: content)
        [⟨.unterminated content, column + Text.byteSize blanks⟩]
  | token {column : Nat} {blanks rest : Text} {kind : TokenKind} {ts : List Token}
      (hblanks : ∀ c ∈ blanks, Text.isBlank c) (hclosed : IsClosed kind)
      (hapart : kind.isBare → ∀ t ∈ ts.head?, t.kind.isBare = false)
      (h : Laid (column + Text.byteSize blanks + Text.byteSize kind.form) rest ts) :
      Laid column (blanks ++ (kind.form ++ rest)) (⟨kind, column + Text.byteSize blanks⟩ :: ts)

section Kinds

variable {kind : TokenKind} {c : Char}

theorem IsBareRun.endsBare_eq_false {s : Text} (h : IsBareRun s) (hc : c ∈ s) :
    endsBare c = false :=
  Bool.eq_false_iff.2 fun hends => h.plain c hc (endsBare_iff.1 hends)

theorem structural_kind (h : TokenKind.ofStructural? c = some kind) :
    kind.form = [c] ∧ IsClosed kind ∧ kind.isBare = false := by
  unfold TokenKind.ofStructural? at h
  split at h <;> cases h <;> exact ⟨rfl, trivial, rfl⟩

theorem form_ne_nil (h : IsClosed kind) : kind.form ≠ [] := by
  cases kind with
  | bare content => exact h.ne_nil
  | error message => exact h.elim
  | _ => exact List.cons_ne_nil _ _

theorem byteSize_pos {s : Text} (h : s ≠ []) : 0 < Text.byteSize s := by
  obtain ⟨c, rest, rfl⟩ := List.exists_cons_of_ne_nil h
  exact Nat.add_pos_left c.utf8Size_pos _

theorem byteSize_quoted (content : Text) :
    Text.byteSize ('"' :: (content ++ ['"'])) = Text.byteSize content + 2 := by
  rw [Text.byteSize_cons, Text.byteSize_append, Nat.add_comm]
  rfl

/-- Closed source forms have both quotes or none. -/
theorem count_form (h : IsClosed kind) : kind.form.count '"' % 2 = 0 := by
  cases kind with
  | quoted content =>
    have hcount : content.toList.count '"' = 0 := List.count_eq_zero.2 h
    simp [TokenKind.form, hcount]
  | bare content =>
    have hcount : content.toList.count '"' = 0 :=
      List.count_eq_zero.2 fun hmem => h.plain '"' hmem (by decide)
    simp [TokenKind.form, hcount]
  | error message => exact h.elim
  | _ => rfl

theorem not_mem_of_blanks {blanks : Text} (h : ∀ c ∈ blanks, Text.isBlank c)
    (hc : Text.isBlank c = false) : c ∉ blanks := by
  intro hmem
  rw [h c hmem] at hc
  cases hc

theorem count_blanks {blanks : Text} (h : ∀ c ∈ blanks, Text.isBlank c) : blanks.count '"' = 0 :=
  List.count_eq_zero.2 (not_mem_of_blanks h (by decide))

end Kinds

namespace Laid

variable {column : Nat} {s : Text} {ts : List Token}

theorem blanks_append {blanks : Text} (hblanks : ∀ c ∈ blanks, Text.isBlank c)
    (h : Laid (column + Text.byteSize blanks) s ts) : Laid column (blanks ++ s) ts := by
  cases h with
  | blanks hmore => exact .blanks (List.forall_mem_append.2 ⟨hblanks, hmore⟩)
  | unterminated hmore hquote =>
    rw [← List.append_assoc, Nat.add_assoc, ← Text.byteSize_append]
    exact .unterminated (List.forall_mem_append.2 ⟨hblanks, hmore⟩) hquote
  | token hmore hclosed hapart h =>
    rw [Nat.add_assoc column, ← Text.byteSize_append] at h
    rw [← List.append_assoc, Nat.add_assoc, ← Text.byteSize_append]
    exact .token (List.forall_mem_append.2 ⟨hblanks, hmore⟩) hclosed hapart h

/-- A token without white space in front of it. -/
theorem cons {kind : TokenKind} (hclosed : IsClosed kind)
    (hapart : kind.isBare → ∀ t ∈ ts.head?, t.kind.isBare = false)
    (h : Laid (column + Text.byteSize kind.form) s ts) :
    Laid column (kind.form ++ s) (⟨kind, column⟩ :: ts) := by
  have hnone : ∀ c ∈ ([] : Text), Text.isBlank c := List.forall_mem_nil _
  exact .token hnone hclosed hapart h

theorem structural {c : Char} {kind : TokenKind} (hkind : TokenKind.ofStructural? c = some kind)
    (h : Laid (column + c.utf8Size) s ts) : Laid column (c :: s) (⟨kind, column⟩ :: ts) := by
  obtain ⟨hform, hclosed, hbare⟩ := structural_kind hkind
  have hrest : Laid (column + Text.byteSize kind.form) s ts := by
    rw [hform]
    exact h
  have hcons := cons hclosed (fun h => absurd h (by simp [hbare])) hrest
  rwa [hform] at hcons

theorem quoted {content : Text} (hquote : '"' ∉ content)
    (h : Laid (column + Text.byteSize content + 2) s ts) :
    Laid column ('"' :: (content ++ '"' :: s))
      (⟨.quoted (String.ofList content), column⟩ :: ts) := by
  have hform : (TokenKind.quoted (String.ofList content)).form = '"' :: (content ++ ['"']) := by
    rw [TokenKind.form, String.toList_ofList]
  have hclosed : IsClosed (.quoted (String.ofList content)) := by
    rwa [IsClosed, String.toList_ofList]
  have hrest :
      Laid (column + Text.byteSize (TokenKind.quoted (String.ofList content)).form) s ts := by
    rwa [hform, byteSize_quoted, ← Nat.add_assoc]
  have hcons := cons hclosed (fun h => nomatch h) hrest
  rwa [hform, List.cons_append, List.append_assoc] at hcons

theorem bare {content : Text} (hrun : IsBareRun content)
    (hapart : ∀ t ∈ ts.head?, t.kind.isBare = false)
    (h : Laid (column + Text.byteSize content) s ts) :
    Laid column (content ++ s) (⟨.bare (String.ofList content), column⟩ :: ts) := by
  have hform : (TokenKind.bare (String.ofList content)).form = content := String.toList_ofList
  have hclosed : IsClosed (.bare (String.ofList content)) := by
    rwa [IsClosed, String.toList_ofList]
  have hrest :
      Laid (column + Text.byteSize (TokenKind.bare (String.ofList content)).form) s ts := by
    rwa [hform]
  have hcons := cons hclosed (fun _ => hapart) hrest
  rwa [hform] at hcons

theorem column_le (h : Laid column s ts) : ∀ t ∈ ts, column ≤ t.column := by
  induction h with
  | blanks hblanks => exact List.forall_mem_nil _
  | unterminated hblanks hquote =>
    intro t ht
    obtain rfl := List.mem_singleton.1 ht
    exact Nat.le_add_right _ _
  | token hblanks hclosed hapart h ih =>
    intro t ht
    rcases List.mem_cons.1 ht with rfl | hrest
    · exact Nat.le_add_right _ _
    · have := ih t hrest
      omega

theorem pairwise_stop_le (h : Laid column s ts) :
    ts.Pairwise fun t t' => t.stop ≤ t'.column := by
  induction h with
  | blanks hblanks => exact .nil
  | unterminated hblanks hquote => exact List.pairwise_singleton _ _
  | token hblanks hclosed hapart h ih => exact .cons h.column_le ih

theorem form_ne_nil (h : Laid column s ts) : ∀ t ∈ ts, t.kind.form ≠ [] := by
  induction h with
  | blanks hblanks => exact List.forall_mem_nil _
  | unterminated hblanks hquote =>
    intro t ht
    obtain rfl := List.mem_singleton.1 ht
    rw [TokenKind.form_unterminated]
    exact List.cons_ne_nil _ _
  | token hblanks hclosed hapart h ih =>
    exact List.forall_mem_cons.2 ⟨Literal.form_ne_nil hclosed, ih⟩

theorem pairwise_column_lt (h : Laid column s ts) :
    ts.Pairwise fun t t' => t.column < t'.column := by
  refine h.pairwise_stop_le.imp_of_mem fun {t t'} ht _ hle => ?_
  have hpos := byteSize_pos (h.form_ne_nil t ht)
  rw [Token.stop] at hle
  omega

theorem placed (h : Laid column s ts) : ∀ t ∈ ts, ∃ before after,
    s = before ++ (t.kind.form ++ after) ∧ column + Text.byteSize before = t.column := by
  induction h with
  | blanks hblanks => exact List.forall_mem_nil _
  | @unterminated column blanks content hblanks hquote =>
    intro t ht
    obtain rfl := List.mem_singleton.1 ht
    exact ⟨blanks, [], by simp, rfl⟩
  | @token column blanks rest kind ts hblanks hclosed hapart h ih =>
    intro t ht
    rcases List.mem_cons.1 ht with rfl | hrest
    · exact ⟨blanks, rest, rfl, rfl⟩
    · obtain ⟨before, after, rfl, hcolumn⟩ := ih t hrest
      refine ⟨blanks ++ (kind.form ++ before), after, by simp, ?_⟩
      rw [← hcolumn, Text.byteSize_append, Text.byteSize_append]
      omega

/-- A character other than white space stands in the source form of a token. -/
theorem covered (h : Laid column s ts) {before after : Text} {c : Char}
    (hs : s = before ++ c :: after) (hc : Text.isBlank c = false) :
    ∃ t ∈ ts, t.column ≤ column + Text.byteSize before ∧
      column + Text.byteSize before + c.utf8Size ≤ t.stop := by
  induction h generalizing before with
  | blanks hblanks => exact absurd (by simp [hs]) (not_mem_of_blanks hblanks hc)
  | @unterminated column blanks content hblanks hquote =>
    rcases append_eq_append_cons hs with ⟨middle, rfl⟩ | ⟨before, rfl, hform⟩
    · exact absurd (by simp) (not_mem_of_blanks hblanks hc)
    · refine ⟨_, List.mem_singleton_self _, ?_, ?_⟩
      · simp [← Nat.add_assoc]
      · have hsize := congrArg Text.byteSize hform
        simp only [Text.byteSize_append, Text.byteSize_cons] at hsize
        simp only [Token.stop, TokenKind.form_unterminated, Text.byteSize_append,
          Text.byteSize_cons]
        omega
  | @token column blanks rest kind ts hblanks hclosed hapart h ih =>
    rcases append_eq_append_cons hs with ⟨middle, rfl⟩ | ⟨inner, rfl, hinner⟩
    · exact absurd (by simp) (not_mem_of_blanks hblanks hc)
    · rcases append_eq_append_cons hinner with ⟨middle, hform⟩ | ⟨before, rfl, hrest⟩
      · refine ⟨_, List.mem_cons_self, ?_, ?_⟩
        · simp [← Nat.add_assoc]
        · simp only [Token.stop, hform, Text.byteSize_append, Text.byteSize_cons]
          omega
      · obtain ⟨t, ht, hle, hstop⟩ := ih hrest
        refine ⟨t, List.mem_cons_of_mem _ ht, ?_, ?_⟩
        · rw [Text.byteSize_append, Text.byteSize_append]
          omega
        · rw [Text.byteSize_append, Text.byteSize_append]
          omega

theorem isClosed (h : Laid column s ts) : ∀ t ∈ ts, t.kind.isError = false → IsClosed t.kind := by
  induction h with
  | blanks hblanks => exact List.forall_mem_nil _
  | unterminated hblanks hquote => exact List.forall_mem_singleton.2 fun herror => nomatch herror
  | token hblanks hclosed hapart h ih => exact List.forall_mem_cons.2 ⟨fun _ => hclosed, ih⟩

theorem isBareRun (h : Laid column s ts) : ∀ t ∈ ts, ∀ content, t.kind = .bare content →
    IsBareRun content.toList := by
  intro t ht content hkind
  have hclosed : t.kind.isError = false → IsClosed t.kind := h.isClosed t ht
  rw [hkind] at hclosed
  exact hclosed rfl

theorem isChain_apart (h : Laid column s ts) :
    ts.IsChain fun t t' => t.kind.isBare → t'.kind.isBare = false := by
  induction h with
  | blanks hblanks => exact .nil
  | unterminated hblanks hquote => exact .singleton _
  | token hblanks hclosed hapart h ih =>
    exact List.isChain_cons.2 ⟨fun t ht hbare => hapart hbare t ht, ih⟩

theorem not_isError_of_isClosed {kind : TokenKind} (h : IsClosed kind) : kind.isError = false := by
  cases kind with
  | error message => exact h.elim
  | _ => rfl

theorem error_last (h : Laid column s ts) : ∀ t ∈ ts.dropLast, t.kind.isError = false := by
  induction h with
  | blanks hblanks => exact List.forall_mem_nil _
  | unterminated hblanks hquote => exact List.forall_mem_nil _
  | @token column blanks rest kind ts hblanks hclosed hapart h ih =>
    cases ts with
    | nil => exact List.forall_mem_nil _
    | cons next ts =>
      rw [List.dropLast_cons_cons]
      exact List.forall_mem_cons.2 ⟨not_isError_of_isClosed hclosed, ih⟩

theorem exists_isError_iff (h : Laid column s ts) :
    (∃ t ∈ ts, t.kind.isError) ↔ s.count '"' % 2 = 1 := by
  induction h with
  | blanks hblanks => simp [count_blanks hblanks]
  | @unterminated column blanks content hblanks hquote =>
    simp [count_blanks hblanks, List.count_eq_zero.2 hquote, TokenKind.unterminated,
      TokenKind.isError]
  | @token column blanks rest kind ts hblanks hclosed hapart h ih =>
    have heven := count_form hclosed
    rw [List.exists_mem_cons_iff, not_isError_of_isClosed hclosed, ih, List.count_append,
      List.count_append, count_blanks hblanks]
    simp
    omega

theorem exists_unterminated (h : Laid column s ts) : ∀ t ∈ ts, t.kind.isError →
    ∃ before content, s = before ++ '"' :: content ∧ '"' ∉ content ∧
      t = ⟨.unterminated content, column + Text.byteSize before⟩ := by
  induction h with
  | blanks hblanks => exact List.forall_mem_nil _
  | @unterminated column blanks content hblanks hquote =>
    intro t ht _
    obtain rfl := List.mem_singleton.1 ht
    exact ⟨blanks, content, rfl, hquote, rfl⟩
  | @token column blanks rest kind ts hblanks hclosed hapart h ih =>
    intro t ht herror
    rcases List.mem_cons.1 ht with rfl | hrest
    · rw [not_isError_of_isClosed hclosed] at herror
      cases herror
    · obtain ⟨before, content, rfl, hquote, rfl⟩ := ih t hrest herror
      refine ⟨blanks ++ (kind.form ++ before), content, by simp, hquote, ?_⟩
      rw [Text.byteSize_append, Text.byteSize_append, Nat.add_assoc, Nat.add_assoc]

end Laid

section Lexing

variable {column : Nat} {s rest blanks : Text} {ts : List Token}

theorem isBareRun_trimEnd {c : Char} {run : Text} (hc : Text.isBlank c = false)
    (hrun : ∀ d ∈ c :: run, endsBare d = false) : IsBareRun (Text.trimEnd (c :: run)) := by
  have hstart : Text.trimStart (c :: run) = c :: run := List.dropWhile_cons_of_neg (by simp [hc])
  have htrim : Text.trim (c :: run) = Text.trimEnd (c :: run) := by rw [Text.trim, hstart]
  rw [← htrim]
  refine ⟨Text.trim_ne_nil_of_mem List.mem_cons_self hc, Text.tight_trim _, fun d hd hends => ?_⟩
  have hplain := hrun d (Text.mem_of_mem_trim hd)
  rw [endsBare_iff.2 hends] at hplain
  cases hplain

theorem delimited_dropWhile (s : Text) : Delimited (s.dropWhile (!endsBare ·)) := by
  intro c hc
  have hhead := List.head?_dropWhile_not (!endsBare ·) s
  rw [Option.mem_def.1 hc] at hhead
  simpa using hhead

/-- In front of what ends a run there is no further run. -/
theorem head?_tokensFrom_of_delimited (h : Delimited s) (column : Nat) :
    ∀ t ∈ (tokensFrom column s).head?, t.kind.isBare = false := by
  fun_cases tokensFrom column s with
  | case1 => exact fun t ht => nomatch ht
  | case2 c rest hblank =>
    have hends := h c rfl
    rw [endsBare_of_isBlank hblank] at hends
    cases hends
  | case3 c rest hblank kind hstructural =>
    rintro t ⟨⟩
    exact (structural_kind hstructural).2.2
  | case4 rest content hcontains hlength hblank hstructural =>
    rintro t ⟨⟩
    rfl
  | case5 rest content hcontains hblank hstructural =>
    rintro t ⟨⟩
    rfl
  | case6 c rest hblank hstructural hquote run hlength =>
    have hends := h c rfl
    simp [endsBare, hstructural, hquote] at hends

theorem laid_tokensFrom (column : Nat) (s : Text) : Laid column s (tokensFrom column s) := by
  fun_induction tokensFrom column s with
  | case1 => exact .blanks (List.forall_mem_nil _)
  | case2 column c rest hblank ih =>
    have hc : ∀ d ∈ [c], Text.isBlank d := List.forall_mem_singleton.2 hblank
    exact .blanks_append hc ih
  | case3 column c rest hblank kind hstructural ih =>
    exact .structural hstructural ih
  | case4 column rest content hcontains hlength hblank hstructural ih =>
    obtain ⟨front, back, rfl, hfront⟩ := List.eq_append_cons_of_mem (by simpa using hcontains)
    obtain ⟨htake, hdrop⟩ := Text.takeWhile_bne_append hfront back
    have hcontent : content = front := htake
    rw [hdrop, hcontent] at ih
    rw [hdrop, hcontent]
    exact .quoted hfront ih
  | case5 column rest content hcontains hblank hstructural =>
    have hquote : '"' ∉ rest := by simpa using hcontains
    have hcontent : content = rest :=
      List.takeWhile_eq_self_iff.2 fun c hc => bne_iff_ne.2 (ne_of_mem_of_not_mem hc hquote)
    have hnone : ∀ c ∈ ([] : Text), Text.isBlank c := List.forall_mem_nil _
    rw [hcontent]
    exact .unterminated hnone hquote
  | case6 column c rest hblank hstructural hquote run hlength ih =>
    have hc : Text.isBlank c = false := by simpa using hblank
    have hplain : ∀ d ∈ run, endsBare d = false := by
      refine List.forall_mem_cons.2 ⟨by simp [endsBare, hstructural, hquote], fun d hd => ?_⟩
      simpa using List.mem_takeWhile_imp hd
    have hdelimited : Delimited (rest.dropWhile (!endsBare ·)) := delimited_dropWhile rest
    have hrun : Text.trimEnd run ++ run.rtakeWhile Text.isBlank = run :=
      List.rdropWhile_append_rtakeWhile
    have hsplit : c :: rest = Text.trimEnd run ++
        (run.rtakeWhile Text.isBlank ++ rest.dropWhile (!endsBare ·)) := by
      rw [← List.append_assoc, hrun, List.cons_append, List.takeWhile_append_dropWhile]
    rw [hsplit]
    refine .bare (isBareRun_trimEnd hc hplain) (head?_tokensFrom_of_delimited hdelimited _)
      (.blanks_append (fun d hd => List.mem_rtakeWhile_imp hd) ?_)
    rwa [Nat.add_assoc, ← Text.byteSize_append, hrun]

/-- Bare and quoted tokens are made of characters of the text other than quotes. -/
theorem mem_of_mem_content {token : Token} {content : String} {c : Char}
    (htoken : token ∈ tokensFrom column s)
    (hkind : token.kind = .bare content ∨ token.kind = .quoted content)
    (hc : c ∈ content.toList) : c ∈ s ∧ c ≠ '"' := by
  have hlaid : Laid column s (tokensFrom column s) := laid_tokensFrom column s
  have hclosed : token.kind.isError = false → IsClosed token.kind := hlaid.isClosed token htoken
  obtain ⟨before, after, hs, -⟩ := hlaid.placed token htoken
  have hmem : c ∈ token.kind.form → c ∈ s := fun hform => by simp [hs, hform]
  rcases hkind with hbare | hquoted
  · rw [hbare] at hclosed hmem
    refine ⟨hmem hc, ?_⟩
    rintro rfl
    exact (hclosed rfl).plain '"' hc (by decide)
  · rw [hquoted] at hclosed hmem
    exact ⟨hmem (List.mem_cons_of_mem _ (List.mem_append_left _ hc)),
      ne_of_mem_of_not_mem hc (hclosed rfl)⟩

theorem tokensFrom_unterminated {content : Text} (hquote : '"' ∉ content) (column : Nat) :
    tokensFrom column ('"' :: content) = [⟨.unterminated content, column⟩] := by
  have hcontains : content.contains '"' = false := by simpa using hquote
  have htake : content.takeWhile (· != '"') = content :=
    List.takeWhile_eq_self_iff.2 fun c hc => bne_iff_ne.2 (ne_of_mem_of_not_mem hc hquote)
  rw [tokensFrom, if_neg (by decide)]
  simp only [show TokenKind.ofStructural? '"' = none from rfl, if_true, hcontains, htake]
  rfl

/-- Closed tokens other than bare runs are read whatever comes behind them. -/
theorem tokensFrom_form {kind : TokenKind} (hclosed : IsClosed kind) (hbare : kind.isBare = false)
    (column : Nat) (rest : Text) :
    Delimited (kind.form ++ rest) ∧ tokensFrom column (kind.form ++ rest) =
      ⟨kind, column⟩ :: tokensFrom (column + Text.byteSize kind.form) rest := by
  cases kind with
  | quoted content =>
    refine ⟨delimited_cons rfl _, ?_⟩
    have hsize : Text.byteSize (TokenKind.quoted content).form =
        Text.byteSize content.toList + 2 := byteSize_quoted content.toList
    rw [hsize, ← Nat.add_assoc, TokenKind.form, List.cons_append, List.append_assoc]
    exact (tokensFrom_quoted hclosed column rest).trans (by rw [String.ofList_toList])
  | bare content => cases hbare
  | error message => exact hclosed.elim
  | _ => exact ⟨delimited_cons rfl _, tokensFrom_structural rfl rfl column rest⟩

/-- If no run comes next, a run in front of the text ends before what is not white space. -/
theorem Laid.exists_delimited (h : Laid column s ts)
    (hapart : ∀ t ∈ ts.head?, t.kind.isBare = false) :
    ∃ blanks rest, s = blanks ++ rest ∧ (∀ c ∈ blanks, Text.isBlank c) ∧ Delimited rest := by
  cases h with
  | blanks hblanks => exact ⟨s, [], (List.append_nil s).symm, hblanks, fun c hc => nomatch hc⟩
  | unterminated hblanks hquote => exact ⟨_, _, rfl, hblanks, delimited_cons rfl _⟩
  | token hblanks hclosed _ h =>
    exact ⟨_, _, rfl, hblanks, (tokensFrom_form hclosed (hapart _ rfl) 0 _).1⟩

/-- There is no other way to lay the text out. -/
theorem Laid.tokensFrom_eq (h : Laid column s ts) : tokensFrom column s = ts := by
  induction h with
  | @blanks column blanks hblanks =>
    have htokens := tokensFrom_blanks hblanks column []
    rwa [List.append_nil, tokensFrom] at htokens
  | unterminated hblanks hquote =>
    rw [tokensFrom_blanks hblanks, tokensFrom_unterminated hquote]
  | @token column blanks rest kind ts hblanks hclosed hapart h ih =>
    rw [tokensFrom_blanks hblanks]
    cases hbare : kind.isBare with
    | false => rw [(tokensFrom_form hclosed hbare _ rest).2, ih]
    | true =>
      obtain ⟨content, rfl⟩ : ∃ content, kind = .bare content := by
        cases kind with
        | bare content => exact ⟨content, rfl⟩
        | _ => cases hbare
      -- the white space behind a run is read with it
      obtain ⟨more, rest, rfl, hmore, hrest⟩ := h.exists_delimited (hapart rfl)
      have hrun : IsBareRun content.toList := hclosed
      rw [tokensFrom_blanks hmore] at ih
      rw [TokenKind.form, tokensFrom_run hrun.ne_nil hrun.tight
        (fun c hc => hrun.endsBare_eq_false hc) hmore hrest, String.ofList_toList,
        Text.byteSize_append, ← Nat.add_assoc]
      exact congrArg _ ih

theorem laid_iff : Laid column s ts ↔ tokensFrom column s = ts :=
  ⟨Laid.tokensFrom_eq, fun h => h ▸ laid_tokensFrom column s⟩

end Lexing

/-- The text is found again from its tokens but for white space, and the tokens are as long as they
can be. -/
structure Lossless (s : Text) (ts : List Token) : Prop where
  columns_increase : ts.Pairwise fun t t' => t.column < t'.column
  placed : ∀ t ∈ ts, ∃ before after,
    s = before ++ (t.kind.form ++ after) ∧ Text.byteSize before = t.column
  disjoint : ts.Pairwise fun t t' => t.stop ≤ t'.column
  covered : ∀ before c after, s = before ++ c :: after → Text.isBlank c = false →
    ∃ t ∈ ts, t.column ≤ Text.byteSize before ∧ Text.byteSize before + c.utf8Size ≤ t.stop
  laid : Laid 0 s ts
  unique : ∀ ts', Laid 0 s ts' → ts' = ts
  bare : ∀ t ∈ ts, ∀ content, t.kind = .bare content → IsBareRun content.toList
  apart : ts.IsChain fun t t' => t.kind.isBare → t'.kind.isBare = false
  unterminated : ∀ t ∈ ts, t.kind.isError → ∃ before content, s = before ++ '"' :: content ∧
    '"' ∉ content ∧ t = ⟨.unterminated content, Text.byteSize before⟩
  error_last : ∀ t ∈ ts.dropLast, t.kind.isError = false
  exists_error_iff : (∃ t ∈ ts, t.kind.isError) ↔ s.count '"' % 2 = 1

theorem tokens_lossless (s : Text) : Lossless s (tokens s) := by
  have h : Laid 0 s (tokens s) := laid_tokensFrom 0 s
  constructor
  · exact h.pairwise_column_lt
  · simpa using h.placed
  · exact h.pairwise_stop_le
  · intro before c after hs hc
    simpa using h.covered hs hc
  · exact h
  · exact fun ts' h' => (laid_iff.1 h').symm
  · exact h.isBareRun
  · exact h.isChain_apart
  · simpa using h.exists_unterminated
  · exact h.error_last
  · exact h.exists_isError_iff

/-- A run with a blank and a quote in it, and a quote that nothing closes. -/
example : tokens "[two words\u3000\"é\", \"b]".toList =
    [⟨.openBracket, 0⟩, ⟨.bare "two words", 1⟩, ⟨.quoted "é", 13⟩, ⟨.comma, 17⟩,
      ⟨.error "Unterminated string: \"b]", 19⟩] := by
  decide +kernel

end Literal

end CellCheck
