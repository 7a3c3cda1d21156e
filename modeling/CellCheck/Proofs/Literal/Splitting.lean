import CellCheck.Proofs.Literal.Lossless

/-!
# Cutting a literal in two

If every quote of a text is closed, its tokens are the same whatever comes behind it, unless its
last run goes on there. So a structural character outside quotes cuts a literal into two parts that
are split into tokens apart from each other. Within quotes it does not.
-/

namespace CellCheck

/-- The token as it stands when the text in front of it is longer by this many bytes. -/
def Token.movedBy (size : Nat) (t : Token) : Token := { t with column := t.column + size }

theorem Token.movedBy_mk (size : Nat) (kind : TokenKind) (start offset : Nat) :
    Token.movedBy size ⟨kind, start + offset⟩ = ⟨kind, start + size + offset⟩ :=
  congrArg (Token.mk kind) (Nat.add_right_comm start offset size)

namespace Literal

def structuralKinds : List (Char × TokenKind) :=
  [('{', .openBrace), ('}', .closeBrace), ('[', .openBracket), (']', .closeBracket),
    (',', .comma), (':', .colon)]

section Moving

variable {column : Nat} {s : Text} {ts : List Token}

theorem head?_map_movedBy (h : ∀ t ∈ ts.head?, t.kind.isBare = false) (size : Nat) :
    ∀ t ∈ (ts.map (Token.movedBy size)).head?, t.kind.isBare = false := by
  intro t ht
  rw [List.head?_map, Option.mem_def, Option.map_eq_some_iff] at ht
  obtain ⟨t, ht, rfl⟩ := ht
  exact h t ht

theorem Laid.movedBy (h : Laid column s ts) (size : Nat) :
    Laid (column + size) s (ts.map (Token.movedBy size)) := by
  induction h with
  | blanks hblanks => exact .blanks hblanks
  | unterminated hblanks hquote =>
    rw [List.map_singleton, Token.movedBy_mk]
    exact .unterminated hblanks hquote
  | @token column blanks rest kind ts hblanks hclosed hapart h ih =>
    rw [List.map_cons, Token.movedBy_mk]
    refine .token hblanks hclosed (fun hbare => head?_map_movedBy (hapart hbare) size) ?_
    rwa [Nat.add_right_comm column, Nat.add_right_comm (column + _)]

/-- Where a text starts makes no difference but to the columns. -/
theorem tokensFrom_eq_map (column : Nat) (s : Text) :
    tokensFrom column s = (tokens s).map (Token.movedBy column) := by
  have hmoved := (laid_tokensFrom 0 s).movedBy column
  rw [Nat.zero_add] at hmoved
  exact hmoved.tokensFrom_eq

end Moving

section Parts

variable {column : Nat} {s rest : Text} {ts ts' : List Token}

/-- The second text goes on where the first one ends, since no quote is open there and no run of
one text meets a run of the other. -/
theorem Laid.append (h : Laid column s ts) (hclosed : ∀ t ∈ ts, t.kind.isError = false)
    (hapart : ∀ t ∈ ts'.head?, t.kind.isBare = false)
    (h' : Laid (column + Text.byteSize s) rest ts') : Laid column (s ++ rest) (ts ++ ts') := by
  induction h with
  | blanks hblanks => exact .blanks_append hblanks h'
  | unterminated hblanks hquote => cases hclosed _ List.mem_cons_self
  | @token column blanks s kind ts hblanks hkind hnext h ih =>
    obtain ⟨-, hclosed⟩ := List.forall_mem_cons.1 hclosed
    rw [Text.byteSize_append, Text.byteSize_append, ← Nat.add_assoc, ← Nat.add_assoc] at h'
    rw [List.append_assoc, List.append_assoc]
    refine .token hblanks hkind (fun hbare => ?_) (ih hclosed h')
    cases ts with
    | nil => exact hapart
    | cons next ts => exact hnext hbare

theorem isError_eq_false_of_count (hcount : s.count '"' % 2 = 0) (column : Nat) :
    ∀ t ∈ tokensFrom column s, t.kind.isError = false := by
  intro t ht
  refine Bool.eq_false_iff.2 fun herror => ?_
  have hodd := (laid_tokensFrom column s).exists_isError_iff.1 ⟨t, ht, herror⟩
  omega

/-- The tokens of a text with closed quotes, in front of what ends a run. -/
theorem tokensFrom_append (hcount : s.count '"' % 2 = 0) (hrest : Delimited rest) (column : Nat) :
    tokensFrom column (s ++ rest) =
      tokensFrom column s ++ tokensFrom (column + Text.byteSize s) rest := by
  have hlaid : Laid column (s ++ rest)
      (tokensFrom column s ++ tokensFrom (column + Text.byteSize s) rest) :=
    (laid_tokensFrom column s).append (isError_eq_false_of_count hcount column)
      (head?_tokensFrom_of_delimited hrest _) (laid_tokensFrom _ rest)
  exact hlaid.tokensFrom_eq

/-- An open quote takes all that is left, so no token comes behind those of such a text. -/
theorem count_of_tokens_append {t : Token} (h : tokens (s ++ rest) = tokens s ++ t :: ts) :
    s.count '"' % 2 = 0 := by
  have hlast : ∀ t ∈ (tokens (s ++ rest)).dropLast, t.kind.isError = false :=
    (laid_tokensFrom 0 (s ++ rest)).error_last
  rw [h, List.dropLast_append_cons] at hlast
  have hnone : ¬ ∃ t ∈ tokens s, t.kind.isError := by
    rintro ⟨t, ht, herror⟩
    rw [hlast t (List.mem_append_left _ ht)] at herror
    cases herror
  have hodd : ¬ s.count '"' % 2 = 1 := mt (laid_tokensFrom 0 s).exists_isError_iff.2 hnone
  omega

end Parts

section Structural

variable {c : Char} {kind : TokenKind}

theorem structural_of_mem (h : (c, kind) ∈ structuralKinds) :
    TokenKind.ofStructural? c = some kind ∧ Text.isBlank c = false ∧ endsBare c ∧
      c.utf8Size = 1 := by
  have hall : ∀ entry ∈ structuralKinds, TokenKind.ofStructural? entry.1 = some entry.2 ∧
      Text.isBlank entry.1 = false ∧ endsBare entry.1 ∧ entry.1.utf8Size = 1 := by decide
  exact hall (c, kind) h

/-- The tokens are those of the two parts and the one of the character between them just if every
quote in front of the character is closed. -/
theorem tokens_cut_at_structural_iff (a b : Text) (h : (c, kind) ∈ structuralKinds) :
    tokens (a ++ c :: b) = tokens a ++
        ⟨kind, Text.byteSize a⟩ :: (tokens b).map (Token.movedBy (Text.byteSize a + 1)) ↔
      a.count '"' % 2 = 0 := by
  obtain ⟨hkind, hblank, hends, hsize⟩ := structural_of_mem h
  constructor
  · exact count_of_tokens_append
  · intro hcount
    calc
      tokens (a ++ c :: b) = tokens a ++ tokensFrom (0 + Text.byteSize a) (c :: b) :=
        tokensFrom_append hcount (delimited_cons hends b) 0
      _ = tokens a ++ ⟨kind, Text.byteSize a⟩ :: tokensFrom (Text.byteSize a + 1) b := by
        rw [Nat.zero_add, tokensFrom_structural hblank hkind, hsize]
      _ = _ := by rw [tokensFrom_eq_map]

/-- The comma and the bracket within quotes cut nothing. The last comma ends a run that has a blank
behind it, and a quote is open in the second part. -/
theorem tokens_cut_at_comma :
    (',', TokenKind.comma) ∈ structuralKinds ∧
      "[\"é, [\", two words ".toList.count '"' % 2 = 0 ∧
      tokens ("[\"é, [\", two words ".toList ++ ',' :: " b: \"c".toList) =
        tokens "[\"é, [\", two words ".toList ++
          ⟨.comma, 20⟩ :: (tokens " b: \"c".toList).map (Token.movedBy 21) ∧
      tokens "[\"é, [\", two words ".toList =
        [⟨.openBracket, 0⟩, ⟨.quoted "é, [", 1⟩, ⟨.comma, 8⟩, ⟨.bare "two words", 10⟩] ∧
      tokens " b: \"c".toList =
        [⟨.bare "b", 1⟩, ⟨.colon, 2⟩, ⟨.error "Unterminated string: \"c", 4⟩] := by
  have hcomma : (',', TokenKind.comma) ∈ structuralKinds := by decide
  have hcount : "[\"é, [\", two words ".toList.count '"' % 2 = 0 := by decide
  have hcut := (tokens_cut_at_structural_iff _ " b: \"c".toList hcomma).2 hcount
  exact ⟨hcomma, hcount, hcut, by decide +kernel, by decide +kernel⟩

end Structural

end Literal

end CellCheck
