import CellCheck.Literal.Lexer
import CellCheck.Proofs.Text

/-!
# Tokens of a text

What the lexer does at the start of a text: white space is skipped, a structural character and a
quoted text are a token whatever comes next, and a bare run is one if it is delimited.
-/

namespace CellCheck.Literal

/-- A bare run before this text ends there. -/
def Delimited (rest : Text) : Prop := ∀ c ∈ rest.head?, endsBare c

theorem delimited_cons {c : Char} (h : endsBare c) (rest : Text) : Delimited (c :: rest) := by
  intro d hd
  obtain rfl : c = d := Option.some.inj hd
  exact h

theorem tokensFrom_blank {c : Char} (h : Text.isBlank c) (column : Nat) (rest : Text) :
    tokensFrom column (c :: rest) = tokensFrom (column + c.utf8Size) rest := by
  rw [tokensFrom, if_pos h]

theorem tokensFrom_blanks {blanks : Text} (h : ∀ c ∈ blanks, Text.isBlank c) (column : Nat)
    (rest : Text) :
    tokensFrom column (blanks ++ rest) = tokensFrom (column + Text.byteSize blanks) rest := by
  induction blanks generalizing column with
  | nil => rfl
  | cons c blanks ih =>
    rw [List.cons_append, tokensFrom_blank (h c List.mem_cons_self),
      ih fun d hd => h d (List.mem_cons_of_mem _ hd), Text.byteSize_cons, Nat.add_assoc]

theorem tokensFrom_structural {c : Char} {kind : TokenKind} (hblank : Text.isBlank c = false)
    (hkind : TokenKind.ofStructural? c = some kind) (column : Nat) (rest : Text) :
    tokensFrom column (c :: rest) = ⟨kind, column⟩ :: tokensFrom (column + c.utf8Size) rest := by
  rw [tokensFrom, if_neg (by simp [hblank]), hkind]

theorem tokensFrom_structural_blank {c : Char} {kind : TokenKind} (hblank : Text.isBlank c = false)
    (hkind : TokenKind.ofStructural? c = some kind) (column : Nat) (rest : Text) :
    tokensFrom column (c :: ' ' :: rest) =
      ⟨kind, column⟩ :: tokensFrom (column + c.utf8Size + 1) rest := by
  rw [tokensFrom_structural hblank hkind, tokensFrom_blank (by decide)]
  rfl

theorem tokensFrom_quoted {s : Text} (h : '"' ∉ s) (column : Nat) (rest : Text) :
    tokensFrom column ('"' :: (s ++ '"' :: rest)) =
      ⟨.quoted (String.ofList s), column⟩ :: tokensFrom (column + Text.byteSize s + 2) rest := by
  obtain ⟨htake, hdrop⟩ := Text.takeWhile_bne_append h rest
  have hcontains : (s ++ '"' :: rest).contains '"' = true := by simp
  rw [tokensFrom, if_neg (by decide)]
  simp only [show TokenKind.ofStructural? '"' = none from rfl, if_true, hcontains, htake, hdrop,
    List.drop_one, List.tail_cons]

theorem endsBare_iff {c : Char} : endsBare c ↔ c ∈ ['{', '}', '[', ']', ',', ':', '"'] := by
  unfold endsBare TokenKind.ofStructural?
  split <;> simp_all

/-- A character does not end a run if it has a property that none of those has which do. -/
theorem endsBare_eq_false_of {p : Char → Bool}
    (hnone : ∀ c ∈ ['{', '}', '[', ']', ',', ':', '"'], !p c) {c : Char} (h : p c) :
    endsBare c = false := by
  refine Bool.eq_false_iff.2 fun hends => ?_
  have hnot := hnone c (endsBare_iff.1 hends)
  rw [h] at hnot
  cases hnot

theorem endsBare_of_isBlank {c : Char} (h : Text.isBlank c) : endsBare c = false :=
  endsBare_eq_false_of (List.all_eq_true.1 rfl) h

theorem endsBare_of_isWordChar {c : Char} (h : Text.isWordChar c) : endsBare c = false :=
  endsBare_eq_false_of (List.all_eq_true.1 rfl) h

theorem takeWhile_delimited {s rest : Text} (h : ∀ c ∈ s, endsBare c = false)
    (hrest : Delimited rest) :
    (s ++ rest).takeWhile (!endsBare ·) = s ∧ (s ++ rest).dropWhile (!endsBare ·) = rest := by
  apply takeWhile_dropWhile_append
  · intro c hc
    rw [h c hc]
    rfl
  · intro c hc
    rw [hrest c hc]
    rfl

/-- A bare run with the white space behind it. -/
theorem tokensFrom_run {s blanks rest : Text} (hne : s ≠ []) (htight : Text.Tight s)
    (hbare : ∀ c ∈ s, endsBare c = false) (hblanks : ∀ c ∈ blanks, Text.isBlank c)
    (hrest : Delimited rest) (column : Nat) :
    tokensFrom column (s ++ (blanks ++ rest)) =
      ⟨.bare (String.ofList s), column⟩ ::
        tokensFrom (column + Text.byteSize (s ++ blanks)) rest := by
  obtain ⟨c, run, rfl⟩ := List.exists_cons_of_ne_nil hne
  have hc : endsBare c = false := hbare c List.mem_cons_self
  obtain ⟨hquote, hstructural⟩ : c ≠ '"' ∧ TokenKind.ofStructural? c = none := by
    simpa [endsBare] using hc
  have hplain : ∀ d ∈ run ++ blanks, endsBare d = false :=
    List.forall_mem_append.2 ⟨fun d hd => hbare d (List.mem_cons_of_mem _ hd),
      fun d hd => endsBare_of_isBlank (hblanks d hd)⟩
  obtain ⟨htake, hdrop⟩ := takeWhile_delimited hplain hrest
  have hend : Text.trimEnd (c :: (run ++ blanks)) = c :: run := htight.trimEnd_append hblanks
  rw [List.cons_append, ← List.append_assoc, tokensFrom, if_neg (by simp [htight.head c rfl])]
  simp only [hstructural, if_neg hquote, htake, hdrop, hend, List.cons_append]

theorem tokensFrom_bare {s rest : Text} (hne : s ≠ []) (htight : Text.Tight s)
    (hbare : ∀ c ∈ s, endsBare c = false) (hrest : Delimited rest) (column : Nat) :
    tokensFrom column (s ++ rest) =
      ⟨.bare (String.ofList s), column⟩ :: tokensFrom (column + Text.byteSize s) rest := by
  have hnone : ∀ c ∈ ([] : Text), Text.isBlank c := List.forall_mem_nil _
  simpa using tokensFrom_run hne htight hbare hnone hrest column

end CellCheck.Literal
