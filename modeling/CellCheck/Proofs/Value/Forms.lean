import CellCheck.Proofs.Text.Numeral
import CellCheck.Proofs.Text.Pieces
import CellCheck.Proofs.Value

/-!
# The forms of values

Every text is read as exactly one value. A text that is one of the literal forms stands for what
the form says; a text that only starts like one is kept raw, and all other texts are kept as free
text. White space at the ends does not count.
-/

namespace CellCheck.Value

def IsLiteral (form : Text) : Value → Prop
  | reference target => ∃ blanks, form = '&' :: (blanks ++ target.toList) ∧
      (∀ c ∈ blanks, Text.isBlank c) ∧ Text.isWord target.toList
  | hex n => ∃ digits, form = '0' :: 'x' :: digits ∧ Numeral.Writes 16 digits n.toNat
  | int n => Numeral.Writes 10 form n.toNat
  | array items => (∃ rest, form = '[' :: rest) ∧
      ∃ a : ArrayTree, Literal.tokens form = a.tokens ∧ a.items = items
  | object fields => (∃ rest, form = '{' :: rest) ∧
      ∃ o : ObjectTree, Literal.tokens form = o.tokens ∧ Denotes o.written fields
  | raw _ => False
  | text _ => False

def Marked (form : Text) : Prop :=
  (∃ rest, form = '&' :: rest) ∨ (∃ rest, form = '0' :: 'x' :: rest) ∨
    (∃ rest, form = '[' :: rest) ∨ (∃ rest, form = '{' :: rest) ∨
    (form ≠ [] ∧ ∀ c ∈ form, c.isDigit)

/-- What a text without white space at its ends stands for. -/
def Means (form : Text) : Value → Prop
  | raw content => content.toList = form ∧ Marked form ∧ ∀ v, ¬ IsLiteral form v
  | text content => content.toList = form ∧ ¬ Marked form
  | v => IsLiteral form v

variable {form : Text} {v : Value}

theorem startsForm_iff : startsForm form ↔ Marked form := by
  constructor
  · intro h
    unfold startsForm at h
    split at h
    · exact .inl ⟨_, rfl⟩
    · exact .inr (.inl ⟨_, rfl⟩)
    · exact .inr (.inr (.inr (.inl ⟨_, rfl⟩)))
    · exact .inr (.inr (.inl ⟨_, rfl⟩))
    · exact .inr (.inr (.inr (.inr (Numeral.isDigits_iff.1 h))))
  · rintro (⟨rest, rfl⟩ | ⟨rest, rfl⟩ | ⟨rest, rfl⟩ | ⟨rest, rfl⟩ | hdigits)
    · rfl
    · rfl
    · rfl
    · rfl
    · exact (forms_of_isDigits (Numeral.isDigits_iff.2 hdigits)).1

theorem IsLiteral.marked (h : IsLiteral form v) : Marked form := by
  cases v with
  | reference target =>
    obtain ⟨blanks, rfl, -⟩ := h
    exact .inl ⟨_, rfl⟩
  | hex n =>
    obtain ⟨digits, rfl, -⟩ := h
    exact .inr (.inl ⟨_, rfl⟩)
  | array items => exact .inr (.inr (.inl h.1))
  | object fields => exact .inr (.inr (.inr (.inl h.1)))
  | int n =>
    exact .inr (.inr (.inr (.inr (Numeral.isDigits_iff.1 (Numeral.isDigits_of_writes h)))))
  | raw content => cases h
  | text content => cases h

theorem word?_eq_some_iff {m : Nat} {n : UInt64} : word? m = some n ↔ n.toNat = m := by
  rw [word?]
  split_ifs with h
  · rw [Option.some.injEq, ← UInt64.toNat_inj, UInt64.toNat_ofNat_of_lt' h, eq_comm]
  · constructor
    · intro hn
      cases hn
    · rintro rfl
      exact absurd n.toNat_lt h

theorem isLiteral_of_literalForm? (htight : Text.Tight form) (h : literalForm? form = some v) :
    IsLiteral form v := by
  unfold literalForm? at h
  split at h
  · next target =>
    split_ifs at h with hword
    obtain rfl := Option.some.inj h
    have hlast : ∀ c ∈ target.getLast?, Text.isBlank c = false := by
      intro c hc
      refine htight.last c ?_
      rw [← List.singleton_append, List.getLast?_append, hc]
      rfl
    obtain ⟨blanks, hblanks, htarget⟩ := Text.exists_blanks_append_trim hlast
    refine ⟨blanks, ?_, hblanks, ?_⟩
    · rw [String.toList_ofList, ← htarget]
    · rwa [String.toList_ofList]
  · next digits =>
    obtain ⟨n, hn, rfl⟩ := Option.map_eq_some_iff.1 h
    obtain ⟨m, hm, hword⟩ := Option.bind_eq_some_iff.1 hn
    have hwrites := Numeral.readHexadecimal?_eq_some_iff.1 hm
    rw [← word?_eq_some_iff.1 hword] at hwrites
    exact ⟨digits, rfl, hwrites⟩
  · next rest =>
    obtain ⟨fields, hfields, rfl⟩ := Option.map_eq_some_iff.1 h
    obtain ⟨o, ho, hdenotes⟩ := Literal.objectOfText_eq_ok_iff.1 (toOption_eq_some hfields)
    exact ⟨⟨rest, rfl⟩, o, ho, Literal.denotes_iff.2 hdenotes⟩
  · next rest =>
    obtain ⟨items, hitems, rfl⟩ := Option.map_eq_some_iff.1 h
    exact ⟨⟨rest, rfl⟩, Literal.arrayOfText_eq_ok_iff.1 (toOption_eq_some hitems)⟩
  · obtain ⟨n, hn, rfl⟩ := Option.map_eq_some_iff.1 h
    obtain ⟨m, hm, hword⟩ := Option.bind_eq_some_iff.1 hn
    have hwrites := Numeral.readDecimal?_eq_some_iff.1 hm
    rw [← word?_eq_some_iff.1 hword] at hwrites
    exact hwrites

theorem IsLiteral.literalForm? (h : IsLiteral form v) : literalForm? form = some v := by
  cases v with
  | reference target =>
    obtain ⟨blanks, rfl, hblanks, hword⟩ := h
    have htrim : Text.trim (blanks ++ target.toList) = target.toList := by
      rw [Text.trim_append_of_blanks hblanks, (Text.tight_of_isWord hword).trim_eq]
    rw [Value.literalForm?, htrim, if_pos hword, String.ofList_toList]
  | hex n =>
    obtain ⟨digits, rfl, hdigits⟩ := h
    rw [Value.literalForm?, Numeral.readHexadecimal?_eq_some_iff.2 hdigits, Option.bind_some,
      word?_toNat, Option.map_some]
  | int n =>
    rw [(forms_of_isDigits (Numeral.isDigits_of_writes h)).2, Numeral.readDecimal?_eq_some_iff.2 h,
      Option.bind_some, word?_toNat, Option.map_some]
  | array items =>
    obtain ⟨⟨rest, rfl⟩, htree⟩ := h
    rw [Value.literalForm?, Literal.arrayOfText_eq_ok_iff.2 htree]
    rfl
  | object fields =>
    obtain ⟨⟨rest, rfl⟩, o, ho, hdenotes⟩ := h
    rw [Value.literalForm?,
      Literal.objectOfText_eq_ok_iff.2 ⟨o, ho, Literal.denotes_iff.1 hdenotes⟩]
    rfl
  | raw content => cases h
  | text content => cases h

section Reading

variable {s : Text}

theorem ofText_of_marked (h : Marked s.trim) :
    ofText s = (Value.literalForm? s.trim).getD (raw (String.ofList s.trim)) :=
  if_pos (startsForm_iff.2 h)

theorem ofText_of_not_marked (h : ¬ Marked s.trim) : ofText s = text (String.ofList s.trim) :=
  if_neg (mt startsForm_iff.1 h)

theorem ofText_of_isLiteral (h : IsLiteral s.trim v) : ofText s = v := by
  rw [ofText_of_marked h.marked, h.literalForm?, Option.getD_some]

theorem ofText_of_no_literal (hmarked : Marked s.trim) (h : ∀ v, ¬ IsLiteral s.trim v) :
    ofText s = raw (String.ofList s.trim) := by
  have hnone : Value.literalForm? s.trim = none :=
    Option.eq_none_iff_forall_ne_some.2 fun v hv =>
      h v (isLiteral_of_literalForm? (Text.tight_trim s) hv)
  rw [ofText_of_marked hmarked, hnone, Option.getD_none]

theorem IsLiteral.means (h : IsLiteral form v) : Means form v := by
  cases v with
  | raw content => cases h
  | text content => cases h
  | _ => exact h

theorem means_ofText (s : Text) : Means s.trim (ofText s) := by
  by_cases hmarked : Marked s.trim
  · by_cases hliteral : ∃ v, IsLiteral s.trim v
    · obtain ⟨v, hv⟩ := hliteral
      rw [ofText_of_isLiteral hv]
      exact hv.means
    · rw [ofText_of_no_literal hmarked (not_exists.1 hliteral)]
      exact ⟨String.toList_ofList, hmarked, not_exists.1 hliteral⟩
  · rw [ofText_of_not_marked hmarked]
    exact ⟨String.toList_ofList, hmarked⟩

/-- Every text is read as the one value that it stands for without the white space at its ends. -/
theorem ofText_eq_iff_means (s : Text) (v : Value) : ofText s = v ↔ Means s.trim v := by
  constructor
  · rintro rfl
    exact means_ofText s
  · intro h
    cases v with
    | raw content =>
      obtain ⟨hcontent, hmarked, hnone⟩ := h
      rw [ofText_of_no_literal hmarked hnone, ← hcontent, String.ofList_toList]
    | text content =>
      obtain ⟨hcontent, hmarked⟩ := h
      rw [ofText_of_not_marked hmarked, ← hcontent, String.ofList_toList]
    | _ => exact ofText_of_isLiteral h

/-- A sign in front of the digits, a number that does not fit, and a token too many. -/
example : ["0x+1F", "18446744073709551616", "[1, 2] ]"].map (fun s => (ofText s.toList).isRaw) =
    [true, true, true] := by
  decide +kernel

end Reading

end CellCheck.Value
