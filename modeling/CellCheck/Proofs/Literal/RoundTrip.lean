import CellCheck.Literal.Printer
import CellCheck.Proofs.Binary64.RoundTrip
import CellCheck.Proofs.Literal.Acceptance
import CellCheck.Proofs.Literal.Lossless

/-!
# Printed literals read back

A printed literal is a derivation of the same literal, except that an infinite number has no
numeral and is read back as the text it is printed as. The texts of a literal that was read
contain no quotes, which is all that printing asks of them.
-/

namespace CellCheck

namespace Literal

mutual

def texts : Literal → List String
  | number _ => []
  | text content => [content]
  | array items => textsOf items

def textsOf : List Literal → List String
  | [] => []
  | item :: rest => texts item ++ textsOf rest

end

def fieldTexts (fields : List (String × Literal)) : List String :=
  fields.flatMap fun field => field.1 :: texts field.2

mutual

/-- The literal that the printed one is read as: numbers that are not finite become texts. -/
def respelled : Literal → Literal
  | number .nan => text "NaN"
  | number (.infinite negative) => text (if negative then "-inf" else "inf")
  | number (.finite negative rank) => number (.finite negative rank)
  | text content => text content
  | array items => array (respelledItems items)

def respelledItems : List Literal → List Literal
  | [] => []
  | item :: rest => respelled item :: respelledItems rest

end

def respelledField (field : String × Literal) : String × Literal := (field.1, respelled field.2)

def respelledFields (fields : Fields) : Fields where
  entries := fields.entries.map respelledField
  nodup := by
    have hfst : (fields.entries.map respelledField).map Prod.fst = fields.entries.map Prod.fst := by
      rw [List.map_map]
      rfl
    rw [hfst]
    exact fields.nodup

section Printing

mutual

theorem toText_respelled (l : Literal) : l.respelled.toText = l.toText := by
  match l with
  | number .nan => decide
  | number (.infinite true) => decide
  | number (.infinite false) => decide
  | number (.finite negative rank) => rfl
  | text content => rfl
  | array items => rw [respelled, toText, toText, itemsText_respelled items]

theorem itemsText_respelled (items : List Literal) :
    itemsText (respelledItems items) = itemsText items := by
  match items with
  | [] => rfl
  | item :: rest =>
    rw [respelledItems, itemsText, itemsText, toText_respelled item, followingText_respelled rest]

theorem followingText_respelled (items : List Literal) :
    followingText (respelledItems items) = followingText items := by
  match items with
  | [] => rfl
  | item :: rest =>
    rw [respelledItems, followingText, followingText, toText_respelled item,
      followingText_respelled rest]

end

theorem objectText_respelled (fields : Fields) :
    objectText (respelledFields fields) = objectText fields := by
  have hfield (field : String × Literal) : fieldText (respelledField field) = fieldText field := by
    simp [fieldText, respelledField, toText_respelled]
  simp [objectText, respelledFields, Function.comp_def, hfield]

end Printing

section Derivation

/-- A text in its printed form is one token, which is bare only if it reads as itself. -/
theorem tokensFrom_textForm {s rest : Text} (hquote : '"' ∉ s) (hrest : Delimited rest)
    (column : Nat) :
    ∃ kind, tokensFrom column (textForm s ++ rest) =
        ⟨kind, column⟩ :: tokensFrom (column + Text.byteSize (textForm s)) rest ∧
      (kind = .quoted (String.ofList s) ∨
        kind = .bare (String.ofList s) ∧ Binary64.ofText? s = none) := by
  by_cases hneeds : needsQuotes s
  · have hform : textForm s = '"' :: s ++ ['"'] := by
      rw [textForm, if_pos]
      simp [hneeds, hquote]
    refine ⟨.quoted (String.ofList s), ?_, .inl rfl⟩
    have hsize : column + Text.byteSize (textForm s) = column + Text.byteSize s + 2 := by
      rw [hform, Text.byteSize_append, Text.byteSize_cons, Text.byteSize_cons, Text.byteSize_nil,
        show ('"' : Char).utf8Size = 1 from rfl]
      omega
    rw [hsize, hform, List.append_assoc]
    exact tokensFrom_quoted hquote column rest
  · have hform : textForm s = s := by
      rw [textForm, if_neg]
      simp [hneeds]
    simp only [needsQuotes, Bool.or_eq_true, List.isEmpty_iff, bne_iff_ne, List.any_eq_true,
      not_or, not_exists, not_and, Bool.not_eq_true, Option.isSome_eq_false_iff,
      Option.isNone_iff_eq_none, ne_eq, not_not] at hneeds
    obtain ⟨⟨⟨hne, htrim⟩, hbare⟩, hnumber⟩ := hneeds
    refine ⟨.bare (String.ofList s), ?_, .inr ⟨rfl, hnumber⟩⟩
    rw [hform]
    exact tokensFrom_bare hne (Text.trim_eq_self_iff.1 htrim) hbare hrest column

theorem exists_itemTree_text (content : String) {rest : Text} (hquote : '"' ∉ content.toList)
    (hrest : Delimited rest) (column : Nat) :
    ∃ t : ItemTree, tokensFrom column (textForm content.toList ++ rest) =
        t.tokens ++ tokensFrom (column + Text.byteSize (textForm content.toList)) rest ∧
      t.literal = text content := by
  obtain ⟨kind, htokens, rfl | ⟨rfl, hnumber⟩⟩ := tokensFrom_textForm hquote hrest column
  · exact ⟨.quoted content column, by simpa [ItemTree.tokens] using htokens, rfl⟩
  · refine ⟨.bare content column, by simpa [ItemTree.tokens] using htokens, ?_⟩
    rw [ItemTree.literal, hnumber]

theorem exists_keyTree {key : String} {rest : Text} (hquote : '"' ∉ key.toList)
    (hrest : Delimited rest) (column : Nat) :
    ∃ k : KeyTree, tokensFrom column (textForm key.toList ++ rest) =
        k.tokens ++ tokensFrom (column + Text.byteSize (textForm key.toList)) rest ∧
      k.name = key := by
  obtain ⟨kind, htokens, rfl | ⟨rfl, -⟩⟩ := tokensFrom_textForm hquote hrest column
  · exact ⟨.quoted key column, by simpa [KeyTree.tokens] using htokens, rfl⟩
  · exact ⟨.bare key column, by simpa [KeyTree.tokens] using htokens, rfl⟩

theorem exists_itemTree_finite (negative : Bool) (rank : Fin Binary64.magnitudeCount) {rest : Text}
    (hrest : Delimited rest) (column : Nat) :
    ∃ t : ItemTree, tokensFrom column ((Binary64.finite negative rank).toText ++ rest) =
        t.tokens ++
          tokensFrom (column + Text.byteSize (Binary64.finite negative rank).toText) rest ∧
      t.literal = number (.finite negative rank) := by
  have hchars : ∀ c ∈ (Binary64.finite negative rank).toText,
      Text.isBlank c = false ∧ endsBare c = false := by
    intro c hc
    rcases Binary64.mem_toText_finite hc with hdigit | rfl | rfl
    · have hword := Text.isWordChar_of_isDigit hdigit
      exact ⟨Text.isBlank_of_isWordChar hword, endsBare_of_isWordChar hword⟩
    · decide
    · decide
  refine ⟨.bare (String.ofList (Binary64.finite negative rank).toText) column, ?_, ?_⟩
  · exact tokensFrom_bare (Binary64.toText_finite_ne_nil negative rank)
      (Text.tight_of_forall fun c hc => (hchars c hc).1) (fun c hc => (hchars c hc).2) hrest column
  · rw [ItemTree.literal, String.toList_ofList, Binary64.ofText?_toText]

theorem delimited_followingText (items : List Literal) {rest : Text} (hrest : Delimited rest) :
    Delimited (followingText items ++ rest) := by
  cases items with
  | nil => exact hrest
  | cons item items => exact delimited_cons (by decide) _

mutual

/-- The tokens of a printed literal are those of a derivation of it as it is respelled. -/
theorem exists_itemTree (l : Literal) (hquote : ∀ s ∈ l.texts, '"' ∉ s.toList) {rest : Text}
    (hrest : Delimited rest) (column : Nat) :
    ∃ t : ItemTree, tokensFrom column (l.toText ++ rest) =
        t.tokens ++ tokensFrom (column + Text.byteSize l.toText) rest ∧
      t.literal = l.respelled := by
  match l with
  | number .nan => exact exists_itemTree_text "NaN" (by decide) hrest column
  | number (.infinite true) =>
    exact exists_itemTree_text "-inf" (by decide) hrest column
  | number (.infinite false) =>
    exact exists_itemTree_text "inf" (by decide) hrest column
  | number (.finite negative rank) => exact exists_itemTree_finite negative rank hrest column
  | text content =>
    exact exists_itemTree_text content (hquote content (by simp [texts])) hrest column
  | array items =>
    obtain ⟨a, htokens, hitems⟩ := exists_arrayTree items hquote rest column
    exact ⟨.array a, htokens, by rw [ItemTree.literal, hitems, respelled]⟩

theorem exists_arrayTree (items : List Literal) (hquote : ∀ s ∈ textsOf items, '"' ∉ s.toList)
    (rest : Text) (column : Nat) :
    ∃ a : ArrayTree, tokensFrom column (arrayText items ++ rest) =
        a.tokens ++ tokensFrom (column + Text.byteSize (arrayText items)) rest ∧
      a.items = respelledItems items := by
  match items with
  | [] =>
    refine ⟨.empty column (column + 1), ?_, rfl⟩
    exact (tokensFrom_structural (by decide) rfl _ _).trans
      (congrArg _ (tokensFrom_structural (by decide) rfl _ _))
  | first :: others =>
    have hclosing : Delimited (']' :: rest) := delimited_cons (by decide) rest
    obtain ⟨t, ht, hfirst⟩ := exists_itemTree first
      (fun s hs => hquote s (List.mem_append_left _ hs))
      (delimited_followingText others hclosing) (column + 1)
    obtain ⟨o, ho, hothers⟩ := exists_itemsTree others
      (fun s hs => hquote s (List.mem_append_right _ hs)) hclosing
      (column + 1 + Text.byteSize first.toText)
    set closing := column + 1 + Text.byteSize first.toText + Text.byteSize (followingText others)
      with hcolumn
    have hopen : tokensFrom column (arrayText (first :: others) ++ rest) =
        ⟨.openBracket, column⟩ :: tokensFrom (column + 1)
          (first.toText ++ (followingText others ++ ']' :: rest)) := by
      rw [arrayText, toText, itemsText, List.append_assoc, List.cons_append, List.append_assoc]
      exact tokensFrom_structural (by decide) rfl _ _
    have hclose : tokensFrom closing (']' :: rest) =
        ⟨.closeBracket, closing⟩ :: tokensFrom (closing + 1) rest :=
      tokensFrom_structural (by decide) rfl _ _
    have hsize : column + Text.byteSize (arrayText (first :: others)) = closing + 1 := by
      simp only [arrayText, toText, itemsText, hcolumn, List.cons_append, Text.byteSize_cons,
        Text.byteSize_append, Text.byteSize_nil, show '['.utf8Size = 1 from rfl,
        show ']'.utf8Size = 1 from rfl]
      omega
    refine ⟨.filled column t o none closing, ?_, by rw [ArrayTree.items, hfirst, hothers]; rfl⟩
    rw [hopen, ht, ho, hclose, hsize]
    simp [ArrayTree.tokens, trailingTokens]

theorem exists_itemsTree (items : List Literal) (hquote : ∀ s ∈ textsOf items, '"' ∉ s.toList)
    {rest : Text} (hrest : Delimited rest) (column : Nat) :
    ∃ o : ItemsTree, tokensFrom column (followingText items ++ rest) =
        o.tokens ++ tokensFrom (column + Text.byteSize (followingText items)) rest ∧
      o.items = respelledItems items := by
  match items with
  | [] => exact ⟨.nil, rfl, rfl⟩
  | item :: others =>
    obtain ⟨t, ht, hitem⟩ := exists_itemTree item
      (fun s hs => hquote s (List.mem_append_left _ hs))
      (delimited_followingText others hrest) (column + 1 + 1)
    obtain ⟨o, ho, hothers⟩ := exists_itemsTree others
      (fun s hs => hquote s (List.mem_append_right _ hs)) hrest
      (column + 1 + 1 + Text.byteSize item.toText)
    have hcomma : tokensFrom column (followingText (item :: others) ++ rest) =
        ⟨.comma, column⟩ :: tokensFrom (column + 1 + 1)
          (item.toText ++ (followingText others ++ rest)) := by
      rw [followingText, List.cons_append, List.cons_append, List.cons_append, List.cons_append,
        List.append_assoc]
      exact tokensFrom_structural_blank (by decide) rfl _ _
    have hsize : column + Text.byteSize (followingText (item :: others)) =
        column + 1 + 1 + Text.byteSize item.toText + Text.byteSize (followingText others) := by
      simp only [followingText, List.cons_append, Text.byteSize_cons, Text.byteSize_append,
        show ','.utf8Size = 1 from rfl, show ' '.utf8Size = 1 from rfl]
      omega
    refine ⟨.cons column t o, ?_, by rw [ItemsTree.items, hitem, hothers]; rfl⟩
    rw [hcomma, ht, ho, hsize]
    simp [ItemsTree.tokens]

end

/-- The tokens of a printed field are those of a derivation of it as it is respelled. -/
theorem exists_fieldTree (field : String × Literal) (hkey : '"' ∉ field.1.toList)
    (hitem : ∀ s ∈ texts field.2, '"' ∉ s.toList) {rest : Text} (hrest : Delimited rest)
    (column : Nat) :
    ∃ t : FieldTree, tokensFrom column (fieldText field ++ rest) =
        t.tokens ++ tokensFrom (column + Text.byteSize (fieldText field)) rest ∧
      t.field = respelledField field := by
  obtain ⟨key, item⟩ := field
  set colon := column + Text.byteSize (textForm key.toList) with hcolon
  have hdelimited : Delimited (':' :: ' ' :: (toText item ++ rest)) :=
    delimited_cons (by decide) _
  obtain ⟨k, hk, hname⟩ := exists_keyTree hkey hdelimited column
  obtain ⟨t, ht, hliteral⟩ := exists_itemTree item hitem hrest (colon + 1 + 1)
  have hcut : tokensFrom colon (':' :: ' ' :: (toText item ++ rest)) =
      ⟨.colon, colon⟩ :: tokensFrom (colon + 1 + 1) (toText item ++ rest) :=
    tokensFrom_structural_blank (by decide) rfl _ _
  have hsize : column + Text.byteSize (fieldText (key, item)) =
      colon + 1 + 1 + Text.byteSize item.toText := by
    simp only [fieldText, hcolon, Text.byteSize_cons, Text.byteSize_append,
      show ':'.utf8Size = 1 from rfl, show ' '.utf8Size = 1 from rfl]
    omega
  refine ⟨⟨k, colon, t⟩, ?_, by rw [FieldTree.field, hname, hliteral]; rfl⟩
  have htext : fieldText (key, item) ++ rest =
      textForm key.toList ++ ':' :: ' ' :: (toText item ++ rest) := by simp [fieldText]
  rw [htext, hk, hcut, ht, hsize]
  simp [FieldTree.tokens]

def followingFieldsText (fields : List (String × Literal)) : Text :=
  fields.flatMap fun field => ',' :: ' ' :: fieldText field

theorem delimited_followingFieldsText (fields : List (String × Literal)) {rest : Text}
    (hrest : Delimited rest) : Delimited (followingFieldsText fields ++ rest) := by
  cases fields with
  | nil => exact hrest
  | cons field fields => exact delimited_cons (by decide) _

theorem exists_followingFields (fields : List (String × Literal))
    (hquote : ∀ s ∈ fieldTexts fields, '"' ∉ s.toList) {rest : Text} (hrest : Delimited rest)
    (column : Nat) :
    ∃ others : List (Nat × FieldTree), tokensFrom column (followingFieldsText fields ++ rest) =
        followingTokens others ++
          tokensFrom (column + Text.byteSize (followingFieldsText fields)) rest ∧
      others.map (fun other => other.2.field) = fields.map respelledField := by
  induction fields generalizing column with
  | nil => exact ⟨[], rfl, rfl⟩
  | cons field fields ih =>
    rw [fieldTexts, List.flatMap_cons] at hquote
    obtain ⟨t, ht, hfield⟩ := exists_fieldTree field
      (hquote _ (List.mem_append_left _ List.mem_cons_self))
      (fun s hs => hquote s (List.mem_append_left _ (List.mem_cons_of_mem _ hs)))
      (delimited_followingFieldsText fields hrest) (column + 1 + 1)
    obtain ⟨others, ho, hothers⟩ := ih (fun s hs => hquote s (List.mem_append_right _ hs))
      (column + 1 + 1 + Text.byteSize (fieldText field))
    have hcomma : tokensFrom column (followingFieldsText (field :: fields) ++ rest) =
        ⟨.comma, column⟩ :: tokensFrom (column + 1 + 1)
          (fieldText field ++ (followingFieldsText fields ++ rest)) := by
      rw [followingFieldsText, List.flatMap_cons, List.append_assoc, List.cons_append,
        List.cons_append]
      exact tokensFrom_structural_blank (by decide) rfl _ _
    have hsize : column + Text.byteSize (followingFieldsText (field :: fields)) =
        column + 1 + 1 + Text.byteSize (fieldText field) +
          Text.byteSize (followingFieldsText fields) := by
      simp only [followingFieldsText, List.flatMap_cons, Text.byteSize_cons, Text.byteSize_append,
        show ','.utf8Size = 1 from rfl, show ' '.utf8Size = 1 from rfl]
      omega
    refine ⟨(column, t) :: others, ?_, by rw [List.map_cons, hfield, hothers, List.map_cons]⟩
    rw [hcomma, ht, ho, hsize]
    simp

theorem exists_objectTree (fields : Fields)
    (hquote : ∀ s ∈ fieldTexts fields.entries, '"' ∉ s.toList) :
    ∃ o : ObjectTree, tokens (objectText fields) = o.tokens ∧
      o.written = (respelledFields fields).entries := by
  obtain ⟨entries, hnodup⟩ := fields
  cases entries with
  | nil =>
    have hclose : tokensFrom 1 ['}'] = [⟨.closeBrace, 1⟩] := by
      rw [tokensFrom_structural (by decide) rfl]
      simp [tokensFrom]
    refine ⟨.empty 0 1, ?_, rfl⟩
    exact (tokensFrom_structural (c := '{') (by decide) rfl 0 ['}']).trans
      (congrArg _ hclose)
  | cons first fields =>
    simp only [fieldTexts, List.flatMap_cons] at hquote
    have hclosing : Delimited ['}'] := delimited_cons (by decide) []
    obtain ⟨t, ht, hfirst⟩ := exists_fieldTree first
      (hquote _ (List.mem_append_left _ List.mem_cons_self))
      (fun s hs => hquote s (List.mem_append_left _ (List.mem_cons_of_mem _ hs)))
      (delimited_followingFieldsText fields hclosing) 1
    obtain ⟨others, ho, hothers⟩ := exists_followingFields fields
      (fun s hs => hquote s (List.mem_append_right _ hs)) hclosing
      (1 + Text.byteSize (fieldText first))
    set closing := 1 + Text.byteSize (fieldText first) + Text.byteSize (followingFieldsText fields)
    have htext : objectText ⟨first :: fields, hnodup⟩ =
        '{' :: (fieldText first ++ (followingFieldsText fields ++ ['}'])) := by
      simp [objectText, Text.commaSeparated_cons, followingFieldsText, List.flatMap_map]
    have hopen : tokens ('{' :: (fieldText first ++ (followingFieldsText fields ++ ['}']))) =
        ⟨.openBrace, 0⟩ ::
          tokensFrom 1 (fieldText first ++ (followingFieldsText fields ++ ['}'])) :=
      tokensFrom_structural (by decide) rfl _ _
    have hclose : tokensFrom closing ['}'] = [⟨.closeBrace, closing⟩] := by
      rw [tokensFrom_structural (by decide) rfl]
      simp [tokensFrom]
    refine ⟨.filled 0 t others none closing, ?_, ?_⟩
    · rw [htext, hopen, ht, ho, hclose]
      simp [ObjectTree.tokens, trailingTokens]
    · rw [ObjectTree.written, hfirst, hothers]
      rfl

/-- A printed array is read as the respelled array. -/
theorem arrayOfText_arrayText {items : List Literal}
    (hquote : ∀ s ∈ textsOf items, '"' ∉ s.toList) :
    arrayOfText (arrayText items) = .ok (respelledItems items) := by
  obtain ⟨a, htokens, hitems⟩ := exists_arrayTree items hquote [] 0
  rw [List.append_nil, tokensFrom, List.append_nil] at htokens
  exact arrayOfText_eq_ok_iff.2 ⟨a, htokens, hitems⟩

/-- A printed object is read as the respelled object. -/
theorem objectOfText_objectText {fields : Fields}
    (hquote : ∀ s ∈ fieldTexts fields.entries, '"' ∉ s.toList) :
    objectOfText (objectText fields) = .ok (respelledFields fields) := by
  obtain ⟨o, htokens, hwritten⟩ := exists_objectTree fields hquote
  refine objectOfText_eq_ok_iff.2 ⟨o, htokens, ?_⟩
  rw [hwritten]
  exact NameTable.ext (NameTable.entries_ofList (respelledFields fields).nodup)

end Derivation

section Contents

def IsRun (token : Token) (content : String) : Prop :=
  token.kind = .bare content ∨ token.kind = .quoted content

mutual

theorem exists_run_of_mem_texts (t : ItemTree) {s : String} (h : s ∈ t.literal.texts) :
    ∃ token ∈ t.tokens, IsRun token s := by
  match t with
  | .bare content column =>
    rw [ItemTree.literal] at h
    split at h
    · cases h
    · obtain rfl := List.mem_singleton.1 h
      exact ⟨_, List.mem_singleton.2 rfl, .inl rfl⟩
  | .quoted content column =>
    obtain rfl := List.mem_singleton.1 h
    exact ⟨_, List.mem_singleton.2 rfl, .inr rfl⟩
  | .array a => exact exists_run_of_mem_textsOf_array a h

theorem exists_run_of_mem_textsOf_array (a : ArrayTree) {s : String} (h : s ∈ textsOf a.items) :
    ∃ token ∈ a.tokens, IsRun token s := by
  match a with
  | .empty _ _ => cases h
  | .filled opening first others trailing closing =>
    rw [ArrayTree.items, textsOf, List.mem_append] at h
    rw [ArrayTree.tokens]
    rcases h with hfirst | hothers
    · obtain ⟨token, hmem, hrun⟩ := exists_run_of_mem_texts first hfirst
      exact ⟨token, by simp [hmem], hrun⟩
    · obtain ⟨token, hmem, hrun⟩ := exists_run_of_mem_textsOf others hothers
      exact ⟨token, by simp [hmem], hrun⟩

theorem exists_run_of_mem_textsOf (o : ItemsTree) {s : String} (h : s ∈ textsOf o.items) :
    ∃ token ∈ o.tokens, IsRun token s := by
  match o with
  | .nil => cases h
  | .cons comma item others =>
    rw [ItemsTree.items, textsOf, List.mem_append] at h
    rw [ItemsTree.tokens]
    rcases h with hitem | hothers
    · obtain ⟨token, hmem, hrun⟩ := exists_run_of_mem_texts item hitem
      exact ⟨token, by simp [hmem], hrun⟩
    · obtain ⟨token, hmem, hrun⟩ := exists_run_of_mem_textsOf others hothers
      exact ⟨token, by simp [hmem], hrun⟩

end

theorem exists_run_of_field {t : FieldTree} {s : String}
    (h : s = t.field.1 ∨ s ∈ texts t.field.2) : ∃ token ∈ t.tokens, IsRun token s := by
  obtain ⟨key, colon, item⟩ := t
  rcases h with rfl | hitem
  · cases key with
    | bare content column => exact ⟨_, List.mem_cons_self, .inl rfl⟩
    | quoted content column => exact ⟨_, List.mem_cons_self, .inr rfl⟩
  · obtain ⟨token, hmem, hrun⟩ := exists_run_of_mem_texts item hitem
    exact ⟨token, by simp [FieldTree.tokens, hmem], hrun⟩

theorem exists_run_of_written {o : ObjectTree} {field : String × Literal} {s : String}
    (hfield : field ∈ o.written) (h : s = field.1 ∨ s ∈ texts field.2) :
    ∃ token ∈ o.tokens, IsRun token s := by
  cases o with
  | empty _ _ => cases hfield
  | filled opening first others trailing closing =>
    rw [ObjectTree.tokens]
    rcases List.mem_cons.1 hfield with rfl | hothers
    · obtain ⟨token, hmem, hrun⟩ := exists_run_of_field h
      exact ⟨token, by simp [hmem], hrun⟩
    · obtain ⟨other, hother, rfl⟩ := List.mem_map.1 hothers
      obtain ⟨token, hmem, hrun⟩ := exists_run_of_field h
      refine ⟨token, ?_, hrun⟩
      have hfollowing : token ∈ followingTokens others :=
        List.mem_flatMap.2 ⟨other, hother, List.mem_cons_of_mem _ hmem⟩
      simp [hfollowing]

/-- The texts of an array are made of characters of its source other than quotes. -/
theorem mem_of_arrayOfText {source : Text} {items : List Literal}
    (h : arrayOfText source = .ok items) {s : String} (hs : s ∈ textsOf items) {c : Char}
    (hc : c ∈ s.toList) : c ∈ source ∧ c ≠ '"' := by
  obtain ⟨a, htokens, rfl⟩ := arrayOfText_eq_ok_iff.1 h
  obtain ⟨token, hmem, hrun⟩ := exists_run_of_mem_textsOf_array a hs
  exact mem_of_mem_content (htokens ▸ hmem) hrun hc

/-- The keys and texts of an object are made of characters of its source other than quotes. -/
theorem mem_of_objectOfText {source : Text} {fields : Fields}
    (h : objectOfText source = .ok fields) {s : String} (hs : s ∈ fieldTexts fields.entries)
    {c : Char} (hc : c ∈ s.toList) : c ∈ source ∧ c ≠ '"' := by
  obtain ⟨o, htokens, rfl⟩ := objectOfText_eq_ok_iff.1 h
  obtain ⟨field, hfield, hmem⟩ := List.mem_flatMap.1 hs
  obtain ⟨token, htoken, hrun⟩ :=
    exists_run_of_written (NameTable.mem_of_mem_ofList hfield) (List.mem_cons.1 hmem)
  exact mem_of_mem_content (htokens ▸ htoken) hrun hc

end Contents

end Literal

end CellCheck
