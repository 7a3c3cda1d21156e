import CellCheck.Proofs.Literal.Grammar

/-!
# The readers accept the grammar

A reader that comes to the first token of a derivation goes through all of its tokens and adds what
it stands for. Conversely a run that succeeds has read what the open arrays demand, each one the
rest of its items and its closing bracket.
-/

namespace CellCheck

theorem ArrayTree.tokens_eq_cons (a : ArrayTree) :
    ∃ opening, a.tokens = ⟨.openBracket, opening⟩ :: a.tokens.tail := by
  cases a with
  | empty opening closing => exact ⟨opening, rfl⟩
  | filled opening first others trailing closing => exact ⟨opening, rfl⟩

namespace Literal

section Complete

/-- The innermost array is closed and becomes an item of the array around it. -/
def closeArray (outer : List (List Literal)) (items : List Literal) (rest : List Token) :
    Reading (List Literal) :=
  match outer with
  | [] => (.ok items.reverse, rest)
  | parent :: outer => readItems outer (array items.reverse :: parent) true rest

theorem readItems_opening (outer : List (List Literal)) (items : List Literal) (opening : Nat)
    (rest : List Token) :
    readItems outer items false (⟨.openBracket, opening⟩ :: rest) =
      readItems (items :: outer) [] false rest := rfl

theorem readItems_comma (outer : List (List Literal)) (items : List Literal) (comma : Nat)
    (rest : List Token) :
    readItems outer items true (⟨.comma, comma⟩ :: rest) = readItems outer items false rest := rfl

theorem readItems_closing (outer : List (List Literal)) (items : List Literal) (afterItem : Bool)
    (closing : Nat) (rest : List Token) :
    readItems outer items afterItem (⟨.closeBracket, closing⟩ :: rest) =
      closeArray outer items rest := by
  cases outer <;> cases afterItem <;> rfl

theorem readItems_trailing (outer : List (List Literal)) (items : List Literal)
    (trailing : Option Nat) (closing : Nat) (rest : List Token) :
    readItems outer items true (trailingTokens trailing ++ ⟨.closeBracket, closing⟩ :: rest) =
      closeArray outer items rest := by
  cases trailing with
  | none => exact readItems_closing outer items true closing rest
  | some column =>
    rw [trailingTokens, List.cons_append, List.nil_append, readItems_comma]
    exact readItems_closing outer items false closing rest

mutual

theorem readItems_item (t : ItemTree) (outer : List (List Literal)) (items : List Literal)
    (rest : List Token) :
    readItems outer items false (t.tokens ++ rest) =
      readItems outer (t.literal :: items) true rest := by
  match t with
  | .bare content column => rw [ItemTree.tokens, ItemTree.literal]; rfl
  | .quoted content column => rw [ItemTree.tokens, ItemTree.literal]; rfl
  | .array a =>
    obtain ⟨opening, ha⟩ := a.tokens_eq_cons
    rw [ItemTree.tokens, ha, List.cons_append, readItems_opening, readItems_array a,
      ItemTree.literal, closeArray, List.reverse_reverse]

/-- An array is read from behind its first bracket. -/
theorem readItems_array (a : ArrayTree) (outer : List (List Literal)) (rest : List Token) :
    readItems outer [] false (a.tokens.tail ++ rest) = closeArray outer a.items.reverse rest := by
  match a with
  | .empty opening closing =>
    rw [ArrayTree.tokens, List.tail_cons, List.cons_append, List.nil_append, readItems_closing]
    rfl
  | .filled opening first others trailing closing =>
    rw [ArrayTree.tokens, List.tail_cons]
    simp only [List.append_assoc, List.cons_append, List.nil_append]
    rw [readItems_item first, readItems_others others, readItems_trailing, ArrayTree.items,
      List.reverse_cons]

theorem readItems_others (o : ItemsTree) (outer : List (List Literal)) (items : List Literal)
    (rest : List Token) :
    readItems outer items true (o.tokens ++ rest) =
      readItems outer (o.items.reverse ++ items) true rest := by
  match o with
  | .nil => rw [ItemsTree.tokens, ItemsTree.items]; rfl
  | .cons comma item others =>
    rw [ItemsTree.tokens, List.cons_append, readItems_comma, List.append_assoc,
      readItems_item item, readItems_others others, ItemsTree.items]
    simp

end

end Complete

section Sound

/-- The rest of an array where a comma or the bracket comes next, with its items. -/
def AfterItem (ts : List Token) (items : List Literal) (rest : List Token) : Prop :=
  ∃ (others : ItemsTree) (trailing : Option Nat) (closing : Nat),
    ts = others.tokens ++ (trailingTokens trailing ++ ⟨.closeBracket, closing⟩ :: rest) ∧
      items = others.items

/-- The rest of an array where an item or the bracket comes next, with its items. -/
def BeforeItem (ts : List Token) (items : List Literal) (rest : List Token) : Prop :=
  (∃ closing, ts = ⟨.closeBracket, closing⟩ :: rest ∧ items = []) ∨
    ∃ (item : ItemTree) (ts' : List Token) (items' : List Literal),
      ts = item.tokens ++ ts' ∧ items = item.literal :: items' ∧ AfterItem ts' items' rest

def Remainder (afterItem : Bool) : List Token → List Literal → List Token → Prop :=
  if afterItem then AfterItem else BeforeItem

theorem Remainder.closing (afterItem : Bool) (closing : Nat) (rest : List Token) :
    Remainder afterItem (⟨.closeBracket, closing⟩ :: rest) [] rest := by
  cases afterItem with
  | false => exact .inl ⟨closing, rfl, rfl⟩
  | true => exact ⟨.nil, none, closing, rfl, rfl⟩

theorem Remainder.comma {ts : List Token} {items : List Literal} {rest : List Token}
    (h : Remainder false ts items rest) (comma : Nat) :
    Remainder true (⟨.comma, comma⟩ :: ts) items rest := by
  rcases h with ⟨closing, rfl, rfl⟩ | ⟨item, ts', items', rfl, rfl, others, trailing, closing, rfl,
    rfl⟩
  · exact ⟨.nil, some comma, closing, rfl, rfl⟩
  · refine ⟨.cons comma item others, trailing, closing, ?_, rfl⟩
    simp only [ItemsTree.tokens, List.cons_append, List.append_assoc]

theorem Remainder.item {ts : List Token} {items : List Literal} {rest : List Token}
    (h : Remainder true ts items rest) (item : ItemTree) :
    Remainder false (item.tokens ++ ts) (item.literal :: items) rest :=
  .inr ⟨item, ts, items, rfl, rfl, h⟩

/-- What is left of an array behind its first bracket makes up the array. -/
theorem Remainder.exists_array {ts : List Token} {items : List Literal} {rest : List Token}
    (h : Remainder false ts items rest) (opening : Nat) :
    ∃ a : ArrayTree, ⟨.openBracket, opening⟩ :: ts = a.tokens ++ rest ∧ a.items = items := by
  rcases h with ⟨closing, rfl, rfl⟩ | ⟨item, ts', items', rfl, rfl, others, trailing, closing, rfl,
    rfl⟩
  · exact ⟨.empty opening closing, rfl, rfl⟩
  · refine ⟨.filled opening item others trailing closing, ?_, rfl⟩
    simp only [ArrayTree.tokens, List.cons_append, List.append_assoc, List.nil_append]

/-- The tokens left contain the remainders of all open arrays from the inside out, where each
array is an item of the next one. -/
def Closes : List (List Literal) → List Literal → Bool → List Token → List Literal →
    List Token → Prop
  | [], items, afterItem, ts, result, rest =>
    ∃ more, Remainder afterItem ts more rest ∧ result = items.reverse ++ more
  | parent :: outer, items, afterItem, ts, result, rest =>
    ∃ more ts', Remainder afterItem ts more ts' ∧
      Closes outer (array (items.reverse ++ more) :: parent) true ts' result rest

/-- Tokens in front that add items to the innermost array. -/
theorem Closes.front {outer : List (List Literal)} {items : List Literal} (new : List Literal)
    {b b' : Bool} {ts ts' : List Token} {result : List Literal} {rest : List Token}
    (h : Closes outer (new.reverse ++ items) b ts result rest)
    (hfront : ∀ more r, Remainder b ts more r → Remainder b' ts' (new ++ more) r) :
    Closes outer items b' ts' result rest := by
  cases outer with
  | nil =>
    obtain ⟨more, hmore, rfl⟩ := h
    exact ⟨new ++ more, hfront more rest hmore, by simp⟩
  | cons parent outer =>
    obtain ⟨more, r, hmore, hcloses⟩ := h
    refine ⟨new ++ more, r, hfront more r hmore, ?_⟩
    simpa using hcloses

theorem closes_closing {outer : List (List Literal)} {items : List Literal} (afterItem : Bool)
    (closing : Nat) {ts : List Token} {result : List Literal} {rest : List Token}
    (ih : ∀ outer items, readItems outer items true ts = (.ok result, rest) →
      Closes outer items true ts result rest)
    (h : closeArray outer items ts = (.ok result, rest)) :
    Closes outer items afterItem (⟨.closeBracket, closing⟩ :: ts) result rest := by
  cases outer with
  | nil =>
    obtain ⟨rfl, rfl⟩ : items.reverse = result ∧ ts = rest := by simpa [closeArray] using h
    exact ⟨[], Remainder.closing afterItem closing ts, by simp⟩
  | cons parent outer =>
    refine ⟨[], ts, Remainder.closing afterItem closing ts, ?_⟩
    rw [List.append_nil]
    exact ih _ _ h

/-- The induction is on the tokens, and every kind of token that goes on leaves a state that the
hypothesis speaks about. -/
theorem closes_of_readItems (outer : List (List Literal)) (items : List Literal)
    (afterItem : Bool) (ts : List Token) (result : List Literal) (rest : List Token)
    (h : readItems outer items afterItem ts = (.ok result, rest)) :
    Closes outer items afterItem ts result rest := by
  induction ts generalizing outer items afterItem with
  | nil => cases h
  | cons token ts ih =>
    obtain ⟨kind, column⟩ := token
    cases kind with
    | closeBracket =>
      rw [readItems_closing] at h
      exact closes_closing afterItem column (fun outer items => ih outer items true) h
    | comma =>
      cases afterItem with
      | false => cases h
      | true => exact (ih outer items false h).front [] fun _ _ hr => hr.comma column
    | openBracket =>
      cases afterItem with
      | true => cases h
      | false =>
        obtain ⟨more, ts', hmore, hcloses⟩ := ih (items :: outer) [] false h
        obtain ⟨a, hts, hitems⟩ := hmore.exists_array column
        rw [hts]
        refine Closes.front [array a.items] ?_ fun _ _ hr => hr.item (.array a)
        rw [hitems]
        exact hcloses
    | quoted content =>
      cases afterItem with
      | true => cases h
      | false =>
        exact (ih outer (_ :: items) true h).front [_]
          fun _ _ hr => hr.item (.quoted content column)
    | bare content =>
      cases afterItem with
      | true => cases h
      | false =>
        exact (ih outer (_ :: items) true h).front [_]
          fun _ _ hr => hr.item (.bare content column)
    | _ => cases afterItem <;> cases h

end Sound

section Array

theorem readArray_opening (opening : Nat) (ts : List Token) :
    readArray (⟨.openBracket, opening⟩ :: ts) = readItems [] [] false ts := by
  simp [readArray, expect]

theorem readArray_tokens (a : ArrayTree) (rest : List Token) :
    readArray (a.tokens ++ rest) = (.ok a.items, rest) := by
  obtain ⟨opening, ha⟩ := a.tokens_eq_cons
  rw [ha, List.cons_append, readArray_opening, readItems_array, closeArray, List.reverse_reverse]

theorem expect_eq_ok_iff {kind : TokenKind} {ts rest : List Token} :
    expect kind ts = (.ok (), rest) ↔ ∃ column, ts = ⟨kind, column⟩ :: rest := by
  cases ts with
  | nil => simp [expect]
  | cons token ts =>
    obtain ⟨kind', column⟩ := token
    by_cases h : kind' = kind <;> simp [expect, h]

theorem readArray_eq_ok_iff {ts : List Token} {items : List Literal} {rest : List Token} :
    readArray ts = (.ok items, rest) ↔
      ∃ a : ArrayTree, ts = a.tokens ++ rest ∧ a.items = items := by
  constructor
  · intro h
    unfold readArray at h
    split at h
    · next ts' hexpect =>
      obtain ⟨opening, rfl⟩ := expect_eq_ok_iff.1 hexpect
      obtain ⟨more, hmore, rfl⟩ := closes_of_readItems [] [] false ts' items rest h
      exact hmore.exists_array opening
    · cases h
  · rintro ⟨a, rfl, rfl⟩
    exact readArray_tokens a rest

end Array

section Object

theorem readItem_opening (opening : Nat) (ts : List Token) :
    readItem (⟨.openBracket, opening⟩ :: ts) =
      match readItems [] [] false ts with
      | (.ok items, rest) => (.ok (array items), rest)
      | (.error e, rest) => (.error e, rest) := rfl

theorem readItem_eq_ok_iff {ts : List Token} {item : Literal} {rest : List Token} :
    readItem ts = (.ok item, rest) ↔ ∃ t : ItemTree, ts = t.tokens ++ rest ∧ t.literal = item := by
  constructor
  · intro h
    cases ts with
    | nil => cases h
    | cons token ts =>
      obtain ⟨kind, column⟩ := token
      cases kind with
      | openBracket =>
        rw [readItem_opening] at h
        split at h
        · next items rest' hitems =>
          cases h
          rw [← readArray_opening column] at hitems
          obtain ⟨a, hts, rfl⟩ := readArray_eq_ok_iff.1 hitems
          exact ⟨.array a, hts, rfl⟩
        · cases h
      | quoted content =>
        cases h
        exact ⟨.quoted content column, rfl, rfl⟩
      | bare content =>
        cases h
        exact ⟨.bare content column, rfl, rfl⟩
      | _ => cases h
  · rintro ⟨t, rfl, rfl⟩
    match t with
    | .bare content column => rw [ItemTree.tokens, ItemTree.literal]; rfl
    | .quoted content column => rw [ItemTree.tokens, ItemTree.literal]; rfl
    | .array a =>
      obtain ⟨opening, ha⟩ := a.tokens_eq_cons
      rw [ItemTree.tokens, ha, List.cons_append, readItem_opening, readItems_array, closeArray,
        List.reverse_reverse, ItemTree.literal]

theorem readKey_eq_ok_iff {ts : List Token} {key : String} {rest : List Token} :
    readKey ts = (.ok key, rest) ↔ ∃ t : KeyTree, ts = t.tokens ++ rest ∧ t.name = key := by
  constructor
  · intro h
    cases ts with
    | nil => cases h
    | cons token ts =>
      obtain ⟨kind, column⟩ := token
      cases kind with
      | quoted content =>
        cases h
        exact ⟨.quoted key column, rfl, rfl⟩
      | bare content =>
        cases h
        exact ⟨.bare key column, rfl, rfl⟩
      | _ => cases h
  · rintro ⟨t, rfl, rfl⟩
    cases t <;> rfl

theorem readField_eq_ok_iff {ts : List Token} {field : String × Literal} {rest : List Token} :
    readField ts = (.ok field, rest) ↔
      ∃ t : FieldTree, ts = t.tokens ++ rest ∧ t.field = field := by
  constructor
  · intro h
    unfold readField at h
    split at h
    · cases h
    · next key afterKey hkey =>
      split at h
      · cases h
      · next afterColon hcolon =>
        split at h
        · cases h
        · next item afterItem hitem =>
          cases h
          obtain ⟨k, rfl, rfl⟩ := readKey_eq_ok_iff.1 hkey
          obtain ⟨colon, rfl⟩ := expect_eq_ok_iff.1 hcolon
          obtain ⟨t, rfl, rfl⟩ := readItem_eq_ok_iff.1 hitem
          refine ⟨⟨k, colon, t⟩, ?_, rfl⟩
          simp only [FieldTree.tokens, List.append_assoc, List.cons_append]
  · rintro ⟨⟨k, colon, t⟩, rfl, rfl⟩
    have hkey : readKey (k.tokens ++ ⟨.colon, colon⟩ :: (t.tokens ++ rest)) =
        (.ok k.name, ⟨.colon, colon⟩ :: (t.tokens ++ rest)) :=
      readKey_eq_ok_iff.2 ⟨k, rfl, rfl⟩
    have hcolon : expect .colon (⟨.colon, colon⟩ :: (t.tokens ++ rest)) =
        (.ok (), t.tokens ++ rest) := expect_eq_ok_iff.2 ⟨colon, rfl⟩
    have hitem : readItem (t.tokens ++ rest) = (.ok t.literal, rest) :=
      readItem_eq_ok_iff.2 ⟨t, rfl, rfl⟩
    simp only [readField, FieldTree.tokens, FieldTree.field, List.append_assoc, List.cons_append,
      hkey, hcolon, hitem]

theorem readFields_closing (fields : Fields) (closing : Nat) (rest : List Token) :
    readFields fields (⟨.closeBrace, closing⟩ :: rest) = (.ok fields, rest) := by
  rw [readFields, if_pos rfl]

theorem FieldTree.exists_tokens_eq_cons (t : FieldTree) :
    ∃ token rest, t.tokens = token :: rest ∧ token.kind ≠ .closeBrace := by
  obtain ⟨key, colon, item⟩ := t
  cases key <;> exact ⟨_, _, rfl, nofun⟩

/-- After a field the next token decides. -/
theorem readFields_field (fields : Fields) (t : FieldTree) (next : Token) (rest : List Token) :
    readFields fields (t.tokens ++ next :: rest) =
      match next.kind with
      | .comma => readFields (fields.insert t.field.1 t.field.2) rest
      | .closeBrace => (.ok (fields.insert t.field.1 t.field.2), rest)
      | _ => (.error (.unexpectedToken next), rest) := by
  have hfield : readField (t.tokens ++ next :: rest) = (.ok t.field, next :: rest) :=
    readField_eq_ok_iff.2 ⟨t, rfl, rfl⟩
  obtain ⟨token, more, ht, hne⟩ := FieldTree.exists_tokens_eq_cons t
  rw [ht, List.cons_append] at hfield ⊢
  rw [readFields, if_neg hne]
  cases hnext : next.kind <;> simp only [hfield, List.head?_cons, List.tail_cons, hnext]

def insertAll (fields : Fields) (written : List (String × Literal)) : Fields :=
  written.foldl (fun fields field => fields.insert field.1 field.2) fields

theorem readFields_following (fields : Fields) (t : FieldTree) (others : List (Nat × FieldTree))
    (trailing : Option Nat) (closing : Nat) (rest : List Token) :
    readFields fields (t.tokens ++ (followingTokens others ++
        (trailingTokens trailing ++ ⟨.closeBrace, closing⟩ :: rest))) =
      (.ok (insertAll fields (t.field :: others.map fun other => other.2.field)), rest) := by
  induction others generalizing fields t with
  | nil =>
    cases trailing with
    | none => exact readFields_field fields t _ rest
    | some column => exact (readFields_field fields t _ _).trans (readFields_closing _ closing rest)
  | cons other others ih =>
    have hnext := readFields_field fields t ⟨.comma, other.1⟩ (other.2.tokens ++
      (followingTokens others ++ (trailingTokens trailing ++ ⟨.closeBrace, closing⟩ :: rest)))
    rw [ih] at hnext
    rw [followingTokens_cons, List.cons_append, List.append_assoc]
    exact hnext

theorem exists_field_of_readField {ts : List Token} {field : String × Literal} {next : Token}
    (hfield : (readField ts).1 = .ok field) (hnext : (readField ts).2.head? = some next) :
    ∃ t : FieldTree, ts = t.tokens ++ next :: (readField ts).2.tail ∧ t.field = field := by
  obtain ⟨more, hmore⟩ := List.head?_eq_some_iff.1 hnext
  apply readField_eq_ok_iff.1
  rw [hmore, List.tail_cons, ← hfield, ← hmore]

theorem readFields_sound (fields : Fields) (ts : List Token) (result : Fields) (rest : List Token)
    (h : readFields fields ts = (.ok result, rest)) :
    (∃ closing, ts = ⟨.closeBrace, closing⟩ :: rest ∧ result = fields) ∨
      ∃ (t : FieldTree) (others : List (Nat × FieldTree)) (trailing : Option Nat) (closing : Nat),
        ts = t.tokens ++ (followingTokens others ++
          (trailingTokens trailing ++ ⟨.closeBrace, closing⟩ :: rest)) ∧
        result = insertAll fields (t.field :: others.map fun other => other.2.field) := by
  fun_induction readFields fields ts with
  | case1 => cases h
  | case2 fields token ts hkind =>
    cases h
    obtain ⟨kind, column⟩ := token
    cases hkind
    exact .inl ⟨column, rfl, rfl⟩
  | case3 => cases h
  | case4 => cases h
  | case5 fields token ts hkind _ _ key item next hnext hfield hcomma ih =>
    obtain ⟨t, hts, ht⟩ := exists_field_of_readField hfield hnext
    obtain ⟨kind, comma⟩ := next
    cases hcomma
    rcases ih h with ⟨closing, htail, rfl⟩ | ⟨t', others, trailing, closing, htail, rfl⟩
    · refine .inr ⟨t, [], some comma, closing, ?_, by rw [ht]; rfl⟩
      rw [hts, htail]
      rfl
    · refine .inr ⟨t, (comma, t') :: others, trailing, closing, ?_, by rw [ht]; rfl⟩
      rw [hts, htail, followingTokens_cons, List.cons_append, List.append_assoc]
  | case6 fields token ts hkind _ _ key item next hnext hfield hclosing =>
    obtain ⟨t, hts, ht⟩ := exists_field_of_readField hfield hnext
    obtain ⟨kind, closing⟩ := next
    cases hclosing
    cases h
    exact .inr ⟨t, [], none, closing, hts, by rw [ht]; rfl⟩
  | case7 => cases h

theorem readObject_opening (opening : Nat) (ts : List Token) :
    readObject (⟨.openBrace, opening⟩ :: ts) = readFields .empty ts := by
  simp [readObject, expect]

theorem readObject_eq_ok_iff {ts : List Token} {fields : Fields} {rest : List Token} :
    readObject ts = (.ok fields, rest) ↔
      ∃ o : ObjectTree, ts = o.tokens ++ rest ∧ NameTable.ofList o.written = fields := by
  constructor
  · intro h
    unfold readObject at h
    split at h
    · next ts' hexpect =>
      obtain ⟨opening, rfl⟩ := expect_eq_ok_iff.1 hexpect
      rcases readFields_sound .empty ts' fields rest h with
        ⟨closing, rfl, rfl⟩ | ⟨t, others, trailing, closing, rfl, rfl⟩
      · exact ⟨.empty opening closing, rfl, rfl⟩
      · refine ⟨.filled opening t others trailing closing, ?_, rfl⟩
        simp only [ObjectTree.tokens, List.cons_append, List.append_assoc, List.nil_append]
    · cases h
  · rintro ⟨o, rfl, rfl⟩
    cases o with
    | empty opening closing =>
      rw [ObjectTree.tokens, List.cons_append, List.cons_append, readObject_opening,
        readFields_closing]
      rfl
    | filled opening t others trailing closing =>
      rw [ObjectTree.tokens, List.cons_append, readObject_opening]
      simp only [List.append_assoc, List.cons_append, List.nil_append]
      exact readFields_following .empty t others trailing closing rest

end Object

section Whole

/-- A table of fields is what a list of written fields stands for, just if writing them one after
the other makes it. -/
theorem denotes_iff {written : List (String × Literal)} {fields : Fields} :
    Denotes written fields ↔ NameTable.ofList written = fields := by
  constructor
  · rintro ⟨hnames, hget⟩
    apply NameTable.ext_get?
    · rw [hnames, NameTable.names_ofList]
    · intro key
      rw [hget, NameTable.get?_ofList]
  · rintro rfl
    exact ⟨NameTable.names_ofList written, NameTable.get?_ofList written⟩

theorem whole_eq_ok_iff {α : Type} {reading : Reading α} {result : α} :
    whole reading = .ok result ↔ reading = (.ok result, []) := by
  obtain ⟨outcome, rest⟩ := reading
  cases outcome with
  | error e => simp [whole]
  | ok found => cases rest <;> simp [whole, finish, Except.map]

theorem arrayOfText_eq_ok_iff {text : Text} {items : List Literal} :
    arrayOfText text = .ok items ↔ ∃ a : ArrayTree, tokens text = a.tokens ∧ a.items = items := by
  rw [arrayOfText, whole_eq_ok_iff, readArray_eq_ok_iff]
  simp only [List.append_nil]

theorem objectOfText_eq_ok_iff {text : Text} {fields : Fields} :
    objectOfText text = .ok fields ↔
      ∃ o : ObjectTree, tokens text = o.tokens ∧ NameTable.ofList o.written = fields := by
  rw [objectOfText, whole_eq_ok_iff, readObject_eq_ok_iff]
  simp only [List.append_nil]

/-- The readers accept exactly the tokens of a derivation and what comes behind them, and answer
with what the derivation stands for. The derivation and the place where it ends are unique, and a
whole text is accepted just if all of its tokens make up a derivation. -/
theorem readers_accept_exactly_the_grammar :
    (∀ ts items rest, readArray ts = (.ok items, rest) ↔
      ∃ a : ArrayTree, ts = a.tokens ++ rest ∧ a.items = items) ∧
    (∀ ts fields rest, readObject ts = (.ok fields, rest) ↔
      ∃ o : ObjectTree, ts = o.tokens ++ rest ∧ Denotes o.written fields) ∧
    (∀ (a b : ArrayTree) (r s : List Token), a.tokens ++ r = b.tokens ++ s → a = b ∧ r = s) ∧
    (∀ (o q : ObjectTree) (r s : List Token), o.tokens ++ r = q.tokens ++ s → o = q ∧ r = s) ∧
    (∀ text items, arrayOfText text = .ok items ↔
      ∃ a : ArrayTree, tokens text = a.tokens ∧ a.items = items) ∧
    (∀ text fields, objectOfText text = .ok fields ↔
      ∃ o : ObjectTree, tokens text = o.tokens ∧ Denotes o.written fields) := by
  refine ⟨fun _ _ _ => readArray_eq_ok_iff, ?_, ArrayTree.tokens_append_inj,
    fun _ _ _ _ => ObjectTree.tokens_append_inj, fun _ _ => arrayOfText_eq_ok_iff, ?_⟩
  · intro ts fields rest
    simp only [readObject_eq_ok_iff, denotes_iff]
  · intro text fields
    simp only [objectOfText_eq_ok_iff, denotes_iff]

end Whole

end Literal

end CellCheck
