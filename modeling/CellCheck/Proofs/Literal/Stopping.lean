import CellCheck.Proofs.Literal.Acceptance

/-!
# Where a reader stops

A reader takes one token after the other. As long as it waits for more, something could still follow
that completes what it has taken. It stops at the token that completes its result, or at the first
one that cannot go on, and nothing behind that token matters. So a sequence of readers stops where
the first of them fails, or else where the last one stops.
-/

namespace CellCheck.Literal

variable {α β : Type}

def depthAfter (depth : Nat) (token : Token) : Nat :=
  match token.kind with
  | .openBracket => depth + 1
  | .closeBracket => depth - 1
  | _ => depth

def openArrays (before : List Token) : Nat := before.foldl depthAfter 0

/-- An item may start behind an opening bracket, behind a colon, and behind a comma in an array. -/
def itemMayStart (before : List Token) : Bool :=
  match before.getLast? with
  | none => false
  | some last =>
    match last.kind with
    | .openBracket => true
    | .colon => true
    | .comma => 0 < openArrays before
    | _ => false

def rejection (before : List Token) (token : Token) : LiteralError :=
  if token.kind = .openBrace ∧ itemMayStart before then .nestedObject token
  else .unexpectedToken token

/-- How a reader deals with tokens that come behind others. -/
inductive Stops (before : List Token) (read : List Token → Reading α) (ts : List Token) : Prop
  | done (used rest : List Token) (a : α) (hts : ts = used ++ rest)
      (hread : ∀ more, read (used ++ more) = (.ok a, more))
  | waits (completion : List Token) (a : α) (hread : read ts = (.error .unexpectedEnd, []))
      (hcompletion : ∀ more, read (ts ++ (completion ++ more)) = (.ok a, more))
  | rejects (used : List Token) (token : Token) (rest : List Token)
      (hts : ts = used ++ token :: rest) (hwaits : read used = (.error .unexpectedEnd, []))
      (hread : ∀ more, read (used ++ token :: more) =
        (.error (rejection (before ++ used) token), more))

section Places

theorem openArrays_snoc (before : List Token) (token : Token) :
    openArrays (before ++ [token]) = depthAfter (openArrays before) token := by
  rw [openArrays, List.foldl_concat]
  rfl

theorem itemMayStart_snoc (before : List Token) (token : Token) :
    itemMayStart (before ++ [token]) =
      match token.kind with
      | .openBracket => true
      | .colon => true
      | .comma => decide (0 < openArrays before)
      | _ => false := by
  rw [itemMayStart, List.getLast?_concat, openArrays_snoc]
  obtain ⟨kind, column⟩ := token
  cases kind <;> rfl

theorem rejection_of_not_itemMayStart {before : List Token} (h : itemMayStart before = false)
    (token : Token) : rejection before token = .unexpectedToken token := by
  rw [rejection, if_neg]
  rw [h]
  exact fun hand => Bool.false_ne_true hand.2

theorem foldl_depthAfter_trailing (depth : Nat) (trailing : Option Nat) :
    (trailingTokens trailing).foldl depthAfter depth = depth := by
  cases trailing <;> rfl

mutual

/-- An item closes the arrays that it opens. -/
theorem foldl_depthAfter_item (t : ItemTree) (depth : Nat) :
    t.tokens.foldl depthAfter depth = depth := by
  match t with
  | .bare content column => rw [ItemTree.tokens]; rfl
  | .quoted content column => rw [ItemTree.tokens]; rfl
  | .array a =>
    rw [ItemTree.tokens]
    exact foldl_depthAfter_array a depth

theorem foldl_depthAfter_array (a : ArrayTree) (depth : Nat) :
    a.tokens.foldl depthAfter depth = depth := by
  match a with
  | .empty opening closing => rw [ArrayTree.tokens]; rfl
  | .filled opening first others trailing closing =>
    rw [ArrayTree.tokens, List.foldl_cons, List.foldl_append, List.foldl_append, List.foldl_append,
      foldl_depthAfter_item first, foldl_depthAfter_items others, foldl_depthAfter_trailing]
    rfl

theorem foldl_depthAfter_items (o : ItemsTree) (depth : Nat) :
    o.tokens.foldl depthAfter depth = depth := by
  match o with
  | .nil => rw [ItemsTree.tokens]; rfl
  | .cons comma item others =>
    rw [ItemsTree.tokens, List.foldl_cons, List.foldl_append, foldl_depthAfter_item item,
      foldl_depthAfter_items others]
    rfl

end

theorem openArrays_append_item (before : List Token) (t : ItemTree) :
    openArrays (before ++ t.tokens) = openArrays before := by
  rw [openArrays, List.foldl_append, foldl_depthAfter_item]
  rfl

/-- Behind an item no other one may start. -/
theorem itemMayStart_append_item (before : List Token) (t : ItemTree) :
    itemMayStart (before ++ t.tokens) = false := by
  have hsnoc (front : List Token) (closing : Nat) :
      itemMayStart (before ++ (front ++ [⟨.closeBracket, closing⟩])) = false := by
    rw [← List.append_assoc, itemMayStart_snoc]
  match t with
  | .bare content column => rw [ItemTree.tokens, itemMayStart_snoc]
  | .quoted content column => rw [ItemTree.tokens, itemMayStart_snoc]
  | .array (.empty opening closing) =>
    rw [ItemTree.tokens, ArrayTree.tokens]
    exact hsnoc [_] closing
  | .array (.filled opening first others trailing closing) =>
    rw [ItemTree.tokens, ArrayTree.tokens, ← List.append_assoc, ← List.append_assoc,
      ← List.cons_append]
    exact hsnoc _ closing

end Places

section Sequence

def andThen (read : List Token → Reading α) (next : α → List Token → Reading β)
    (ts : List Token) : Reading β :=
  match read ts with
  | (.ok a, rest) => next a rest
  | (.error e, rest) => (.error e, rest)

variable {before : List Token} {read : List Token → Reading α} {ts : List Token}

theorem andThen_ok {next : α → List Token → Reading β} {a : α} {rest : List Token}
    (h : read ts = (.ok a, rest)) : andThen read next ts = next a rest := by
  rw [andThen, h]

theorem andThen_error {next : α → List Token → Reading β} {e : LiteralError} {rest : List Token}
    (h : read ts = (.error e, rest)) : andThen read next ts = (.error e, rest) := by
  rw [andThen, h]

/-- A token that only changes how the reader goes on. -/
theorem Stops.cons {read' : List Token → Reading α} {token : Token}
    (hread : ∀ more, read (token :: more) = read' more) (h : Stops (before ++ [token]) read' ts) :
    Stops before read (token :: ts) := by
  cases h with
  | done used rest a hts hused =>
    refine .done (token :: used) rest a (congrArg (token :: ·) hts) fun more => ?_
    rw [List.cons_append, hread, hused]
  | waits completion a hwaits hcompletion =>
    refine .waits completion a ((hread ts).trans hwaits) fun more => ?_
    rw [List.cons_append, hread, hcompletion]
  | rejects used offending rest hts hwaits hused =>
    refine .rejects (token :: used) offending rest (congrArg (token :: ·) hts)
      ((hread used).trans hwaits) fun more => ?_
    rw [List.cons_append, hread, hused, List.append_assoc, List.singleton_append]

/-- The next reader takes over where the first one is done. It has to be one that some tokens
complete, since otherwise nothing would complete the first one either. -/
theorem Stops.andThen {next : α → List Token → Reading β} (h : Stops before read ts)
    (hnext : ∀ used a rest, ts = used ++ rest → (∀ more, read (used ++ more) = (.ok a, more)) →
      Stops (before ++ used) (next a) rest)
    (hcomplete : ∀ a, ∃ completion b, ∀ more, next a (completion ++ more) = (.ok b, more)) :
    Stops before (andThen read next) ts := by
  cases h with
  | done used rest a hts hused =>
    subst hts
    cases hnext used a rest rfl hused with
    | done used' rest' b hts' hused' =>
      refine .done (used ++ used') rest' b (by rw [hts', List.append_assoc]) fun more => ?_
      rw [List.append_assoc, andThen_ok (hused _), hused']
    | waits completion b hwaits hcompletion =>
      refine .waits completion b ((andThen_ok (hused rest)).trans hwaits) fun more => ?_
      rw [List.append_assoc, andThen_ok (hused _), hcompletion]
    | rejects used' token rest' hts' hwaits hused' =>
      refine .rejects (used ++ used') token rest' (by rw [hts', List.append_assoc])
        ((andThen_ok (hused used')).trans hwaits) fun more => ?_
      rw [List.append_assoc, andThen_ok (hused _), hused', List.append_assoc]
  | waits completion a hwaits hcompletion =>
    obtain ⟨completion', b, hcompletion'⟩ := hcomplete a
    refine .waits (completion ++ completion') b (andThen_error hwaits) fun more => ?_
    rw [List.append_assoc, andThen_ok (hcompletion _), hcompletion']
  | rejects used token rest hts hwaits hused =>
    exact .rejects used token rest hts (andThen_error hwaits) fun more =>
      andThen_error (hused more)

end Sequence

section Readers

variable {before : List Token}

theorem stops_expect (kind : TokenKind) (h : itemMayStart before = false) (ts : List Token) :
    Stops before (expect kind) ts := by
  cases ts with
  | nil => exact .waits [⟨kind, 0⟩] () rfl fun more => if_pos rfl
  | cons token ts =>
    by_cases hkind : token.kind = kind
    · exact .done [token] ts () rfl fun more => if_pos hkind
    · refine .rejects [] token ts rfl rfl fun more => ?_
      rw [List.append_nil, rejection_of_not_itemMayStart h]
      exact if_neg hkind

/-- As many brackets as there are open arrays end the reading. -/
theorem exists_closing_readItems (outer : List (List Literal)) (items : List Literal)
    (afterItem : Bool) :
    ∃ completion result, ∀ more,
      readItems outer items afterItem (completion ++ more) = (.ok result, more) := by
  induction outer generalizing items afterItem with
  | nil =>
    refine ⟨[⟨.closeBracket, 0⟩], items.reverse, fun more => ?_⟩
    rw [List.singleton_append, readItems_closing, closeArray]
  | cons parent outer ih =>
    obtain ⟨completion, result, h⟩ := ih (array items.reverse :: parent) true
    refine ⟨⟨.closeBracket, 0⟩ :: completion, result, fun more => ?_⟩
    rw [List.cons_append, readItems_closing, closeArray, h]

/-- The induction is on the tokens. Each one ends the reading, is rejected, or leaves a state that
the hypothesis speaks about: as many arrays are open as the reader remembers, and an item may start
just if the reader does not wait for a comma. -/
theorem stops_readItems (outer : List (List Literal)) (items : List Literal) (afterItem : Bool)
    (before ts : List Token) (hdepth : openArrays before = outer.length + 1)
    (hstart : itemMayStart before = !afterItem) :
    Stops before (readItems outer items afterItem) ts := by
  induction ts generalizing outer items afterItem before with
  | nil =>
    obtain ⟨completion, result, h⟩ := exists_closing_readItems outer items afterItem
    exact .waits completion result rfl h
  | cons token ts ih =>
    obtain ⟨kind, column⟩ := token
    have hgoesOn (outer' : List (List Literal)) (items' : List Literal) (afterItem' : Bool)
        (hread : ∀ more, readItems outer items afterItem (⟨kind, column⟩ :: more) =
          readItems outer' items' afterItem' more)
        (hdepth' : depthAfter (outer.length + 1) ⟨kind, column⟩ = outer'.length + 1)
        (hstart' : itemMayStart (before ++ [⟨kind, column⟩]) = !afterItem') :
        Stops before (readItems outer items afterItem) (⟨kind, column⟩ :: ts) := by
      refine .cons hread (ih outer' items' afterItem' _ ?_ hstart')
      rw [openArrays_snoc, hdepth, hdepth']
    have hrejects (e : LiteralError) (he : rejection before ⟨kind, column⟩ = e)
        (hread : ∀ more, readItems outer items afterItem (⟨kind, column⟩ :: more) =
          (.error e, more)) :
        Stops before (readItems outer items afterItem) (⟨kind, column⟩ :: ts) := by
      refine .rejects [] _ ts rfl rfl fun more => ?_
      rw [List.append_nil, he]
      exact hread more
    cases kind with
    | closeBracket =>
      cases outer with
      | nil =>
        exact .done [_] ts items.reverse rfl fun more => readItems_closing [] items afterItem _ _
      | cons parent outer =>
        exact hgoesOn outer _ true (readItems_closing _ items afterItem column) rfl
          (itemMayStart_snoc before _)
    | comma =>
      cases afterItem with
      | false => exact hrejects _ (if_neg nofun) fun more => rfl
      | true =>
        refine hgoesOn outer items false (readItems_comma outer items column) rfl ?_
        rw [itemMayStart_snoc, hdepth]
        rfl
    | openBracket =>
      cases afterItem with
      | true => exact hrejects _ (rejection_of_not_itemMayStart hstart _) fun more => rfl
      | false =>
        exact hgoesOn (items :: outer) [] false (readItems_opening outer items column) rfl
          (itemMayStart_snoc before _)
    | openBrace =>
      cases afterItem with
      | true => exact hrejects _ (rejection_of_not_itemMayStart hstart _) fun more => rfl
      | false => exact hrejects _ (if_pos ⟨rfl, hstart⟩) fun more => rfl
    | bare content =>
      cases afterItem with
      | true => exact hrejects _ (rejection_of_not_itemMayStart hstart _) fun more => rfl
      | false => exact hgoesOn outer _ true (fun more => rfl) rfl (itemMayStart_snoc before _)
    | quoted content =>
      cases afterItem with
      | true => exact hrejects _ (rejection_of_not_itemMayStart hstart _) fun more => rfl
      | false => exact hgoesOn outer _ true (fun more => rfl) rfl (itemMayStart_snoc before _)
    | _ => cases afterItem <;> exact hrejects _ (if_neg nofun) fun more => rfl

theorem stops_readArray (ts : List Token) : Stops [] readArray ts := by
  have hread : readArray = andThen (expect .openBracket) fun _ => readItems [] [] false := by
    funext ts
    rw [readArray, andThen]
    rcases expect .openBracket ts with ⟨e | _, rest⟩ <;> rfl
  rw [hread]
  refine (stops_expect .openBracket rfl ts).andThen ?_ fun _ => exists_closing_readItems [] [] false
  intro used _ rest _ hused
  obtain ⟨opening, rfl⟩ := expect_eq_ok_iff.1 (List.append_nil used ▸ hused [])
  exact stops_readItems [] [] false _ rest rfl rfl

theorem stops_readItem (ts : List Token) (hdepth : openArrays before = 0)
    (hstart : itemMayStart before = true) : Stops before readItem ts := by
  cases ts with
  | nil => exact .waits [⟨.bare "", 0⟩] (ofBare "") rfl fun more => rfl
  | cons token ts =>
    obtain ⟨kind, column⟩ := token
    have hrejects (e : LiteralError) (he : rejection before ⟨kind, column⟩ = e)
        (hread : ∀ more, readItem (⟨kind, column⟩ :: more) = (.error e, more)) :
        Stops before readItem (⟨kind, column⟩ :: ts) := by
      refine .rejects [] _ ts rfl rfl fun more => ?_
      rw [List.append_nil, he]
      exact hread more
    cases kind with
    | openBracket =>
      have hread (more : List Token) : readItem (⟨.openBracket, column⟩ :: more) =
          andThen (readItems [] [] false) (fun items rest => (.ok (array items), rest)) more := by
        rw [readItem_opening, andThen]
        split <;> simp only [*]
      refine .cons hread (.andThen (stops_readItems [] [] false _ ts ?_ ?_) ?_ ?_)
      · rw [openArrays_snoc, hdepth]
        rfl
      · rw [itemMayStart_snoc]
        rfl
      · exact fun _ items rest _ _ => .done [] rest (array items) rfl fun more => rfl
      · exact fun items => ⟨[], array items, fun more => rfl⟩
    | bare content => exact .done [_] ts (ofBare content) rfl fun more => rfl
    | quoted content => exact .done [_] ts (text content) rfl fun more => rfl
    | openBrace => exact hrejects _ (if_pos ⟨rfl, hstart⟩) fun more => rfl
    | _ => exact hrejects _ (if_neg nofun) fun more => rfl

def afterField (fields : Fields) : List Token → Reading Fields
  | [] => (.error .unexpectedEnd, [])
  | token :: rest =>
    match token.kind with
    | .comma => readFields fields rest
    | .closeBrace => (.ok fields, rest)
    | _ => (.error (.unexpectedToken token), rest)

theorem readFields_key (fields : Fields) {token : Token} {key : String}
    (hkey : ∀ more, readKey (token :: more) = (.ok key, more)) (more : List Token) :
    readFields fields (token :: more) =
      andThen (expect .colon)
        (fun _ => andThen readItem fun item => afterField (fields.insert key item)) more := by
  have hkind : token.kind ≠ .closeBrace := by
    intro h
    have hmore := hkey more
    rw [readKey, h] at hmore
    cases hmore
  rw [readFields, if_neg hkind]
  simp only [readField, hkey, andThen]
  rcases expect .colon more with ⟨e | _, afterColon⟩
  · rfl
  · dsimp only
    rcases readItem afterColon with ⟨e | item, afterItem⟩
    · rfl
    · cases afterItem with
      | nil => rfl
      | cons next rest => rfl

/-- An item and a brace end an object behind a colon. -/
theorem exists_closing_field (fields : Fields) (key : String) :
    ∃ completion result, ∀ more,
      andThen readItem (fun item => afterField (fields.insert key item)) (completion ++ more) =
        (.ok result, more) :=
  ⟨[⟨.quoted "", 0⟩, ⟨.closeBrace, 0⟩], fields.insert key (text ""), fun _ => rfl⟩

mutual

/-- A key, a colon and an item are read, and the recursion is through the comma behind them. -/
theorem stops_readFields (fields : Fields) (before ts : List Token)
    (hdepth : openArrays before = 0) (hstart : itemMayStart before = false) :
    Stops before (readFields fields) ts := by
  match ts with
  | [] =>
    exact .waits [⟨.closeBrace, 0⟩] fields (by rw [readFields]) (readFields_closing fields 0)
  | ⟨kind, column⟩ :: ts =>
    have hfield (key : String) (hkey : ∀ more, readKey (⟨kind, column⟩ :: more) = (.ok key, more))
        (hdepth' : openArrays (before ++ [⟨kind, column⟩]) = 0)
        (hstart' : itemMayStart (before ++ [⟨kind, column⟩]) = false) :
        Stops before (readFields fields) (⟨kind, column⟩ :: ts) := by
      refine .cons (readFields_key fields hkey) (.andThen (stops_expect .colon hstart' ts) ?_
        fun _ => exists_closing_field fields key)
      intro used _ afterColon hts hused
      obtain ⟨colon, rfl⟩ := expect_eq_ok_iff.1 (List.append_nil used ▸ hused [])
      refine .andThen (stops_readItem afterColon ?_ ?_) ?_
        fun item => ⟨[⟨.closeBrace, 0⟩], fields.insert key item, fun _ => rfl⟩
      · rw [openArrays_snoc, hdepth']
        rfl
      · rw [itemMayStart_snoc]
      intro used item afterItem hts' hused'
      obtain ⟨t, ht, -⟩ := readItem_eq_ok_iff.1 (hused' [])
      obtain rfl : used = t.tokens := by simpa using ht
      have hlength : afterItem.length < ts.length + 1 := by
        rw [hts, hts']
        simp only [List.length_append]
        omega
      refine stops_afterField (fields.insert key item) _ afterItem ?_ ?_
      · rw [openArrays_append_item, openArrays_snoc, hdepth']
        rfl
      · exact itemMayStart_append_item _ t
    cases kind with
    | closeBrace => exact .done [_] ts fields rfl (readFields_closing fields column)
    | bare key =>
      refine hfield key (fun _ => rfl) ?_ (itemMayStart_snoc before _)
      rw [openArrays_snoc, hdepth]
      rfl
    | quoted key =>
      refine hfield key (fun _ => rfl) ?_ (itemMayStart_snoc before _)
      rw [openArrays_snoc, hdepth]
      rfl
    | _ =>
      refine .rejects [] _ ts rfl (by rw [readFields]) fun more => ?_
      rw [List.append_nil, rejection_of_not_itemMayStart hstart, List.nil_append, readFields,
        if_neg nofun]
      rfl
termination_by ts.length

theorem stops_afterField (fields : Fields) (before ts : List Token)
    (hdepth : openArrays before = 0) (hstart : itemMayStart before = false) :
    Stops before (afterField fields) ts := by
  match ts with
  | [] => exact .waits [⟨.closeBrace, 0⟩] fields rfl fun _ => rfl
  | ⟨kind, column⟩ :: ts =>
    cases kind with
    | comma =>
      refine .cons (fun _ => rfl) (stops_readFields fields _ ts ?_ ?_)
      · rw [openArrays_snoc, hdepth]
        rfl
      · rw [itemMayStart_snoc, hdepth]
        rfl
    | closeBrace => exact .done [_] ts fields rfl fun _ => rfl
    | _ =>
      refine .rejects [] _ ts rfl rfl fun more => ?_
      rw [List.append_nil, rejection_of_not_itemMayStart hstart]
      rfl
termination_by ts.length

end

theorem stops_readObject (ts : List Token) : Stops [] readObject ts := by
  have hread : readObject = andThen (expect .openBrace) fun _ => readFields .empty := by
    funext ts
    rw [readObject, andThen]
    rcases expect .openBrace ts with ⟨e | _, rest⟩ <;> rfl
  rw [hread]
  refine (stops_expect .openBrace rfl ts).andThen ?_
    fun _ => ⟨[⟨.closeBrace, 0⟩], .empty, readFields_closing .empty 0⟩
  intro used _ rest _ hused
  obtain ⟨opening, rfl⟩ := expect_eq_ok_iff.1 (List.append_nil used ▸ hused [])
  exact stops_readFields .empty _ rest rfl rfl

end Readers

end CellCheck.Literal
