import CellCheck.Proofs.Literal.RoundTrip
import CellCheck.Value.Reader

/-!
# Printed values read back

A value that was read from a text is printed as a text that is read as the same value, up to the
respelling of literals. The printed text has no white space at its ends and, if the text that was
read can stand in a line of code, can stand there too.
-/

namespace CellCheck

namespace Literal

theorem isPlain_textForm {s : Text} (h : s.IsPlain) : (textForm s).IsPlain := by
  rw [textForm]
  split_ifs
  · rw [List.cons_append, Text.isPlain_cons, Text.isPlain_append]
    exact ⟨by decide, h, by simp [Text.IsPlain]⟩
  · exact h

theorem isPlain_number (value : Binary64) : value.toText.IsPlain := by
  match value with
  | .nan => decide
  | .infinite true => decide
  | .infinite false => decide
  | .finite negative rank =>
    intro c hc
    rcases Binary64.mem_toText_finite hc with hdigit | rfl | rfl
    · constructor
      · rintro rfl
        exact absurd hdigit (by decide)
      · rintro rfl
        exact absurd hdigit (by decide)
    · decide
    · decide

mutual

theorem isPlain_toText (l : Literal) (h : ∀ s ∈ l.texts, Text.IsPlain s.toList) :
    l.toText.IsPlain := by
  match l with
  | number value => exact isPlain_number value
  | text content => exact isPlain_textForm (h content (List.mem_singleton.2 rfl))
  | array items =>
    rw [toText, List.cons_append, Text.isPlain_cons, Text.isPlain_append]
    exact ⟨by decide, isPlain_itemsText items h, by simp [Text.IsPlain]⟩

theorem isPlain_itemsText (items : List Literal) (h : ∀ s ∈ textsOf items, Text.IsPlain s.toList) :
    (itemsText items).IsPlain := by
  match items with
  | [] => exact nofun
  | item :: rest =>
    rw [itemsText, Text.isPlain_append]
    exact ⟨isPlain_toText item fun s hs => h s (List.mem_append_left _ hs),
      isPlain_followingText rest fun s hs => h s (List.mem_append_right _ hs)⟩

theorem isPlain_followingText (items : List Literal)
    (h : ∀ s ∈ textsOf items, Text.IsPlain s.toList) : (followingText items).IsPlain := by
  match items with
  | [] => exact nofun
  | item :: rest =>
    rw [followingText, List.cons_append, List.cons_append, Text.isPlain_cons, Text.isPlain_cons,
      Text.isPlain_append]
    exact ⟨by decide, by decide, isPlain_toText item fun s hs => h s (List.mem_append_left _ hs),
      isPlain_followingText rest fun s hs => h s (List.mem_append_right _ hs)⟩

end

theorem isPlain_objectText {fields : Fields}
    (h : ∀ s ∈ fieldTexts fields.entries, Text.IsPlain s.toList) : (objectText fields).IsPlain := by
  rw [objectText, List.cons_append, Text.isPlain_cons, Text.isPlain_append]
  refine ⟨by decide, Text.isPlain_commaSeparated fun item hitem => ?_, by simp [Text.IsPlain]⟩
  obtain ⟨field, hfield, rfl⟩ := List.mem_map.1 hitem
  have hmem : ∀ s ∈ field.1 :: texts field.2, Text.IsPlain s.toList := fun s hs =>
    h s (List.mem_flatMap.2 ⟨field, hfield, hs⟩)
  rw [fieldText, Text.isPlain_append, Text.isPlain_cons, Text.isPlain_cons]
  exact ⟨isPlain_textForm (hmem _ List.mem_cons_self), by decide, by decide,
    isPlain_toText field.2 fun s hs => hmem s (List.mem_cons_of_mem _ hs)⟩

end Literal

namespace Value

def respelled : Value → Value
  | object fields => object (Literal.respelledFields fields)
  | array items => array (Literal.respelledItems items)
  | v => v

theorem toText_respelled (v : Value) : v.respelled.toText = v.toText := by
  cases v with
  | object fields => exact Literal.objectText_respelled fields
  | array items => exact Literal.toText_respelled (.array items)
  | _ => rfl

/-- What is known of the value that a text without white space at its ends is read as. -/
inductive Origin (form : Text) : Value → Prop where
  | int (n : UInt64) : Origin form (.int n)
  | hex (n : UInt64) : Origin form (.hex n)
  | reference {target : String} (h : Text.isWord target.toList) : Origin form (.reference target)
  | object {fields : Fields} (h : Literal.objectOfText form = .ok fields) :
    Origin form (.object fields)
  | array {items : List Literal} (h : Literal.arrayOfText form = .ok items) :
    Origin form (.array items)
  | raw (hstarts : startsForm form) (hform : literalForm? form = none) :
    Origin form (.raw (String.ofList form))
  | text (hstarts : startsForm form = false) : Origin form (.text (String.ofList form))

theorem toOption_eq_some {ε α : Type} {x : Except ε α} {a : α} (h : x.toOption = some a) :
    x = .ok a := by
  cases x with
  | error e => cases h
  | ok b => rw [Option.some.inj h]

theorem origin_of_literalForm? {form : Text} {v : Value} (h : literalForm? form = some v) :
    Origin form v := by
  unfold literalForm? at h
  split at h
  · split_ifs at h with hword
    obtain rfl := Option.some.inj h
    exact .reference (by rwa [String.toList_ofList])
  · obtain ⟨n, -, rfl⟩ := Option.map_eq_some_iff.1 h
    exact .hex n
  · obtain ⟨fields, hfields, rfl⟩ := Option.map_eq_some_iff.1 h
    exact .object (toOption_eq_some hfields)
  · obtain ⟨items, hitems, rfl⟩ := Option.map_eq_some_iff.1 h
    exact .array (toOption_eq_some hitems)
  · obtain ⟨n, -, rfl⟩ := Option.map_eq_some_iff.1 h
    exact .int n

theorem origin (s : Text) : Origin s.trim (ofText s) := by
  rw [ofText]
  split_ifs with hstarts
  · cases hform : literalForm? s.trim with
    | none => exact .raw hstarts hform
    | some v => exact origin_of_literalForm? hform
  · exact .text (Bool.eq_false_iff.2 hstarts)

theorem ofText_of_tight {form : Text} (h : Text.Tight form) :
    ofText form =
      if startsForm form then (literalForm? form).getD (raw (String.ofList form))
      else text (String.ofList form) := by
  rw [ofText, h.trim_eq]

theorem ofText_of_literalForm? {form : Text} {v : Value} (htight : Text.Tight form)
    (hstarts : startsForm form) (hform : literalForm? form = some v) : ofText form = v := by
  rw [ofText_of_tight htight, if_pos hstarts, hform, Option.getD_some]

@[simp] theorem word?_toNat (n : UInt64) : word? n.toNat = some n := by
  rw [word?, if_pos n.toNat_lt, UInt64.ofNat_toNat]

/-- A text of digits has the form of an integer only. -/
theorem forms_of_isDigits {s : Text} (h : Numeral.isDigits s) :
    startsForm s = true ∧ literalForm? s = ((Numeral.readDecimal? s).bind word?).map int := by
  have hdigits : ∀ c ∈ s, c.isDigit := by
    simp only [Numeral.isDigits, Bool.and_eq_true, List.all_eq_true] at h
    exact h.2
  have hne {c : Char} (hc : c ∈ s) {d : Char} (hd : d.isDigit = false) : c ≠ d := by
    rintro rfl
    rw [hdigits c hc] at hd
    cases hd
  constructor
  · unfold startsForm
    split
    · rfl
    · rfl
    · rfl
    · rfl
    · exact h
  · unfold literalForm?
    split
    · exact absurd rfl (hne List.mem_cons_self (by decide))
    · exact absurd rfl (hne (List.mem_cons_of_mem _ List.mem_cons_self) (by decide))
    · exact absurd rfl (hne List.mem_cons_self (by decide))
    · exact absurd rfl (hne List.mem_cons_self (by decide))
    · rfl

theorem isDigits_decimal (n : Nat) : Numeral.isDigits (Numeral.decimal n) := by
  simp only [Numeral.isDigits, Bool.and_eq_true, Bool.not_eq_true', List.isEmpty_eq_false_iff,
    List.all_eq_true]
  exact ⟨Nat.toDigits_ne_nil, fun _ => Binary64.isDigit_of_mem_decimal⟩

theorem literalForm?_objectText (fields : Fields) :
    literalForm? (Literal.objectText fields) =
      (Literal.objectOfText (Literal.objectText fields)).toOption.map object := rfl

theorem literalForm?_arrayText (items : List Literal) :
    literalForm? (Literal.arrayText items) =
      (Literal.arrayOfText (Literal.arrayText items)).toOption.map array := rfl

theorem tight_enclosed {c d : Char} (hc : Text.isBlank c = false) (hd : Text.isBlank d = false)
    (s : Text) : Text.Tight (c :: s ++ [d]) := by
  refine Text.tight_append (List.cons_ne_nil _ _) (List.cons_ne_nil _ _) ?_ ?_
  · intro e he
    obtain rfl := Option.some.inj he
    exact hc
  · intro e he
    obtain rfl := Option.some.inj he
    exact hd

theorem tight_objectText (fields : Fields) : Text.Tight (Literal.objectText fields) :=
  tight_enclosed (by decide) (by decide) _

theorem tight_arrayText (items : List Literal) : Text.Tight (Literal.arrayText items) :=
  tight_enclosed (by decide) (by decide) _

/-- A printed object whose keys and texts have no quotes is read as the respelled object. -/
theorem ofText_objectText {fields : Fields}
    (hquote : ∀ t ∈ Literal.fieldTexts fields.entries, '"' ∉ t.toList) :
    ofText (Literal.objectText fields) = object (Literal.respelledFields fields) := by
  refine ofText_of_literalForm? (tight_objectText fields) rfl ?_
  rw [literalForm?_objectText, Literal.objectOfText_objectText hquote]
  rfl

/-- A printed array whose texts have no quotes is read as the respelled array. -/
theorem ofText_arrayText {items : List Literal}
    (hquote : ∀ t ∈ Literal.textsOf items, '"' ∉ t.toList) :
    ofText (Literal.arrayText items) = array (Literal.respelledItems items) := by
  refine ofText_of_literalForm? (tight_arrayText items) rfl ?_
  rw [literalForm?_arrayText, Literal.arrayOfText_arrayText hquote]
  rfl

theorem isWord_hexText (n : Nat) : Text.isWord ('0' :: 'x' :: Numeral.hexadecimal n) :=
  Text.isWord_append (s := ['0', 'x']) (by decide)
    (Text.isWord_iff.1 (Numeral.isWord_hexadecimal n)).2

/-- A printed value has no white space at its ends. -/
theorem Origin.tight_toText {form : Text} {v : Value} (h : Origin form v)
    (hform : Text.Tight form) : Text.Tight v.toText := by
  cases h with
  | int n => exact Text.tight_of_isWord (Text.isWord_decimal _)
  | hex n => exact Text.tight_of_isWord (isWord_hexText _)
  | reference hword =>
    refine Text.tight_of_forall fun c hc => ?_
    rcases List.mem_cons.1 hc with rfl | hmem
    · decide
    · exact Text.isBlank_of_isWordChar ((Text.isWord_iff.1 hword).2 c hmem)
  | object _ => exact tight_objectText _
  | array _ => exact tight_arrayText _
  | raw _ _ => rwa [toText, String.toList_ofList]
  | text _ => rwa [toText, String.toList_ofList]

theorem Origin.toText_ne_nil {form : Text} {v : Value} (h : Origin form v) (hform : form ≠ []) :
    v.toText ≠ [] := by
  cases h with
  | int n => exact (Text.isWord_iff.1 (Text.isWord_decimal _)).1
  | raw _ _ => rwa [toText, String.toList_ofList]
  | text _ => rwa [toText, String.toList_ofList]
  | _ => exact List.cons_ne_nil _ _

theorem Origin.isPlain_toText {form : Text} {v : Value} (h : Origin form v)
    (hform : Text.IsPlain form) : Text.IsPlain v.toText := by
  cases h with
  | int n => exact Text.isPlain_of_isWord (Text.isWord_decimal _)
  | hex n => exact Text.isPlain_of_isWord (isWord_hexText _)
  | reference hword => exact Text.isPlain_cons.2 ⟨by decide, Text.isPlain_of_isWord hword⟩
  | object hfields =>
    exact Literal.isPlain_objectText fun t ht c hc =>
      hform c (Literal.mem_of_objectOfText hfields ht hc).1
  | array hitems =>
    exact Literal.isPlain_toText _ fun t ht c hc =>
      hform c (Literal.mem_of_arrayOfText hitems ht hc).1
  | raw _ _ => rwa [toText, String.toList_ofList]
  | text _ => rwa [toText, String.toList_ofList]

/-- A printed value is read as the respelled value. -/
theorem Origin.ofText_toText {form : Text} {v : Value} (h : Origin form v)
    (hform : Text.Tight form) : ofText v.toText = v.respelled := by
  have htight := h.tight_toText hform
  cases h with
  | int n =>
    obtain ⟨hstarts, hliteral⟩ := forms_of_isDigits (isDigits_decimal n.toNat)
    refine ofText_of_literalForm? htight hstarts ?_
    rw [toText, hliteral, Numeral.readDecimal?_decimal, Option.bind_some, word?_toNat,
      Option.map_some]
    rfl
  | hex n =>
    refine ofText_of_literalForm? htight rfl ?_
    rw [toText, literalForm?, Numeral.readHexadecimal?_hexadecimal, Option.bind_some, word?_toNat,
      Option.map_some]
    rfl
  | @reference target hword =>
    have htrim : Text.trim target.toList = target.toList := (Text.tight_of_isWord hword).trim_eq
    refine ofText_of_literalForm? htight rfl ?_
    rw [toText, literalForm?, htrim, if_pos hword, String.ofList_toList]
    rfl
  | object hfields =>
    exact ofText_objectText fun t ht hc => (Literal.mem_of_objectOfText hfields ht hc).2 rfl
  | array hitems =>
    exact ofText_arrayText fun t ht hc => (Literal.mem_of_arrayOfText hitems ht hc).2 rfl
  | raw hstarts hliteral =>
    rw [toText, String.toList_ofList, ofText_of_tight hform, if_pos hstarts, hliteral]
    rfl
  | text hstarts =>
    rw [toText, String.toList_ofList, ofText_of_tight hform, hstarts]
    rfl

end Value

end CellCheck
