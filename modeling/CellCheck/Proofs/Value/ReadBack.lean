import CellCheck.Proofs.Literal.Content
import CellCheck.Proofs.Value

/-!
# The values that read back

Any value can be printed, also one that no text is read as. The printed text is read as the value
itself just if the value is faithful: its numbers are finite, no quote is in its keys and texts, and
what it refers to is a word.
-/

namespace CellCheck.Value

def Faithful : Value → Prop
  | int _ => True
  | hex _ => True
  | reference target => Text.isWord target.toList
  | object fields =>
    (∀ x ∈ Literal.fieldNumbers fields.entries, x.isFinite) ∧
      ∀ s ∈ Literal.fieldTexts fields.entries, '"' ∉ s.toList
  | array items =>
    (∀ x ∈ Literal.numbersOf items, x.isFinite) ∧ ∀ s ∈ Literal.textsOf items, '"' ∉ s.toList
  | text content => Text.trim content.toList = content.toList ∧ startsForm content.toList = false
  | raw content =>
    Text.trim content.toList = content.toList ∧ startsForm content.toList ∧
      literalForm? content.toList = none

theorem ne_nan_of_isFinite {x : Binary64} (h : x.isFinite) : x ≠ .nan := by
  rintro rfl
  cases h

section Reading

theorem arrayOfText_of_ofText {items items' : List Literal}
    (h : ofText (Literal.arrayText items) = array items') :
    Literal.arrayOfText (Literal.arrayText items) = .ok items' := by
  have horigin := origin (Literal.arrayText items)
  rw [h, (tight_arrayText items).trim_eq] at horigin
  cases horigin with
  | array hitems => exact hitems

theorem objectOfText_of_ofText {fields fields' : Fields}
    (h : ofText (Literal.objectText fields) = object fields') :
    Literal.objectOfText (Literal.objectText fields) = .ok fields' := by
  have horigin := origin (Literal.objectText fields)
  rw [h, (tight_objectText fields).trim_eq] at horigin
  cases horigin with
  | object hfields => exact hfields

/-- What a printed array is read as has no quotes in its texts. So if it has the texts of the
array, it is the respelled array, and none of its numbers has become a text. -/
theorem faithful_of_alike_array {items items' : List Literal}
    (h : ofText (Literal.arrayText items) = array items')
    (halike : Literal.Alike (.array items') (.array items)) : Faithful (array items) := by
  have hquote : ∀ s ∈ Literal.textsOf items, '"' ∉ s.toList := by
    intro s hs hc
    have hs' : s ∈ Literal.textsOf items' := by
      have htexts : Literal.textsOf items' = Literal.textsOf items := halike.1
      rwa [htexts]
    exact (Literal.mem_of_arrayOfText (arrayOfText_of_ofText h) hs' hc).2 rfl
  obtain rfl : Literal.respelledItems items = items' :=
    array.inj ((ofText_arrayText hquote).symm.trans h)
  have hrespelled : Literal.Alike (Literal.respelled (.array items)) (.array items) := by
    rwa [Literal.respelled]
  exact ⟨Literal.isFinite_of_alike_respelled hrespelled, hquote⟩

theorem faithful_of_alike_fields {fields fields' : Fields}
    (h : ofText (Literal.objectText fields) = object fields')
    (halike : ∀ field ∈ fields.entries, ∃ field' ∈ fields'.entries,
      field'.1 = field.1 ∧ Literal.Alike field'.2 field.2) : Faithful (object fields) := by
  have hquote : ∀ s ∈ Literal.fieldTexts fields.entries, '"' ∉ s.toList := by
    intro s hs hc
    obtain ⟨field, hfield, hmem⟩ := List.mem_flatMap.1 hs
    obtain ⟨field', hfield', hname, htexts, -⟩ := halike field hfield
    have hs' : s ∈ Literal.fieldTexts fields'.entries :=
      List.mem_flatMap.2 ⟨field', hfield', by rwa [hname, htexts]⟩
    exact (Literal.mem_of_objectOfText (objectOfText_of_ofText h) hs' hc).2 rfl
  obtain rfl : Literal.respelledFields fields = fields' :=
    object.inj ((ofText_objectText hquote).symm.trans h)
  refine ⟨fun x hx => ?_, hquote⟩
  obtain ⟨field, hfield, hitem⟩ := List.mem_flatMap.1 hx
  obtain ⟨field', hfield', hname, hsame⟩ := halike field hfield
  obtain ⟨field'', hfield'', rfl⟩ := List.mem_map.1 hfield'
  -- Keys are distinct, so the partner of a field is that field respelled.
  obtain ⟨key, item⟩ := field
  obtain ⟨key', item'⟩ := field''
  obtain rfl : key' = key := hname
  obtain rfl : item' = item := NameTable.value_unique hfield'' hfield
  exact Literal.isFinite_of_alike_respelled hsame x hitem

theorem toList_of_origin_text {form : Text} {content : String} (h : Origin form (text content)) :
    content.toList = form ∧ startsForm form = false := by
  cases h with
  | text hstarts => exact ⟨String.toList_ofList, hstarts⟩

theorem toList_of_origin_raw {form : Text} {content : String} (h : Origin form (raw content)) :
    content.toList = form ∧ startsForm form ∧ literalForm? form = none := by
  cases h with
  | raw hstarts hliteral => exact ⟨String.toList_ofList, hstarts, hliteral⟩

theorem ofText_eq_text_iff {content : String} :
    ofText content.toList = text content ↔
      Text.trim content.toList = content.toList ∧ startsForm content.toList = false := by
  constructor
  · intro h
    have horigin := origin content.toList
    rw [h] at horigin
    obtain ⟨htrim, hstarts⟩ := toList_of_origin_text horigin
    rw [← htrim] at hstarts
    exact ⟨htrim.symm, hstarts⟩
  · rintro ⟨htrim, hstarts⟩
    rw [ofText_of_tight (Text.trim_eq_self_iff.1 htrim), hstarts, String.ofList_toList]
    rfl

theorem ofText_eq_raw_iff {content : String} :
    ofText content.toList = raw content ↔
      Text.trim content.toList = content.toList ∧ startsForm content.toList ∧
        literalForm? content.toList = none := by
  constructor
  · intro h
    have horigin := origin content.toList
    rw [h] at horigin
    obtain ⟨htrim, hliteral⟩ := toList_of_origin_raw horigin
    rw [← htrim] at hliteral
    exact ⟨htrim.symm, hliteral⟩
  · rintro ⟨htrim, hstarts, hliteral⟩
    rw [ofText_of_tight (Text.trim_eq_self_iff.1 htrim), if_pos hstarts, hliteral,
      String.ofList_toList]
    rfl

end Reading

section Comparison

variable {v : Value}

theorem same_array_iff {items : List Literal} :
    v.same (array items) ↔ ∃ items', v = array items' ∧ Literal.sameItems items' items := by
  cases v <;> simp [same]

theorem same_object_iff {fields : Fields} :
    v.same (object fields) ↔ ∃ fields', v = object fields' ∧ Literal.sameFields fields' fields := by
  cases v <;> simp [same]

theorem same_reference_iff {target : String} :
    v.same (reference target) ↔ v = reference target := by
  cases v <;> simp [same]

theorem same_text_iff {content : String} : v.same (text content) ↔ v = text content := by
  cases v <;> simp [same]

theorem same_raw_iff {content : String} : v.same (raw content) ↔ v = raw content := by
  cases v <;> simp [same]

theorem Faithful.same_self (h : v.Faithful) : v.same v := by
  cases v with
  | object fields =>
    exact same_object_iff.2
      ⟨fields, rfl, Literal.sameFields_self fun x hx => ne_nan_of_isFinite (h.1 x hx)⟩
  | array items =>
    exact same_array_iff.2
      ⟨items, rfl, Literal.sameItems_self items fun x hx => ne_nan_of_isFinite (h.1 x hx)⟩
  | _ => simp [same]

end Comparison

section ReadBack

variable {v : Value}

/-- A faithful value is read back. -/
theorem Faithful.ofText_toText (h : v.Faithful) : ofText v.toText = v := by
  have hnil : Text.Tight [] := Text.tight_of_forall nofun
  cases v with
  | int n => exact (Origin.int n).ofText_toText hnil
  | hex n => exact (Origin.hex n).ofText_toText hnil
  | reference target => exact (Origin.reference h).ofText_toText hnil
  | object fields =>
    exact (ofText_objectText h.2).trans (congrArg object (Literal.respelledFields_eq_self h.1))
  | array items =>
    exact (ofText_arrayText h.2).trans (congrArg array (Literal.respelledItems_eq_self items h.1))
  | text content => exact ofText_eq_text_iff.2 h
  | raw content => exact ofText_eq_raw_iff.2 h

/-- A value that is read back, be it up to the signs of zeros and the order of fields, is faithful. -/
theorem faithful_of_read_back (h : ofText v.toText = v ∨ (ofText v.toText).same v) :
    v.Faithful := by
  cases v with
  | int n => trivial
  | hex n => trivial
  | reference target =>
    have horigin := origin (reference target).toText
    rw [same_reference_iff, or_self] at h
    rw [h] at horigin
    cases horigin with
    | reference hword => exact hword
  | object fields =>
    rcases h with heq | hsame
    · exact faithful_of_alike_fields heq fun field hfield =>
        ⟨field, hfield, rfl, Literal.Alike.refl _⟩
    · obtain ⟨fields', hread, hfields⟩ := same_object_iff.1 hsame
      refine faithful_of_alike_fields hread fun field hfield => ?_
      obtain ⟨field', hfield', hname, hitem⟩ := Literal.exists_same_of_sameFields hfields hfield
      exact ⟨field', hfield', hname, Literal.alike_of_same hitem⟩
  | array items =>
    rcases h with heq | hsame
    · exact faithful_of_alike_array heq (Literal.Alike.refl _)
    · obtain ⟨items', hread, hitems⟩ := same_array_iff.1 hsame
      exact faithful_of_alike_array hread (Literal.alike_of_sameItems hitems)
  | text content =>
    rw [same_text_iff, or_self] at h
    exact ofText_eq_text_iff.1 h
  | raw content =>
    rw [same_raw_iff, or_self] at h
    exact ofText_eq_raw_iff.1 h

/-- Whatever value is printed, the text is read as the value just if the value is faithful. It makes
no difference whether values are compared exactly, or numbers as numbers and fields in any order. -/
theorem printed_value_reads_back_iff (v : Value) :
    (ofText v.toText = v ↔ v.Faithful) ∧ ((ofText v.toText).same v ↔ v.Faithful) := by
  refine ⟨⟨fun h => faithful_of_read_back (.inl h), fun h => h.ofText_toText⟩,
    fun h => faithful_of_read_back (.inr h), fun h => ?_⟩
  rw [h.ofText_toText]
  exact h.same_self

end ReadBack

end CellCheck.Value
