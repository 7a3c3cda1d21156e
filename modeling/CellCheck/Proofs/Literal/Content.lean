import CellCheck.Proofs.Literal.RoundTrip

/-!
# Numbers and texts of a literal

Respelling keeps of the numbers of a literal the finite ones, and changes nothing else. Literals that
compare as equal have the same texts and as many numbers, even if the zeros among the numbers
differ. A literal that was read has no NaN in it.
-/

namespace CellCheck.Literal

mutual

def numbers : Literal → List Binary64
  | number value => [value]
  | text _ => []
  | array items => numbersOf items

def numbersOf : List Literal → List Binary64
  | [] => []
  | item :: rest => numbers item ++ numbersOf rest

end

def fieldNumbers (fields : List (String × Literal)) : List Binary64 :=
  fields.flatMap fun field => numbers field.2

section Respelling

mutual

theorem respelled_eq_self (l : Literal) (h : ∀ x ∈ l.numbers, x.isFinite) : l.respelled = l := by
  match l with
  | number .nan => exact absurd (h .nan List.mem_cons_self) nofun
  | number (.infinite negative) => exact absurd (h _ List.mem_cons_self) nofun
  | number (.finite negative rank) => rfl
  | text content => rfl
  | array items => rw [respelled, respelledItems_eq_self items h]

theorem respelledItems_eq_self (items : List Literal) (h : ∀ x ∈ numbersOf items, x.isFinite) :
    respelledItems items = items := by
  match items with
  | [] => rfl
  | item :: rest =>
    rw [respelledItems, respelled_eq_self item fun x hx => h x (List.mem_append_left _ hx),
      respelledItems_eq_self rest fun x hx => h x (List.mem_append_right _ hx)]

end

theorem respelledFields_eq_self {fields : Fields}
    (h : ∀ x ∈ fieldNumbers fields.entries, x.isFinite) : respelledFields fields = fields := by
  apply NameTable.ext
  refine (List.map_congr_left fun field hfield => ?_).trans (List.map_id fields.entries)
  have hitem : ∀ x ∈ field.2.numbers, x.isFinite := fun x hx =>
    h x (List.mem_flatMap.2 ⟨field, hfield, hx⟩)
  rw [respelledField, respelled_eq_self field.2 hitem]
  rfl

mutual

theorem numbers_respelled (l : Literal) :
    l.respelled.numbers = l.numbers.filter Binary64.isFinite := by
  match l with
  | number .nan => rfl
  | number (.infinite negative) => rfl
  | number (.finite negative rank) => rfl
  | text content => rfl
  | array items => exact numbersOf_respelledItems items

theorem numbersOf_respelledItems (items : List Literal) :
    numbersOf (respelledItems items) = (numbersOf items).filter Binary64.isFinite := by
  match items with
  | [] => rfl
  | item :: rest =>
    rw [respelledItems, numbersOf, numbersOf, List.filter_append, numbers_respelled item,
      numbersOf_respelledItems rest]

end

end Respelling

section Comparison

def Alike (l m : Literal) : Prop := l.texts = m.texts ∧ l.numbers.length = m.numbers.length

theorem Alike.refl (l : Literal) : Alike l l := ⟨rfl, rfl⟩

mutual

theorem alike_of_same {l m : Literal} (h : same l m) : Alike l m := by
  match l, m with
  | number x, number y => exact ⟨rfl, rfl⟩
  | text x, text y =>
    obtain rfl : x = y := by simpa [same] using h
    exact Alike.refl _
  | array xs, array ys => exact alike_of_sameItems (by rwa [same] at h)
  | number _, text _ | number _, array _ | text _, number _ | text _, array _
  | array _, number _ | array _, text _ => simp [same] at h

theorem alike_of_sameItems {ls ms : List Literal} (h : sameItems ls ms) :
    Alike (array ls) (array ms) := by
  match ls, ms with
  | [], [] => exact Alike.refl _
  | l :: ls, m :: ms =>
    rw [sameItems, Bool.and_eq_true] at h
    obtain ⟨htexts, hnumbers⟩ := alike_of_same h.1
    obtain ⟨htextsOf, hnumbersOf⟩ := alike_of_sameItems h.2
    refine ⟨congrArg₂ _ htexts htextsOf, ?_⟩
    simp only [numbers, numbersOf, List.length_append] at hnumbersOf ⊢
    rw [hnumbers, hnumbersOf]
  | [], _ :: _ | _ :: _, [] => simp [sameItems] at h

end

/-- Equal fields have a partner for each field. -/
theorem exists_same_of_sameFields {fields fields' : Fields} (h : sameFields fields' fields)
    {field : String × Literal} (hfield : field ∈ fields.entries) :
    ∃ field' ∈ fields'.entries, field'.1 = field.1 ∧ same field'.2 field.2 := by
  rw [sameFields, Bool.and_eq_true, beq_iff_eq, List.all_eq_true] at h
  obtain ⟨hsize, hall⟩ := h
  have hpartner : ∀ entry ∈ fields'.entries,
      ∃ item, fields.get? entry.1 = some item ∧ same entry.2 item := fun entry hentry =>
    (Option.any_eq_true _ _).1 (hall entry hentry)
  have hsubset : fields'.names ⊆ fields.names := by
    intro name hname
    obtain ⟨entry, hentry, rfl⟩ := (fields'.mem_names_iff name).1 hname
    obtain ⟨item, hitem, -⟩ := hpartner entry hentry
    exact (fields.mem_names_iff _).2 ⟨_, (fields.get?_eq_some_iff _ _).1 hitem, rfl⟩
  -- Both tables have as many names, so none of `fields` is left over.
  have hperm : fields'.names.Perm fields.names := by
    refine (List.subperm_of_subset fields'.nodup hsubset).perm_of_length_le ?_
    simpa [NameTable.names, NameTable.size] using hsize.ge
  obtain ⟨field', hfield', hname⟩ := (fields'.mem_names_iff field.1).1
    (hperm.mem_iff.2 ((fields.mem_names_iff _).2 ⟨field, hfield, rfl⟩))
  obtain ⟨item, hitem, hsame⟩ := hpartner field' hfield'
  rw [hname, (fields.get?_eq_some_iff field.1 field.2).2 hfield] at hitem
  obtain rfl := Option.some.inj hitem
  exact ⟨field', hfield', hname, hsame⟩

mutual

/-- Without NaN a literal is equal to itself. -/
theorem same_self (l : Literal) (h : ∀ x ∈ l.numbers, x ≠ .nan) : same l l := by
  match l with
  | number .nan => exact absurd rfl (h .nan List.mem_cons_self)
  | number (.infinite negative) => simp [same, Binary64.sameNumber]
  | number (.finite negative rank) => simp [same, Binary64.sameNumber]
  | text content => simp [same]
  | array items =>
    rw [same]
    exact sameItems_self items h

theorem sameItems_self (items : List Literal) (h : ∀ x ∈ numbersOf items, x ≠ .nan) :
    sameItems items items := by
  match items with
  | [] => rfl
  | item :: rest =>
    rw [sameItems, Bool.and_eq_true]
    exact ⟨same_self item fun x hx => h x (List.mem_append_left _ hx),
      sameItems_self rest fun x hx => h x (List.mem_append_right _ hx)⟩

end

theorem sameFields_self {fields : Fields} (h : ∀ x ∈ fieldNumbers fields.entries, x ≠ .nan) :
    sameFields fields fields := by
  rw [sameFields, Bool.and_eq_true, beq_iff_eq, List.all_eq_true]
  refine ⟨rfl, fun field hfield => (Option.any_eq_true _ _).2 ⟨field.2, ?_, ?_⟩⟩
  · exact (fields.get?_eq_some_iff _ _).2 hfield
  · exact same_self field.2 fun x hx => h x (List.mem_flatMap.2 ⟨field, hfield, hx⟩)

/-- The respelled literal compares with the literal itself only if all its numbers are finite. -/
theorem isFinite_of_alike_respelled {l : Literal} (h : Alike l.respelled l) :
    ∀ x ∈ l.numbers, x.isFinite := by
  obtain ⟨-, hcount⟩ := h
  rw [numbers_respelled] at hcount
  exact List.length_filter_eq_length_iff.1 hcount

end Comparison

section Reading

mutual

theorem ne_nan_of_item (t : ItemTree) {x : Binary64} (h : x ∈ t.literal.numbers) : x ≠ .nan := by
  match t with
  | .bare content column =>
    rw [ItemTree.literal] at h
    split at h
    · next value hvalue =>
      obtain rfl := List.mem_singleton.1 h
      exact Binary64.ne_nan_of_ofText? hvalue
    · cases h
  | .quoted content column => cases h
  | .array a => exact ne_nan_of_array a h

theorem ne_nan_of_array (a : ArrayTree) {x : Binary64} (h : x ∈ numbersOf a.items) : x ≠ .nan := by
  match a with
  | .empty _ _ => cases h
  | .filled _ first others _ _ =>
    rcases List.mem_append.1 h with hfirst | hothers
    · exact ne_nan_of_item first hfirst
    · exact ne_nan_of_items others hothers

theorem ne_nan_of_items (o : ItemsTree) {x : Binary64} (h : x ∈ numbersOf o.items) : x ≠ .nan := by
  match o with
  | .nil => cases h
  | .cons _ item others =>
    rcases List.mem_append.1 h with hitem | hothers
    · exact ne_nan_of_item item hitem
    · exact ne_nan_of_items others hothers

end

theorem ne_nan_of_arrayOfText {source : Text} {items : List Literal}
    (h : arrayOfText source = .ok items) : ∀ x ∈ numbersOf items, x ≠ .nan := by
  obtain ⟨a, -, rfl⟩ := arrayOfText_eq_ok_iff.1 h
  exact fun x hx => ne_nan_of_array a hx

theorem ne_nan_of_objectOfText {source : Text} {fields : Fields}
    (h : objectOfText source = .ok fields) : ∀ x ∈ fieldNumbers fields.entries, x ≠ .nan := by
  obtain ⟨o, -, rfl⟩ := objectOfText_eq_ok_iff.1 h
  intro x hx
  obtain ⟨field, hfield, hitem⟩ := List.mem_flatMap.1 hx
  obtain ⟨t, rfl⟩ : ∃ t : FieldTree, t.field = field := by
    cases o with
    | empty _ _ => cases NameTable.mem_of_mem_ofList hfield
    | filled opening first others trailing closing =>
      rcases List.mem_cons.1 (NameTable.mem_of_mem_ofList hfield) with rfl | hother
      · exact ⟨first, rfl⟩
      · obtain ⟨other, -, rfl⟩ := List.mem_map.1 hother
        exact ⟨other.2, rfl⟩
  exact ne_nan_of_item t.item hitem

end Reading

end CellCheck.Literal
