import CellCheck.NameTable
import CellCheck.Proofs.FirstOccurrence
import Mathlib.Data.List.Induction
import Mathlib.Tactic.SplitIfs

/-!
# Lookups in name tables

A table is determined by its names in order and by what it answers for each of them. Writing a
name changes the answer for this name only.
-/

namespace CellCheck.NameTable

variable {α β : Type}

theorem mem_names_iff (t : NameTable α) (name : String) :
    name ∈ t.names ↔ ∃ entry ∈ t.entries, entry.1 = name := by
  simp [names]

theorem contains_iff (t : NameTable α) (name : String) :
    t.contains name = true ↔ name ∈ t.names := by
  simp [contains]

theorem insertEntry_of_not_mem {name : String} {entries : List (String × α)} (value : α)
    (h : name ∉ entries.map Prod.fst) :
    insertEntry name value entries = entries ++ [(name, value)] := by
  induction entries with
  | nil => rfl
  | cons entry rest ih =>
    simp only [List.map_cons, List.mem_cons, not_or] at h
    rw [insertEntry, if_neg (Ne.symm h.1), ih h.2, List.cons_append]

/-- A new name goes behind all others. -/
theorem entries_insert_of_not_mem {t : NameTable α} {name : String} (value : α)
    (h : name ∉ t.names) : (t.insert name value).entries = t.entries ++ [(name, value)] :=
  insertEntry_of_not_mem value h

theorem get?_insert_of_ne (t : NameTable α) {name other : String} (value : α)
    (h : name ≠ other) : (t.insert name value).get? other = t.get? other := by
  simp only [get?, insert]
  induction t.entries with
  | nil => simp [insertEntry, h]
  | cons entry rest ih =>
    by_cases he : entry.1 = name
    · have ho : entry.1 ≠ other := fun hoe => h (he.symm.trans hoe)
      simp [insertEntry, he, h]
    · by_cases ho : entry.1 = other
      · rw [insertEntry, if_neg he, List.find?_cons_of_pos (by simpa using ho),
          List.find?_cons_of_pos (by simpa using ho)]
      · rw [insertEntry, if_neg he, List.find?_cons_of_neg (by simpa using ho),
          List.find?_cons_of_neg (by simpa using ho), ih]

theorem get?_insert (t : NameTable α) (name other : String) (value : α) :
    (t.insert name value).get? other = if name = other then some value else t.get? other := by
  by_cases h : name = other
  · rw [if_pos h, ← h, get?_insert_self]
  · rw [if_neg h, get?_insert_of_ne t value h]

@[simp] theorem get?_empty (name : String) : (empty : NameTable α).get? name = none := rfl

/-- The answer for a name is the value of its one entry. -/
theorem get?_eq_some_iff (t : NameTable α) (name : String) (value : α) :
    t.get? name = some value ↔ (name, value) ∈ t.entries := by
  obtain ⟨entries, hnodup⟩ := t
  simp only [get?]
  induction entries with
  | nil => simp
  | cons entry rest ih =>
    have hrest := (List.nodup_cons.1 hnodup).2
    have hfresh : ∀ v, entry.1 = name → (name, v) ∉ rest := fun v he hv =>
      (List.nodup_cons.1 hnodup).1 (List.mem_map.2 ⟨(name, v), hv, he.symm⟩)
    by_cases he : entry.1 = name
    · rw [List.find?_cons_of_pos (by simpa using he), List.mem_cons]
      simp only [Option.map_some, Option.some.injEq, hfresh value he, or_false]
      constructor
      · rintro rfl
        rw [← he]
      · intro h
        rw [← h]
    · rw [List.find?_cons_of_neg (by simpa using he), ih hrest, List.mem_cons]
      constructor
      · exact Or.inr
      · rintro (rfl | h)
        · exact absurd rfl he
        · exact h

theorem value_unique {t : NameTable α} {name : String} {value value' : α}
    (h : (name, value) ∈ t.entries) (h' : (name, value') ∈ t.entries) : value = value' := by
  rw [← get?_eq_some_iff] at h h'
  rw [h] at h'
  exact Option.some.inj h'

/-- Two tables with the same names in the same order and the same answers are equal. -/
theorem ext_get? {t u : NameTable α} (hnames : t.names = u.names)
    (hget : ∀ name, t.get? name = u.get? name) : t = u := by
  apply NameTable.ext
  apply List.ext_getElem
  · simpa [names] using congrArg List.length hnames
  · intro i hi hj
    have hname : t.entries[i].1 = u.entries[i].1 := by
      have h := congrArg (·[i]?) hnames
      simpa [names, hi, hj] using h
    have ht : t.get? t.entries[i].1 = some t.entries[i].2 :=
      (t.get?_eq_some_iff _ _).2 (List.getElem_mem hi)
    have hu : u.get? u.entries[i].1 = some u.entries[i].2 :=
      (u.get?_eq_some_iff _ _).2 (List.getElem_mem hj)
    have hvalue : t.entries[i].2 = u.entries[i].2 := by
      rw [hget, hname, hu] at ht
      exact (Option.some.inj ht).symm
    exact Prod.ext hname hvalue

theorem ofList_snoc (entries : List (String × α)) (entry : String × α) :
    ofList (entries ++ [entry]) = (ofList entries).insert entry.1 entry.2 := by
  simp [ofList]

/-- The names of a list of entries, each at its first place. -/
theorem names_ofList (entries : List (String × α)) :
    (ofList entries).names = (entries.map Prod.fst).eraseDups := by
  induction entries using List.reverseRecOn with
  | nil => rfl
  | append_singleton entries entry ih =>
    rw [ofList_snoc, names_insert, ih, List.map_append, List.map_singleton, eraseDups_snoc]
    simp only [List.mem_eraseDups]

/-- The last entry of a name counts. -/
theorem get?_ofList (entries : List (String × α)) (name : String) :
    (ofList entries).get? name = entries.reverse.lookup name := by
  induction entries using List.reverseRecOn with
  | nil => rfl
  | append_singleton entries entry ih =>
    rw [ofList_snoc, get?_insert, ih, List.reverse_append, List.reverse_singleton,
      List.singleton_append, List.lookup_cons]
    by_cases h : entry.1 = name
    · rw [if_pos h, ← h, beq_self_eq_true]
    · rw [if_neg h, beq_false_of_ne (Ne.symm h)]

theorem mem_insertEntry {name : String} {value : α} {entries : List (String × α)}
    {entry : String × α} (h : entry ∈ insertEntry name value entries) :
    entry = (name, value) ∨ entry ∈ entries := by
  induction entries with
  | nil => exact .inl (List.mem_singleton.1 h)
  | cons first rest ih =>
    rw [insertEntry] at h
    split_ifs at h
    · exact (List.mem_cons.1 h).imp_right (List.mem_cons_of_mem _)
    · rcases List.mem_cons.1 h with rfl | hrest
      · exact .inr List.mem_cons_self
      · exact (ih hrest).imp_right (List.mem_cons_of_mem _)

theorem mem_of_mem_ofList {entries : List (String × α)} {entry : String × α}
    (h : entry ∈ (ofList entries).entries) : entry ∈ entries := by
  induction entries using List.reverseRecOn with
  | nil => exact h
  | append_singleton entries last ih =>
    rw [ofList_snoc] at h
    rcases mem_insertEntry h with rfl | hentry
    · exact List.mem_append_right _ List.mem_cons_self
    · exact List.mem_append_left _ (ih hentry)

theorem entries_ofList {entries : List (String × α)} (h : (entries.map Prod.fst).Nodup) :
    (ofList entries).entries = entries := by
  induction entries using List.reverseRecOn with
  | nil => rfl
  | append_singleton entries last ih =>
    rw [List.map_append, List.nodup_append] at h
    have hrest : (ofList entries).entries = entries := ih h.1
    have hfresh : last.1 ∉ (ofList entries).names := by
      intro hmem
      rw [names, hrest] at hmem
      exact h.2.2 _ hmem _ (List.mem_singleton.2 rfl) rfl
    rw [ofList_snoc, entries_insert_of_not_mem _ hfresh, hrest]

end CellCheck.NameTable
