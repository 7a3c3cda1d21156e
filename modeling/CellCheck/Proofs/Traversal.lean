import Mathlib.Data.List.Forall2
import Mathlib.Data.List.TakeWhile

/-!
# Reading every item of a list

A list is read item by item, in order, and the first item that does not read ends the reading. A
list is also cut where the first item fails a test.
-/

namespace CellCheck

variable {ε α β : Type}

theorem map_eq_ok {f : α → β} {x : Except ε α} {b : β} :
    x.map f = .ok b ↔ ∃ a, x = .ok a ∧ f a = b := by
  cases x with
  | error e => simp [Except.map]
  | ok a => simp [Except.map]

theorem map_eq_error {f : α → β} {x : Except ε α} {e : ε} :
    x.map f = .error e ↔ x = .error e := by
  cases x with
  | error e' => simp [Except.map]
  | ok a => simp [Except.map]

theorem exists_of_mem_left {R : α → β → Prop} {items : List α} {results : List β} {a : α}
    (h : List.Forall₂ R items results) (ha : a ∈ items) : ∃ b ∈ results, R a b := by
  induction h with
  | nil => cases ha
  | @cons a' b items results hab _ ih =>
    rcases List.mem_cons.1 ha with rfl | hrest
    · exact ⟨b, List.mem_cons_self, hab⟩
    · obtain ⟨b', hb', hab'⟩ := ih hrest
      exact ⟨b', List.mem_cons_of_mem _ hb', hab'⟩

theorem exists_of_mem_right {R : α → β → Prop} {items : List α} {results : List β} {b : β}
    (h : List.Forall₂ R items results) (hb : b ∈ results) : ∃ a ∈ items, R a b :=
  exists_of_mem_left h.flip hb

theorem mapM_eq_ok_iff {f : α → Except ε β} {items : List α} {results : List β} :
    items.mapM f = .ok results ↔ List.Forall₂ (fun a b => f a = .ok b) items results := by
  induction items generalizing results with
  | nil =>
    rw [List.forall₂_nil_left_iff, List.mapM_nil]
    exact ⟨fun h => (Except.ok.inj h).symm, fun h => h ▸ rfl⟩
  | cons a items ih =>
    rw [List.forall₂_cons_left_iff, List.mapM_cons]
    simp only [← ih]
    cases ha : f a with
    | error e => simp [bind, Except.bind]
    | ok b =>
      cases hrest : items.mapM f with
      | error e => simp [bind, Except.bind]
      | ok rest => simp [bind, Except.bind, pure, Except.pure, eq_comm]

theorem mapM_eq_ok {f : α → Except ε β} {g : α → β} {items : List α}
    (h : ∀ a ∈ items, f a = .ok (g a)) : items.mapM f = .ok (items.map g) := by
  rw [mapM_eq_ok_iff, List.forall₂_map_right_iff, List.forall₂_same]
  exact h

theorem exists_mapM_eq_error {f : α → Except ε β} {items : List α} {a : α} {e : ε}
    (ha : a ∈ items) (h : f a = .error e) : ∃ e', items.mapM f = .error e' := by
  cases hmap : items.mapM f with
  | error e' => exact ⟨e', rfl⟩
  | ok results =>
    obtain ⟨b, -, hb⟩ := exists_of_mem_left (mapM_eq_ok_iff.1 hmap) ha
    rw [h] at hb
    cases hb

theorem exists_first_error_of_mapM {f : α → Except ε β} {items : List α} {e : ε}
    (h : items.mapM f = .error e) : ∃ front a rest, items = front ++ a :: rest ∧
      f a = .error e ∧ ∀ b ∈ front, ∃ c, f b = .ok c := by
  induction items with
  | nil => cases h
  | cons a items ih =>
    rw [List.mapM_cons] at h
    cases ha : f a with
    | error e' =>
      rw [ha] at h
      obtain rfl := Except.error.inj h
      exact ⟨[], a, items, rfl, ha, nofun⟩
    | ok c =>
      cases hitems : items.mapM f with
      | ok cs =>
        rw [ha, hitems] at h
        cases h
      | error e' =>
        rw [ha, hitems] at h
        obtain rfl := Except.error.inj h
        obtain ⟨front, b, rest, rfl, hb, hfront⟩ := ih hitems
        refine ⟨a :: front, b, rest, rfl, hb, fun x hx => ?_⟩
        rcases List.mem_cons.1 hx with rfl | hmem
        · exact ⟨c, ha⟩
        · exact hfront x hmem

/-- The error of a list is the error of one of its items. -/
theorem exists_eq_error_of_mapM {f : α → Except ε β} {items : List α} {e : ε}
    (h : items.mapM f = .error e) : ∃ a ∈ items, f a = .error e := by
  obtain ⟨front, a, rest, rfl, ha, -⟩ := exists_first_error_of_mapM h
  exact ⟨a, List.mem_append_right _ List.mem_cons_self, ha⟩

/-- A list reads just if each of its items does. -/
theorem exists_mapM_eq_ok_iff {f : α → Except ε β} {items : List α} :
    (∃ results, items.mapM f = .ok results) ↔ ∀ a ∈ items, ∃ b, f a = .ok b := by
  constructor
  · rintro ⟨results, h⟩ a ha
    obtain ⟨b, -, hb⟩ := exists_of_mem_left (mapM_eq_ok_iff.1 h) ha
    exact ⟨b, hb⟩
  · intro hall
    cases h : items.mapM f with
    | ok results => exact ⟨results, rfl⟩
    | error e =>
      obtain ⟨a, ha, he⟩ := exists_eq_error_of_mapM h
      obtain ⟨b, hb⟩ := hall a ha
      rw [he] at hb
      cases hb

/-- The error of a list is that of its first item that does not read. -/
theorem mapM_eq_error_iff {f : α → Except ε β} {items : List α} {e : ε} :
    items.mapM f = .error e ↔ ∃ front a rest, items = front ++ a :: rest ∧ f a = .error e ∧
      ∀ b ∈ front, ∃ c, f b = .ok c := by
  constructor
  · exact exists_first_error_of_mapM
  · rintro ⟨front, a, rest, rfl, ha, hfront⟩
    obtain ⟨cs, hcs⟩ := exists_mapM_eq_ok_iff.2 hfront
    rw [List.mapM_append, hcs, List.mapM_cons, ha]
    rfl

/-- In a list in ascending order of a number, the error is that of the item with the least number
among those that do not read. -/
theorem mapM_eq_error_iff_of_ascending {f : α → Except ε β} {items : List α} (number : α → Nat)
    (hascending : items.Pairwise fun a b => number a < number b) {e : ε} :
    items.mapM f = .error e ↔ ∃ a ∈ items, f a = .error e ∧
      ∀ b ∈ items, number b < number a → ∃ c, f b = .ok c := by
  rw [mapM_eq_error_iff]
  constructor
  · rintro ⟨front, a, rest, rfl, ha, hfront⟩
    refine ⟨a, List.mem_append_right _ List.mem_cons_self, ha, fun b hb hlt => ?_⟩
    rcases List.mem_append.1 hb with hfirst | hlast
    · exact hfront b hfirst
    · -- an item that is not in front of the rejected one does not have a smaller number
      have hle : number a ≤ number b := by
        rcases List.mem_cons.1 hlast with rfl | hrest
        · exact Nat.le_refl _
        · exact Nat.le_of_lt
            ((List.pairwise_cons.1 (List.pairwise_append.1 hascending).2.1).1 b hrest)
      omega
  · rintro ⟨a, ha, he, hbefore⟩
    obtain ⟨front, rest, rfl⟩ := List.append_of_mem ha
    refine ⟨front, a, rest, rfl, he, fun b hb => ?_⟩
    exact hbefore b (List.mem_append_left _ hb)
      ((List.pairwise_append.1 hascending).2.2 b hb a List.mem_cons_self)

/-- Items that read can be left out before the reading or after it. -/
theorem mapM_filter {f : α → Except ε β} {keep : α → Bool} {kept : β → Bool}
    (hdrop : ∀ a, keep a = false → ∃ b, f a = .ok b ∧ kept b = false)
    (hkeep : ∀ a b, keep a = true → f a = .ok b → kept b = true) (items : List α) :
    (items.filter keep).mapM f = (items.mapM f).map (List.filter kept) := by
  induction items with
  | nil => rfl
  | cons a rest ih =>
    rw [List.mapM_cons]
    cases ha : keep a with
    | false =>
      obtain ⟨b, hb, hkept⟩ := hdrop a ha
      rw [List.filter_cons_of_neg (by simp [ha]), ih, hb]
      cases rest.mapM f with
      | error e => rfl
      | ok bs => exact congrArg Except.ok (List.filter_cons_of_neg (by simp [hkept])).symm
    | true =>
      rw [List.filter_cons_of_pos ha, List.mapM_cons, ih]
      cases hb : f a with
      | error e => rfl
      | ok b =>
        cases rest.mapM f with
        | error e => rfl
        | ok bs => exact congrArg Except.ok (List.filter_cons_of_pos (hkeep a b ha hb)).symm

theorem mapM_eq_some_iff {f : α → Option β} {items : List α} {results : List β} :
    items.mapM f = some results ↔ List.Forall₂ (fun a b => f a = some b) items results := by
  induction items generalizing results with
  | nil =>
    rw [List.forall₂_nil_left_iff, List.mapM_nil]
    exact ⟨fun h => (Option.some.inj h).symm, fun h => h ▸ rfl⟩
  | cons a items ih =>
    rw [List.forall₂_cons_left_iff, List.mapM_cons]
    simp only [← ih]
    cases ha : f a with
    | none => simp
    | some b =>
      cases hrest : items.mapM f with
      | none => simp
      | some rest => simp [eq_comm]

/-- A list is cut at the latest where a part of it begins with an item that fails the test. -/
theorem takeWhile_dropWhile_append_of_head {p : α → Bool} (front : List α) {rest : List α}
    (hrest : ∀ a ∈ rest.head?, p a = false) :
    (front ++ rest).takeWhile p = front.takeWhile p ∧
      (front ++ rest).dropWhile p = front.dropWhile p ++ rest := by
  have hcut : rest.takeWhile p = [] ∧ rest.dropWhile p = rest := by
    cases rest with
    | nil => exact ⟨rfl, rfl⟩
    | cons a rest =>
      have ha : ¬ p a = true := Bool.eq_false_iff.1 (hrest a rfl)
      exact ⟨List.takeWhile_cons_of_neg ha, List.dropWhile_cons_of_neg ha⟩
  induction front with
  | nil => exact hcut
  | cons a front ih =>
    by_cases ha : p a
    · rw [List.cons_append, List.takeWhile_cons_of_pos ha, List.dropWhile_cons_of_pos ha,
        List.takeWhile_cons_of_pos ha, List.dropWhile_cons_of_pos ha, ih.1]
      exact ⟨rfl, ih.2⟩
    · rw [List.cons_append, List.takeWhile_cons_of_neg ha, List.dropWhile_cons_of_neg ha,
        List.takeWhile_cons_of_neg ha, List.dropWhile_cons_of_neg ha]
      exact ⟨rfl, rfl⟩

/-- Leaving out items that pass the test does not move the place where a list is cut. -/
theorem takeWhile_dropWhile_filter {p keep : α → Bool} (h : ∀ a, keep a = false → p a = true)
    (items : List α) :
    (items.filter keep).takeWhile p = (items.takeWhile p).filter keep ∧
      (items.filter keep).dropWhile p = (items.dropWhile p).filter keep := by
  induction items with
  | nil => exact ⟨rfl, rfl⟩
  | cons a rest ih =>
    obtain ⟨htake, hdrop⟩ := ih
    cases ha : p a with
    | true =>
      rw [List.takeWhile_cons_of_pos ha, List.dropWhile_cons_of_pos ha, ← hdrop]
      cases hkeep : keep a with
      | true =>
        rw [List.filter_cons_of_pos hkeep, List.takeWhile_cons_of_pos ha,
          List.dropWhile_cons_of_pos ha, List.filter_cons_of_pos hkeep, htake]
        exact ⟨rfl, rfl⟩
      | false =>
        have hnot : ¬ keep a = true := Bool.eq_false_iff.1 hkeep
        rw [List.filter_cons_of_neg hnot, List.filter_cons_of_neg hnot, htake]
        exact ⟨rfl, rfl⟩
    | false =>
      have hfails : ¬ p a = true := Bool.eq_false_iff.1 ha
      have hkeep : keep a = true := by
        by_contra hnot
        exact hfails (h a (Bool.eq_false_iff.2 hnot))
      rw [List.takeWhile_cons_of_neg hfails, List.dropWhile_cons_of_neg hfails,
        List.filter_cons_of_pos hkeep, List.takeWhile_cons_of_neg hfails,
        List.dropWhile_cons_of_neg hfails]
      exact ⟨rfl, rfl⟩

/-- A list is cut in front of the first item that fails the test. -/
theorem takeWhile_dropWhile_append {p : α → Bool} {front rest : List α} (hfront : ∀ a ∈ front, p a)
    (hrest : ∀ a ∈ rest.head?, p a = false) :
    (front ++ rest).takeWhile p = front ∧ (front ++ rest).dropWhile p = rest := by
  obtain ⟨htake, hdrop⟩ := takeWhile_dropWhile_append_of_head front hrest
  rw [htake, hdrop, List.takeWhile_eq_self_iff.2 hfront, List.dropWhile_eq_nil_iff.2 hfront]
  exact ⟨rfl, rfl⟩

/-- An item of two joined lists stands in the first one or in the second one. -/
theorem append_eq_append_cons {front rest before after : List α} {a : α}
    (h : front ++ rest = before ++ a :: after) :
    (∃ middle, front = before ++ a :: middle) ∨
      ∃ before', before = front ++ before' ∧ rest = before' ++ a :: after := by
  rcases List.append_eq_append_iff.1 h with ⟨before', hbefore, hrest⟩ | ⟨middle, hfront, hmiddle⟩
  · exact .inr ⟨before', hbefore, hrest⟩
  · rcases List.cons_eq_append_iff.1 hmiddle with ⟨rfl, hrest⟩ | ⟨middle, rfl, -⟩
    · exact .inr ⟨[], by simpa using hfront.symm, hrest⟩
    · exact .inl ⟨middle, hfront⟩

end CellCheck
