import CellCheck.Proofs.Cell.List
import CellCheck.Proofs.Text.Numeral
import CellCheck.Proofs.Text.Pieces

/-!
# The grammar of cell lists

    list := item { "," item }
    item := cell | cell ".." cell
    cell := "C" digit { digit }

White space may surround an item and the sides of a range. The number of a cell fits into 32 bits,
and a range goes from a cell to the same or a later one, over at most 65536 cells. A list that is
not of this form is rejected for the first of its items that is not.
-/

namespace CellCheck

def Cell.WrittenAs (c : Cell) (s : Text) : Prop :=
  ∃ digits, s = 'C' :: digits ∧ Numeral.Writes 10 digits c.toNat

namespace CellRange

def WrittenAs (r : CellRange) (s : Text) : Prop :=
  ∃ left right : Text, s = left ++ "..".toList ++ right ∧ r.first.WrittenAs left.trim ∧
    r.last.WrittenAs right.trim ∧ r.first.toNat ≤ r.last.toNat ∧
    r.last.toNat - r.first.toNat < 65536

/-- Why a text is not a range. Of several causes the first one counts. -/
inductive Rejected (item : Text) : CellListError → Prop where
  | format {sides : List Text} (hsides : Text.SplitAt "..".toList item sides)
      (hcount : sides.length ≠ 2) : Rejected item (.rangeFormat (String.ofList item))
  | start {left right : Text} (hsides : Text.SplitAt "..".toList item [left, right])
      (hstart : left.trim.head? ≠ some 'C' ∨ right.trim.head? ≠ some 'C') :
      Rejected item (.rangePrefix (String.ofList item))
  | number {left right : Text} (hsides : Text.SplitAt "..".toList item [left, right])
      (hleft : left.trim.head? = some 'C') (hright : right.trim.head? = some 'C')
      (hnumber : (∀ c : Cell, ¬ c.WrittenAs left.trim) ∨ ∀ c : Cell, ¬ c.WrittenAs right.trim) :
      Rejected item (.rangeNumber (String.ofList item))
  | inverted {left right : Text} {first last : Cell}
      (hsides : Text.SplitAt "..".toList item [left, right]) (hfirst : first.WrittenAs left.trim)
      (hlast : last.WrittenAs right.trim) (horder : last.toNat < first.toNat) :
      Rejected item (.rangeInverted (String.ofList item))
  | tooWide {left right : Text} {first last : Cell}
      (hsides : Text.SplitAt "..".toList item [left, right]) (hfirst : first.WrittenAs left.trim)
      (hlast : last.WrittenAs right.trim) (horder : first.toNat ≤ last.toNat)
      (hwidth : 65536 ≤ last.toNat - first.toNat) :
      Rejected item (.rangeTooWide (String.ofList item))

end CellRange

namespace CellList

/-- What an item stands for: one cell, or the cells whose numbers count up from the first cell of
the range to the last. -/
inductive Item (item : Text) : List Cell → Prop where
  | cell {c : Cell} (h : c.WrittenAs item) : Item item [c]
  | range {r : CellRange} {cells : List Cell} (h : r.WrittenAs item)
      (hcells : cells.map Cell.toNat =
        List.range' r.first.toNat (r.last.toNat - r.first.toNat + 1)) : Item item cells

inductive ItemRejected (item : Text) : CellListError → Prop where
  | range {e : CellListError} (hdots : "..".toList <:+: item) (h : CellRange.Rejected item e) :
      ItemRejected item e
  | start (hdots : ¬ "..".toList <:+: item) (hstart : item.head? ≠ some 'C') :
      ItemRejected item (.cellPrefix (String.ofList item))
  | number (hdots : ¬ "..".toList <:+: item) (hstart : item.head? = some 'C')
      (hnumber : ∀ c : Cell, ¬ c.WrittenAs item) :
      ItemRejected item (.cellNumber (String.ofList item))

end CellList

section Cells

variable {s : Text} {c : Cell}

theorem Cell.ofText?_eq_some_iff : Cell.ofText? s = some c ↔ c.WrittenAs s := by
  unfold Cell.ofText?
  split
  · next digits =>
    simp only [Option.map_eq_some_iff, Numeral.readBelow?_eq_some_iff]
    constructor
    · rintro ⟨n, ⟨hwrites, hlt⟩, rfl⟩
      exact ⟨digits, rfl, (Cell.toNat_ofNat hlt).symm ▸ hwrites⟩
    · rintro ⟨_, hs, hwrites⟩
      obtain rfl := (List.cons.inj hs).2
      exact ⟨c.toNat, ⟨hwrites, c.toNat_lt⟩, c.ofNat_toNat⟩
  · next hother =>
    constructor
    · intro h
      cases h
    · rintro ⟨digits, rfl, -⟩
      exact absurd rfl (hother digits)

theorem Cell.ofText?_eq_none_iff : Cell.ofText? s = none ↔ ∀ c : Cell, ¬ c.WrittenAs s := by
  simp only [Option.eq_none_iff_forall_ne_some, ne_eq, Cell.ofText?_eq_some_iff]

theorem Cell.WrittenAs.isWord (h : c.WrittenAs s) : Text.isWord s := by
  obtain ⟨digits, rfl, hdigits⟩ := h
  exact Text.isWord_append (s := ['C']) (by decide) (Text.isWord_iff.1 hdigits.isWord).2

theorem Cell.WrittenAs.isShaped (h : c.WrittenAs s) : Cell.isShaped s := by
  obtain ⟨digits, rfl, hdigits⟩ := h
  exact Numeral.isDigits_of_writes hdigits

theorem Cell.writtenAs_toText (c : Cell) : c.WrittenAs c.toText :=
  Cell.ofText?_eq_some_iff.1 c.ofText?_toText

theorem Cell.WrittenAs.head? (h : c.WrittenAs s) : s.head? = some 'C' := by
  obtain ⟨digits, rfl, -⟩ := h
  rfl

theorem Cell.toNat_injective : Function.Injective Cell.toNat :=
  Function.LeftInverse.injective Cell.ofNat_toNat

theorem startsWith_C_iff : Text.startsWith s "C" ↔ s.head? = some 'C' := by
  rw [Text.startsWith_iff, List.head?_eq_some_iff]
  rfl

end Cells

namespace CellRange

variable {item left right : Text} {r : CellRange} {e : CellListError}

theorem ofText_of_length_ne_two {sides : List Text}
    (hsides : Text.SplitAt "..".toList item sides) (hcount : sides.length ≠ 2) :
    ofText item = .error (.rangeFormat (String.ofList item)) := by
  have hne : "..".toList ≠ [] := by decide
  cases hcut : item.cut? ".." with
  | none => rw [ofText, hcut]
  | some parts =>
    obtain ⟨left, right⟩ := parts
    have hmore : right.hasPart ".." = true := by
      by_contra hnone
      have hpair : Text.SplitAt "..".toList item [left, right] :=
        (Text.splitAt_pair_iff hne).2 ⟨hcut, by simpa [Text.hasPart, Text.cut?] using hnone⟩
      obtain rfl := hsides.unique hne hpair
      exact hcount rfl
    rw [ofText, hcut]
    exact if_pos hmore

/-- The sides do not both start like cells, or they do and one of them is no cell, or both are
cells. -/
theorem sides_cases (left right : Text) :
    (left.trim.head? ≠ some 'C' ∨ right.trim.head? ≠ some 'C') ∨
    (left.trim.head? = some 'C' ∧ right.trim.head? = some 'C' ∧
      ((∀ c : Cell, ¬ c.WrittenAs left.trim) ∨ ∀ c : Cell, ¬ c.WrittenAs right.trim)) ∨
    ∃ first last : Cell, first.WrittenAs left.trim ∧ last.WrittenAs right.trim := by
  by_cases hleft : left.trim.head? = some 'C'
  · by_cases hright : right.trim.head? = some 'C'
    · by_cases hfirst : ∃ c : Cell, c.WrittenAs left.trim
      · by_cases hlast : ∃ c : Cell, c.WrittenAs right.trim
        · obtain ⟨first, hfirst⟩ := hfirst
          obtain ⟨last, hlast⟩ := hlast
          exact .inr (.inr ⟨first, last, hfirst, hlast⟩)
        · exact .inr (.inl ⟨hleft, hright, .inr (not_exists.1 hlast)⟩)
      · exact .inr (.inl ⟨hleft, hright, .inl (not_exists.1 hfirst)⟩)
    · exact .inl (.inr hright)
  · exact .inl (.inl hleft)

section TwoSides

variable (hsides : Text.SplitAt "..".toList item [left, right])

include hsides

theorem ofText_of_two_sides :
    ofText item =
      if !(left.trim.startsWith "C" && right.trim.startsWith "C") then
        .error (.rangePrefix (String.ofList item))
      else
        match Cell.ofText? left.trim, Cell.ofText? right.trim with
        | some first, some last =>
          if last.toNat < first.toNat then .error (.rangeInverted (String.ofList item))
          else if maxWidth ≤ last.toNat - first.toNat then
            .error (.rangeTooWide (String.ofList item))
          else .ok ⟨first, last⟩
        | _, _ => .error (.rangeNumber (String.ofList item)) := by
  obtain ⟨hcut, hnone⟩ := (Text.splitAt_pair_iff (by decide)).1 hsides
  have hcut' : item.cut? ".." = some (left, right) := hcut
  have hpart : right.hasPart ".." = false := by
    rw [Text.hasPart, Text.cut?, hnone]
    rfl
  rw [ofText, hcut']
  dsimp only
  rw [hpart]
  rfl

theorem ofText_of_start (hstart : left.trim.head? ≠ some 'C' ∨ right.trim.head? ≠ some 'C') :
    ofText item = .error (.rangePrefix (String.ofList item)) := by
  rw [ofText_of_two_sides hsides, if_pos]
  rw [Bool.not_eq_true', Bool.and_eq_false_iff, Bool.eq_false_iff, Bool.eq_false_iff]
  exact hstart.imp (mt startsWith_C_iff.1) (mt startsWith_C_iff.1)

theorem ofText_of_number (hleft : left.trim.head? = some 'C') (hright : right.trim.head? = some 'C')
    (hnumber : (∀ c : Cell, ¬ c.WrittenAs left.trim) ∨ ∀ c : Cell, ¬ c.WrittenAs right.trim) :
    ofText item = .error (.rangeNumber (String.ofList item)) := by
  rw [ofText_of_two_sides hsides, startsWith_C_iff.2 hleft, startsWith_C_iff.2 hright]
  rcases hnumber with hnone | hnone
  · rw [Cell.ofText?_eq_none_iff.2 hnone]
    rfl
  · rw [Cell.ofText?_eq_none_iff.2 hnone]
    cases Cell.ofText? left.trim <;> rfl

theorem ofText_of_cells {first last : Cell} (hfirst : first.WrittenAs left.trim)
    (hlast : last.WrittenAs right.trim) :
    ofText item =
      if last.toNat < first.toNat then .error (.rangeInverted (String.ofList item))
      else if 65536 ≤ last.toNat - first.toNat then .error (.rangeTooWide (String.ofList item))
      else .ok ⟨first, last⟩ := by
  rw [ofText_of_two_sides hsides, startsWith_C_iff.2 hfirst.head?, startsWith_C_iff.2 hlast.head?,
    Cell.ofText?_eq_some_iff.2 hfirst, Cell.ofText?_eq_some_iff.2 hlast]
  rfl

end TwoSides

/-- A range that is written somewhere has two sides there. -/
theorem WrittenAs.exists_sides (h : r.WrittenAs item) :
    ∃ left right, Text.SplitAt "..".toList item [left, right] ∧ r.first.WrittenAs left.trim ∧
      r.last.WrittenAs right.trim := by
  obtain ⟨left, right, rfl, hfirst, hlast, -, -⟩ := h
  have hdot {c : Cell} {side : Text} (hside : c.WrittenAs side.trim) : '.' ∉ side := fun hmem =>
    Text.not_mem_of_isWord hside.isWord (by decide) (Text.mem_trim_of_mem hmem (by decide))
  refine ⟨left, right, (Text.splitAt_pair_iff (by decide)).2 ⟨?_, ?_⟩, hfirst, hlast⟩
  · rw [List.append_assoc]
    exact Text.cutAt?_append (hdot hfirst)
  · exact Text.cutAt?_eq_none (hdot hlast)

/-- What a text is read as, range or error, is what the grammar says of it. -/
theorem outcome (item : Text) :
    (∃ r, ofText item = .ok r ∧ r.WrittenAs item) ∨
      ∃ e, ofText item = .error e ∧ Rejected item e := by
  obtain ⟨sides, hsides⟩ : ∃ sides, Text.SplitAt "..".toList item sides :=
    Text.exists_splitAt (by decide) item
  by_cases hcount : sides.length = 2
  · obtain ⟨left, right, rfl⟩ := List.length_eq_two.1 hcount
    rcases sides_cases left right with hstart | ⟨hleft, hright, hnumber⟩ |
      ⟨first, last, hfirst, hlast⟩
    · exact .inr ⟨_, ofText_of_start hsides hstart, .start hsides hstart⟩
    · exact .inr ⟨_, ofText_of_number hsides hleft hright hnumber,
        .number hsides hleft hright hnumber⟩
    · have hread := ofText_of_cells hsides hfirst hlast
      split_ifs at hread with horder hwidth
      · exact .inr ⟨_, hread, .inverted hsides hfirst hlast horder⟩
      · exact .inr ⟨_, hread, .tooWide hsides hfirst hlast (Nat.not_lt.1 horder) hwidth⟩
      · obtain ⟨hcut, -⟩ := (Text.splitAt_pair_iff (by decide)).1 hsides
        exact .inl ⟨_, hread, left, right, Text.cutAt?_eq_some hcut, hfirst, hlast,
          Nat.not_lt.1 horder, Nat.not_le.1 hwidth⟩
  · exact .inr ⟨_, ofText_of_length_ne_two hsides hcount, .format hsides hcount⟩

theorem ofText_eq_ok_iff : ofText item = .ok r ↔ r.WrittenAs item := by
  constructor
  · intro h
    rcases outcome item with ⟨r', hread, hwritten⟩ | ⟨e, hread, -⟩
    · rw [hread] at h
      exact Except.ok.inj h ▸ hwritten
    · rw [hread] at h
      cases h
  · intro h
    obtain ⟨left, right, hsides, hfirst, hlast⟩ := h.exists_sides
    obtain ⟨-, -, -, -, -, horder, hwidth⟩ := h
    rw [ofText_of_cells hsides hfirst hlast, if_neg (Nat.not_lt.2 horder),
      if_neg (Nat.not_le.2 hwidth)]

theorem ofText_eq_error_iff : ofText item = .error e ↔ Rejected item e := by
  constructor
  · intro h
    rcases outcome item with ⟨r, hread, -⟩ | ⟨e', hread, hrejected⟩
    · rw [hread] at h
      cases h
    · rw [hread] at h
      exact Except.error.inj h ▸ hrejected
  · intro h
    cases h with
    | format hsides hcount => exact ofText_of_length_ne_two hsides hcount
    | start hsides hstart => exact ofText_of_start hsides hstart
    | number hsides hleft hright hnumber => exact ofText_of_number hsides hleft hright hnumber
    | inverted hsides hfirst hlast horder =>
      rw [ofText_of_cells hsides hfirst hlast, if_pos horder]
    | tooWide hsides hfirst hlast horder hwidth =>
      rw [ofText_of_cells hsides hfirst hlast, if_neg (Nat.not_lt.2 horder), if_pos hwidth]

end CellRange

namespace CellList

variable {item s : Text} {cells : List Cell} {e : CellListError}

theorem map_toNat_cells (r : CellRange) :
    r.cells.map Cell.toNat = List.range' r.first.toNat (r.last.toNat + 1 - r.first.toNat) := by
  rw [CellRange.cells, List.map_map]
  refine (List.map_congr_left fun n hn => ?_).trans (List.map_id _)
  have hlast := r.last.toNat_lt
  rw [List.mem_range'_1] at hn
  exact Cell.toNat_ofNat (by omega)

/-- The cells of an ordered range are those that count up from its first cell to its last. -/
theorem eq_cells_iff {r : CellRange} (h : r.first.toNat ≤ r.last.toNat) :
    cells = r.cells ↔
      cells.map Cell.toNat = List.range' r.first.toNat (r.last.toNat - r.first.toNat + 1) := by
  have hcount : r.last.toNat - r.first.toNat + 1 = r.last.toNat + 1 - r.first.toNat := by omega
  rw [hcount, ← map_toNat_cells]
  exact (List.map_injective_iff.2 Cell.toNat_injective).eq_iff.symm

theorem readItem_of_range (h : "..".toList <:+: item) :
    readItem item = (CellRange.ofText item).map CellRange.cells := by
  rw [readItem, if_pos ((Text.hasPart_iff (by decide)).2 h)]

theorem readItem_of_cell (h : ¬ "..".toList <:+: item) :
    readItem item =
      if item.head? = some 'C' then
        match Cell.ofText? item with
        | some c => .ok [c]
        | none => .error (.cellNumber (String.ofList item))
      else .error (.cellPrefix (String.ofList item)) := by
  rw [readItem, if_neg (mt (Text.hasPart_iff (by decide)).1 h)]
  by_cases hstart : item.head? = some 'C'
  · rw [startsWith_C_iff.2 hstart, if_pos hstart]
    rfl
  · rw [Bool.eq_false_iff.2 (mt startsWith_C_iff.1 hstart), if_neg hstart]
    rfl

theorem dots_infix_of_range {r : CellRange} (h : r.WrittenAs item) : "..".toList <:+: item := by
  obtain ⟨left, right, rfl, -⟩ := h
  exact ⟨left, right, rfl⟩

theorem not_dots_infix_of_cell {c : Cell} (h : c.WrittenAs item) : ¬ "..".toList <:+: item :=
  mt (Text.hasPart_iff (by decide)).2
    (Bool.eq_false_iff.1 (Text.hasPart_dots_of_isWord h.isWord))

theorem readItem_eq_ok_iff : readItem item = .ok cells ↔ Item item cells := by
  constructor
  · intro h
    by_cases hdots : "..".toList <:+: item
    · rw [readItem_of_range hdots] at h
      cases hrange : CellRange.ofText item with
      | error e =>
        rw [hrange] at h
        cases h
      | ok r =>
        rw [hrange] at h
        have hwritten := CellRange.ofText_eq_ok_iff.1 hrange
        obtain ⟨-, -, -, -, -, horder, -⟩ := id hwritten
        exact .range hwritten ((eq_cells_iff horder).1 (Except.ok.inj h).symm)
    · rw [readItem_of_cell hdots] at h
      split_ifs at h
      split at h
      · next c hc =>
        obtain rfl := Except.ok.inj h
        exact .cell (Cell.ofText?_eq_some_iff.1 hc)
      · cases h
  · intro h
    cases h with
    | cell h =>
      rw [readItem_of_cell (not_dots_infix_of_cell h), if_pos h.head?,
        Cell.ofText?_eq_some_iff.2 h]
    | @range r cells h hcells =>
      obtain ⟨-, -, -, -, -, horder, -⟩ := id h
      rw [readItem_of_range (dots_infix_of_range h), CellRange.ofText_eq_ok_iff.2 h,
        (eq_cells_iff horder).2 hcells]
      rfl

theorem readItem_eq_error_iff : readItem item = .error e ↔ ItemRejected item e := by
  constructor
  · intro h
    by_cases hdots : "..".toList <:+: item
    · rw [readItem_of_range hdots] at h
      cases hrange : CellRange.ofText item with
      | error e' =>
        rw [hrange] at h
        obtain rfl := Except.error.inj h
        exact .range hdots (CellRange.ofText_eq_error_iff.1 hrange)
      | ok r =>
        rw [hrange] at h
        cases h
    · rw [readItem_of_cell hdots] at h
      split_ifs at h with hstart
      · split at h
        · cases h
        · next hnone =>
          obtain rfl := Except.error.inj h
          exact .number hdots hstart (Cell.ofText?_eq_none_iff.1 hnone)
      · obtain rfl := Except.error.inj h
        exact .start hdots hstart
  · intro h
    cases h with
    | range hdots h =>
      rw [readItem_of_range hdots, CellRange.ofText_eq_error_iff.2 h]
      rfl
    | start hdots hstart => rw [readItem_of_cell hdots, if_neg hstart]
    | number hdots hstart hnumber =>
      rw [readItem_of_cell hdots, if_pos hstart, Cell.ofText?_eq_none_iff.2 hnumber]

theorem ofText_eq_ok_iff : ofText s = .ok cells ↔
    ∃ parts, List.Forall₂ Item s.items parts ∧ parts.flatten = cells := by
  have hmap : ofText s = (s.items.mapM readItem).map List.flatten := rfl
  simp only [hmap, map_eq_ok, mapM_eq_ok_iff, readItem_eq_ok_iff]

/-- An item that is rejected stands for nothing. -/
theorem ItemRejected.not_item (h : ItemRejected item e) (cells : List Cell) :
    ¬ Item item cells := by
  intro hitem
  have hread := readItem_eq_ok_iff.2 hitem
  rw [readItem_eq_error_iff.2 h] at hread
  cases hread

theorem ofText_eq_error_iff : ofText s = .error e ↔
    ∃ front item rest, s.items = front ++ item :: rest ∧ ItemRejected item e ∧
      ∀ accepted ∈ front, ∃ cells, Item accepted cells := by
  have hmap : ofText s = (s.items.mapM readItem).map List.flatten := rfl
  simp only [hmap, map_eq_error, mapM_eq_error_iff, readItem_eq_error_iff, readItem_eq_ok_iff]

/-- A list is accepted just if each of its items is a cell or a range, and then it is made up of the
cells that the items stand for, in order and with repetitions. Otherwise it is rejected for the
first of its items that is neither. -/
theorem lists_read_exactly (s : Text) :
    (∀ cells, ofText s = .ok cells ↔
      ∃ parts, List.Forall₂ Item s.items parts ∧ parts.flatten = cells) ∧
    ofText s ≠ .ok [] ∧
    ∀ e, ofText s = .error e ↔ ∃ front item rest, s.items = front ++ item :: rest ∧
      (∀ accepted ∈ front, ∃ cells, Item accepted cells) ∧ (∀ cells, ¬ Item item cells) ∧
      ItemRejected item e := by
  refine ⟨fun _ => ofText_eq_ok_iff, fun h => ne_nil_of_ofText h rfl, fun e => ?_⟩
  rw [ofText_eq_error_iff]
  constructor
  · rintro ⟨front, item, rest, hitems, hrejected, hfront⟩
    exact ⟨front, item, rest, hitems, hfront, hrejected.not_item, hrejected⟩
  · rintro ⟨front, item, rest, hitems, hfront, -, hrejected⟩
    exact ⟨front, item, rest, hitems, hrejected, hfront⟩

/-- Of three dots the first two are the separator, and the third belongs to the second side. -/
example : ofText "C1 .. C3,C0...C3".toList = .error (.rangePrefix "C0...C3") := by
  decide +kernel

end CellList

end CellCheck
