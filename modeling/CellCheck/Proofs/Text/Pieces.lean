import CellCheck.Proofs.Text
import Mathlib.Data.List.Infix

/-!
# Pieces of a text

A text is cut at the first occurrence of a separator. Cut again and again it falls into pieces that
are unique. Trimming takes away what is blank at the ends and nothing else.
-/

namespace CellCheck.Text

section Cut

variable {separator s left right : Text}

theorem cutAt?_eq_none_iff (hne : separator ≠ []) :
    cutAt? separator s = none ↔ ¬ separator <:+: s := by
  constructor
  · intro h hinside
    induction s with
    | nil => exact hne (List.infix_nil.1 hinside)
    | cons c rest ih =>
      unfold cutAt? at h
      split at h
      · cases h
      · next hnone =>
        rcases List.infix_cons_iff.1 hinside with ⟨tail, hfront⟩ | hrest
        · rw [List.isPrefixOf?_eq_some_iff_append_eq.2 hfront] at hnone
          cases hnone
        · exact ih (Option.map_eq_none_iff.1 h) hrest
  · intro h
    refine Option.eq_none_iff_forall_ne_some.2 fun parts hparts => h ?_
    exact ⟨parts.1, parts.2, (cutAt?_eq_some hparts).symm⟩

theorem not_infix_dropLast (hne : separator ≠ []) : ¬ separator <:+: separator.dropLast := by
  intro h
  have hlength := h.length_le
  have hpos := List.length_pos_iff.2 hne
  rw [List.length_dropLast] at hlength
  omega

/-- The separator does not start in front of the place where it was found. -/
theorem not_infix_of_cutAt? (hne : separator ≠ []) (h : cutAt? separator s = some (left, right)) :
    ¬ separator <:+: left ++ separator.dropLast := by
  induction s generalizing left with
  | nil =>
    rw [cutAt?, if_neg (by simpa using hne)] at h
    cases h
  | cons c rest ih =>
    unfold cutAt? at h
    split at h
    · cases h
      exact not_infix_dropLast hne
    · next hnone =>
      obtain ⟨⟨left', right'⟩, hcut, hparts⟩ := Option.map_eq_some_iff.1 h
      cases hparts
      intro hinside
      rcases List.infix_cons_iff.1 hinside with hfront | hrest
      · -- An occurrence that ends before the last character of the one found is one of the text.
        have hpart : c :: (left' ++ separator.dropLast) <+: c :: rest := by
          rw [cutAt?_eq_some hcut, List.append_assoc]
          exact List.cons_prefix_cons.2
            ⟨rfl, (List.prefix_append_right_inj _).2
              ((List.dropLast_prefix _).trans (List.prefix_append _ _))⟩
        obtain ⟨tail, htail⟩ := hfront.trans hpart
        rw [List.isPrefixOf?_eq_some_iff_append_eq.2 htail] at hnone
        cases hnone
      · exact ih hcut hrest

theorem cutAt?_append_of_first (hne : separator ≠ [])
    (h : ¬ separator <:+: left ++ separator.dropLast) :
    cutAt? separator (left ++ separator ++ right) = some (left, right) := by
  induction left with
  | nil =>
    obtain ⟨c, tail, rfl⟩ := List.exists_cons_of_ne_nil hne
    have hfront : (c :: tail).isPrefixOf? (c :: (tail ++ right)) = some right :=
      List.isPrefixOf?_eq_some_iff_append_eq.2 rfl
    simp only [List.nil_append, List.cons_append, cutAt?, hfront]
  | cons d left ih =>
    have hnone : separator.isPrefixOf? (d :: (left ++ separator ++ right)) = none := by
      refine Option.eq_none_iff_forall_ne_some.2 fun tail htail => h ?_
      refine List.IsPrefix.isInfix (List.prefix_of_prefix_length_le
        ⟨tail, List.isPrefixOf?_eq_some_iff_append_eq.1 htail⟩ ?_ ?_)
      · rw [List.append_assoc]
        exact List.cons_prefix_cons.2 ⟨rfl, (List.prefix_append_right_inj _).2
          ((List.dropLast_prefix _).trans (List.prefix_append _ _))⟩
      · have hpos := List.length_pos_iff.2 hne
        simp only [List.cons_append, List.length_cons, List.length_append, List.length_dropLast]
        omega
    have hrest := ih fun hinside => h (List.infix_cons_iff.2 (.inr hinside))
    simp only [List.cons_append, cutAt?, hnone, hrest, Option.map_some]

/-- The cut is where the separator starts for the first time. -/
theorem cutAt?_eq_some_iff (hne : separator ≠ []) :
    cutAt? separator s = some (left, right) ↔
      s = left ++ separator ++ right ∧ ¬ separator <:+: left ++ separator.dropLast := by
  constructor
  · exact fun h => ⟨cutAt?_eq_some h, not_infix_of_cutAt? hne h⟩
  · rintro ⟨rfl, h⟩
    exact cutAt?_append_of_first hne h

theorem cut?_char_eq_some_iff {separator : String} {c : Char}
    (hseparator : separator.toList = [c]) :
    s.cut? separator = some (left, right) ↔ s = left ++ c :: right ∧ c ∉ left := by
  rw [cut?, hseparator, cutAt?_eq_some_iff (List.cons_ne_nil _ _), List.append_assoc,
    List.dropLast_singleton, List.append_nil, List.singleton_infix_iff]
  rfl

theorem cut?_char_eq_none_iff {separator : String} {c : Char}
    (hseparator : separator.toList = [c]) : s.cut? separator = none ↔ c ∉ s := by
  rw [cut?, hseparator, cutAt?_eq_none_iff (List.cons_ne_nil _ _), List.singleton_infix_iff]

theorem hasPart_iff {part : String} (hne : part.toList ≠ []) :
    s.hasPart part ↔ part.toList <:+: s := by
  rw [hasPart, cut?, Option.isSome_iff_ne_none, ne_eq, cutAt?_eq_none_iff hne, not_not]

end Cut

section Pieces

/-- The pieces of a text between the occurrences of a separator, which are found from the left and
do not overlap. -/
inductive SplitAt (separator : Text) : Text → List Text → Prop where
  | whole {s : Text} (h : ¬ separator <:+: s) : SplitAt separator s [s]
  | cut {left right : Text} {pieces : List Text}
      (h : ¬ separator <:+: left ++ separator.dropLast) (hrest : SplitAt separator right pieces) :
      SplitAt separator (left ++ separator ++ right) (left :: pieces)

variable {separator s left right : Text} {pieces : List Text}

theorem exists_splitAt (hne : separator ≠ []) (s : Text) :
    ∃ pieces, SplitAt separator s pieces := by
  induction hlength : s.length using Nat.strong_induction_on generalizing s with
  | _ n ih =>
    subst hlength
    cases hcut : cutAt? separator s with
    | none => exact ⟨[s], .whole ((cutAt?_eq_none_iff hne).1 hcut)⟩
    | some parts =>
      obtain ⟨left, right⟩ := parts
      obtain ⟨rfl, hfirst⟩ := (cutAt?_eq_some_iff hne).1 hcut
      have hshorter : right.length < (left ++ separator ++ right).length := by
        have hpos := List.length_pos_iff.2 hne
        simp only [List.length_append]
        omega
      obtain ⟨pieces, hpieces⟩ := ih right.length hshorter right rfl
      exact ⟨left :: pieces, .cut hfirst hpieces⟩

theorem SplitAt.ne_nil (h : SplitAt separator s pieces) : pieces ≠ [] := by
  cases h <;> exact List.cons_ne_nil _ _

theorem splitAt_of_cutAt?_eq_none (hne : separator ≠ []) (hcut : cutAt? separator s = none) :
    SplitAt separator s pieces ↔ pieces = [s] := by
  have hwhole := (cutAt?_eq_none_iff hne).1 hcut
  constructor
  · intro h
    cases h with
    | whole h => rfl
    | cut h hrest => exact absurd ⟨_, _, rfl⟩ hwhole
  · rintro rfl
    exact .whole hwhole

theorem splitAt_of_cutAt?_eq_some (hne : separator ≠ [])
    (hcut : cutAt? separator s = some (left, right)) :
    SplitAt separator s pieces ↔ ∃ rest, pieces = left :: rest ∧ SplitAt separator right rest := by
  constructor
  · intro h
    cases h with
    | whole h =>
      rw [(cutAt?_eq_none_iff hne).2 h] at hcut
      cases hcut
    | @cut first others rest h hrest =>
      rw [cutAt?_append_of_first hne h] at hcut
      cases hcut
      exact ⟨rest, rfl, hrest⟩
  · rintro ⟨rest, rfl, hrest⟩
    obtain ⟨rfl, h⟩ := (cutAt?_eq_some_iff hne).1 hcut
    exact .cut h hrest

theorem SplitAt.unique {others : List Text} (hne : separator ≠ []) (h : SplitAt separator s pieces)
    (hothers : SplitAt separator s others) : pieces = others := by
  induction h generalizing others with
  | @whole s h =>
    exact ((splitAt_of_cutAt?_eq_none hne ((cutAt?_eq_none_iff hne).2 h)).1 hothers).symm
  | cut h hrest ih =>
    obtain ⟨rest, rfl, hrest'⟩ :=
      (splitAt_of_cutAt?_eq_some hne (cutAt?_append_of_first hne h)).1 hothers
    rw [ih hrest']

/-- There are two pieces just if the first cut leaves nothing to cut. -/
theorem splitAt_pair_iff (hne : separator ≠ []) :
    SplitAt separator s [left, right] ↔
      cutAt? separator s = some (left, right) ∧ cutAt? separator right = none := by
  constructor
  · intro h
    cases h with
    | cut h hrest =>
      cases hrest with
      | whole hnone => exact ⟨cutAt?_append_of_first hne h, (cutAt?_eq_none_iff hne).2 hnone⟩
      | cut _ hnil => exact absurd rfl hnil.ne_nil
  · rintro ⟨hcut, hnext⟩
    exact (splitAt_of_cutAt?_eq_some hne hcut).2
      ⟨[right], rfl, (splitAt_of_cutAt?_eq_none hne hnext).2 rfl⟩

end Pieces

section Split

variable {a c : Char} {s : Text} {pieces : List Text}

theorem splitOn_eq_iff :
    s.splitOn a = pieces ↔
      pieces ≠ [] ∧ (∀ piece ∈ pieces, a ∉ piece) ∧ s = [a].intercalate pieces := by
  constructor
  · rintro rfl
    exact ⟨List.splitOn_ne_nil a s, fun piece => not_mem_of_mem_splitOn,
      (List.intercalate_splitOn a).symm⟩
  · rintro ⟨hne, hpieces, rfl⟩
    exact List.splitOn_intercalate a hpieces hne

theorem exists_mem_splitOn (hmem : c ∈ s) (hne : c ≠ a) : ∃ piece ∈ s.splitOn a, c ∈ piece := by
  have hs : [a].intercalate (s.splitOn a) = s := List.intercalate_splitOn a
  rw [← hs] at hmem
  rcases mem_intercalate hmem with hseparator | hpiece
  · exact absurd (List.mem_singleton.1 hseparator) hne
  · exact hpiece

end Split

section Trim

variable {s blanks : Text} {c : Char}

theorem exists_blanks_trim (s : Text) : ∃ front back, (∀ c ∈ front, isBlank c) ∧
    (∀ c ∈ back, isBlank c) ∧ s = front ++ (s.trim ++ back) := by
  refine ⟨s.takeWhile isBlank, s.trimStart.rtakeWhile isBlank, fun c => List.mem_takeWhile_imp,
    fun c => List.mem_rtakeWhile_imp, ?_⟩
  have hback : s.trim ++ s.trimStart.rtakeWhile isBlank = s.trimStart :=
    List.rdropWhile_append_rtakeWhile
  rw [hback]
  exact List.takeWhile_append_dropWhile.symm

theorem mem_trim_of_mem (hmem : c ∈ s) (hc : isBlank c = false) : c ∈ s.trim := by
  obtain ⟨front, back, hfront, hback, hs⟩ := exists_blanks_trim s
  rw [hs, List.mem_append, List.mem_append] at hmem
  rcases hmem with hmem | hmem | hmem
  · exact absurd (hfront c hmem) (Bool.eq_false_iff.1 hc)
  · exact hmem
  · exact absurd (hback c hmem) (Bool.eq_false_iff.1 hc)

/-- Only blanks at the front are trimmed from a text that does not end with a blank. -/
theorem exists_blanks_append_trim (hlast : ∀ c ∈ s.getLast?, isBlank c = false) :
    ∃ blanks, (∀ c ∈ blanks, isBlank c) ∧ s = blanks ++ s.trim := by
  obtain ⟨front, back, hfront, hback, hs⟩ := exists_blanks_trim s
  have hnil : back = [] := by
    by_contra hne
    have hend : s.getLast? = some (back.getLast hne) := by
      rw [hs, List.getLast?_append_of_ne_nil _ (List.append_ne_nil_of_right_ne_nil _ hne),
        List.getLast?_append_of_ne_nil _ hne, List.getLast?_eq_some_getLast hne]
    have hblank := hback _ (List.getLast_mem hne)
    rw [hlast _ hend] at hblank
    cases hblank
  refine ⟨front, hfront, ?_⟩
  rwa [hnil, List.append_nil] at hs

theorem trim_eq_nil_iff : s.trim = [] ↔ ∀ c ∈ s, isBlank c := by
  constructor
  · intro h c hc
    by_contra hblank
    exact trim_ne_nil_of_mem hc (Bool.eq_false_iff.2 hblank) h
  · intro h
    rw [trim, trimStart, List.dropWhile_eq_nil_iff.2 h]
    rfl

theorem trim_append_of_blanks (h : ∀ c ∈ blanks, isBlank c) (s : Text) :
    trim (blanks ++ s) = s.trim := by
  induction blanks with
  | nil => rfl
  | cons c rest ih =>
    rw [List.cons_append, trim_cons_of_isBlank (h c List.mem_cons_self),
      ih fun d hd => h d (List.mem_cons_of_mem _ hd)]

def items (s : Text) : List Text := (s.splitOn ',').map trim

end Trim

end CellCheck.Text
