import CellCheck.Proofs.Traversal
import CellCheck.Text.Blank
import CellCheck.Text.Line
import CellCheck.Text.Numeral
import CellCheck.Text.Word
import Mathlib.Data.List.Basic
import Mathlib.Data.List.DropRight

/-!
# Texts put together and taken apart

A text without white space at its ends is left alone by trimming. Cutting a text at a separator
whose first character does not occur before it gives back the two parts, and splitting a list of
items between commas gives back the items.
-/

namespace CellCheck.Text

/-! ## Words -/

theorem isWord_iff {s : Text} : isWord s ↔ s ≠ [] ∧ ∀ c ∈ s, isWordChar c := by
  simp [isWord]

theorem isWordChar_of_isDigit {c : Char} (h : c.isDigit) : isWordChar c := by
  simp [isWordChar, Char.isAlphanum, h]

theorem toNat_of_isWordChar {c : Char} (h : isWordChar c) : 48 ≤ c.toNat ∧ c.toNat ≤ 122 := by
  simp only [isWordChar, Char.isAlphanum, Bool.or_eq_true, beq_iff_eq] at h
  rcases h with (hletter | hdigit) | rfl
  · rcases (Bool.or_eq_true _ _).mp hletter with hupper | hlower
    · have hrange := of_decide_eq_true hupper
      exact ⟨Nat.le_trans (by decide) hrange.1, Nat.le_trans hrange.2 (by decide)⟩
    · obtain ⟨hfirst, hlast⟩ := (Bool.and_eq_true _ _).mp hlower
      exact ⟨Nat.le_trans (by decide) (of_decide_eq_true hfirst),
        Nat.le_trans (of_decide_eq_true hlast) (by decide)⟩
  · obtain ⟨hfirst, hlast⟩ := Char.isDigit_iff_toNat.1 hdigit
    exact ⟨hfirst, Nat.le_trans hlast (by decide)⟩
  · decide

theorem isBlank_of_isWordChar {c : Char} (h : isWordChar c) : isBlank c = false := by
  obtain ⟨hlow, hhigh⟩ := toNat_of_isWordChar h
  simp only [isBlank, inRanges, blankRanges, List.any_cons, List.any_nil, Bool.or_eq_false_iff,
    Bool.and_eq_false_iff, decide_eq_false_iff_not, and_true]
  omega

theorem not_mem_of_isWord {s : Text} {c : Char} (h : isWord s) (hc : isWordChar c = false) :
    c ∉ s := by
  intro hmem
  have := (isWord_iff.1 h).2 c hmem
  rw [hc] at this
  cases this

theorem isWord_append {s t : Text} (hs : isWord s) (ht : ∀ c ∈ t, isWordChar c) :
    isWord (s ++ t) := by
  rw [isWord_iff] at hs ⊢
  refine ⟨List.append_ne_nil_of_left_ne_nil hs.1 t, ?_⟩
  intro c hc
  exact (List.mem_append.1 hc).elim (hs.2 c) (ht c)

theorem isWord_decimal (n : Nat) : isWord (Numeral.decimal n) :=
  isWord_iff.2 ⟨Nat.toDigits_ne_nil, fun _ hc =>
    isWordChar_of_isDigit (Nat.isDigit_of_mem_toDigits (by decide) (by decide) hc)⟩

/-! ## Trimming -/

/-- No white space at either end. -/
structure Tight (s : Text) : Prop where
  head : ∀ c ∈ s.head?, isBlank c = false
  last : ∀ c ∈ s.getLast?, isBlank c = false

theorem tight_trim (s : Text) : Tight s.trim := by
  have hlast : ∀ c ∈ s.trim.getLast?, isBlank c = false := by
    intro c hc
    have hne : s.trim ≠ [] := by rintro h; simp [h] at hc
    have hnot := List.rdropWhile_last_not isBlank s.trimStart hne
    rw [List.getLast?_eq_some_getLast hne] at hc
    obtain rfl := Option.some.inj hc
    exact Bool.eq_false_iff.2 hnot
  refine ⟨?_, hlast⟩
  intro c hc
  obtain ⟨rest, hrest⟩ : ∃ rest, s.trim = c :: rest := by
    cases h : s.trim with
    | nil => simp [h] at hc
    | cons d rest =>
      obtain rfl : d = c := by simpa [h] using hc
      exact ⟨rest, rfl⟩
  obtain ⟨tail, htail⟩ : s.trim <+: s.trimStart := List.rdropWhile_prefix isBlank _
  rw [hrest, List.cons_append] at htail
  have hhead := List.head?_dropWhile_not isBlank s
  rw [show s.dropWhile isBlank = c :: (rest ++ tail) from htail.symm] at hhead
  exact hhead

theorem Tight.trim_eq {s : Text} (h : Tight s) : s.trim = s := by
  have hstart : s.trimStart = s := by
    cases s with
    | nil => rfl
    | cons c rest => exact List.dropWhile_cons_of_neg (by simp [h.head c rfl])
  rw [trim, hstart]
  refine List.rdropWhile_eq_self_iff.2 ?_
  intro hne
  rw [h.last _ (List.getLast?_eq_some_getLast hne)]
  decide

theorem trim_eq_self_iff {s : Text} : s.trim = s ↔ Tight s :=
  ⟨fun h => h ▸ tight_trim s, Tight.trim_eq⟩

@[simp] theorem trim_trim (s : Text) : s.trim.trim = s.trim := (tight_trim s).trim_eq

theorem infix_trim (s : Text) : s.trim <:+: s :=
  (List.rdropWhile_prefix isBlank _).isInfix.trans (List.dropWhile_suffix isBlank).isInfix

theorem mem_of_mem_trim {s : Text} {c : Char} (h : c ∈ s.trim) : c ∈ s := (infix_trim s).mem h

theorem trim_cons_of_isBlank {c : Char} (h : isBlank c) (s : Text) : trim (c :: s) = s.trim := by
  rw [trim, trimStart, List.dropWhile_cons_of_pos h]
  rfl

theorem trim_ne_nil_of_mem {s : Text} {c : Char} (hmem : c ∈ s) (hc : isBlank c = false) :
    s.trim ≠ [] := by
  intro hnil
  have hall : ∀ d ∈ s.trimStart, isBlank d := List.rdropWhile_eq_nil_iff.1 hnil
  cases hstart : s.trimStart with
  | nil =>
    have := List.dropWhile_eq_nil_iff.1 hstart c hmem
    rw [hc] at this
    cases this
  | cons d rest =>
    have hhead := List.head?_dropWhile_not isBlank s
    rw [show s.dropWhile isBlank = d :: rest from hstart] at hhead
    rw [hstart] at hall
    exact absurd (hall d List.mem_cons_self) (Bool.eq_false_iff.1 hhead)

theorem trim_append_of_isBlank {c : Char} (h : isBlank c) (s : Text) :
    trim (s ++ [c]) = s.trim := by
  have hend (t : Text) : trimEnd (t ++ [c]) = t.trimEnd := List.rdropWhile_concat_pos isBlank t c h
  rw [trim, trimStart, List.dropWhile_append]
  split
  · next hnil =>
    rw [List.isEmpty_iff] at hnil
    rw [List.dropWhile_cons_of_pos h, trim, trimStart, hnil]
    rfl
  · exact hend _

/-- Blanks around a text without white space at its ends are trimmed away. -/
theorem trim_blanks {s : Text} (h : Tight s) : trim (' ' :: (s ++ [' '])) = s := by
  rw [trim_cons_of_isBlank (by decide), trim_append_of_isBlank (by decide), h.trim_eq]

theorem tight_of_forall {s : Text} (h : ∀ c ∈ s, isBlank c = false) : Tight s :=
  ⟨fun c hc => h c (List.mem_of_mem_head? hc), fun c hc => h c (List.mem_of_mem_getLast? hc)⟩

theorem tight_of_isWord {s : Text} (h : isWord s) : Tight s :=
  tight_of_forall fun c hc => isBlank_of_isWordChar ((isWord_iff.1 h).2 c hc)

theorem Tight.trimEnd_append {s blanks : Text} (h : Tight s) (hblanks : ∀ c ∈ blanks, isBlank c) :
    trimEnd (s ++ blanks) = s := by
  have hlast : ∀ c ∈ s.reverse.head?, isBlank c = false := by
    rw [List.head?_reverse]
    exact h.last
  obtain ⟨-, hdrop⟩ :=
    takeWhile_dropWhile_append (fun c hc => hblanks c (List.mem_reverse.1 hc)) hlast
  rw [trimEnd, List.reverse_append, hdrop, List.reverse_reverse]

theorem tight_append {s t : Text} (hs : s ≠ []) (ht : t ≠ [])
    (hhead : ∀ c ∈ s.head?, isBlank c = false) (hlast : ∀ c ∈ t.getLast?, isBlank c = false) :
    Tight (s ++ t) := by
  constructor
  · rwa [List.head?_append_of_ne_nil s hs]
  · rwa [List.getLast?_append_of_ne_nil s ht]

/-! ## Cutting -/

theorem after?_eq_some_iff {s rest : Text} {beginning : String} :
    s.after? beginning = some rest ↔ s = beginning.toList ++ rest := by
  rw [after?, List.isPrefixOf?_eq_some_iff_append_eq, eq_comm]

theorem before?_eq_some_iff {s rest : Text} {ending : String} :
    s.before? ending = some rest ↔ s = rest ++ ending.toList := by
  rw [before?, List.isSuffixOf?_eq_some_iff_append_eq, eq_comm]

theorem startsWith_iff {s : Text} {beginning : String} :
    s.startsWith beginning ↔ ∃ rest, s = beginning.toList ++ rest := by
  simp only [startsWith, Option.isSome_iff_exists, after?_eq_some_iff]

theorem startsWith_append {s : Text} {beginning : String} (h : s.startsWith beginning)
    (rest : Text) : startsWith (s ++ rest) beginning := by
  obtain ⟨tail, rfl⟩ := startsWith_iff.1 h
  exact startsWith_iff.2 ⟨tail ++ rest, List.append_assoc _ _ _⟩

theorem takeWhile_bne_append {c : Char} {s : Text} (h : c ∉ s) (rest : Text) :
    (s ++ c :: rest).takeWhile (· != c) = s ∧ (s ++ c :: rest).dropWhile (· != c) = c :: rest := by
  apply takeWhile_dropWhile_append
  · intro d hd
    exact bne_iff_ne.2 fun heq => h (heq ▸ hd)
  · simp

/-- The first occurrence of a character is one place only. -/
theorem append_cons_inj {c : Char} {s t rest rest' : Text} (hs : c ∉ s) (ht : c ∉ t)
    (h : s ++ c :: rest = t ++ c :: rest') : s = t ∧ rest = rest' := by
  obtain ⟨hfront, hback⟩ := takeWhile_bne_append hs rest
  rw [h, (takeWhile_bne_append ht rest').1] at hfront
  rw [h, (takeWhile_bne_append ht rest').2] at hback
  exact ⟨hfront.symm, (List.cons.inj hback).2.symm⟩

/-- A word before a blank is a keyword only if it is that keyword as a whole. -/
theorem after?_word_append {word : Text} {keyword : String} {rest : Text} (hword : ' ' ∉ word)
    (hkeyword : ' ' ∉ keyword.toList) :
    (word ++ ' ' :: rest).after? (keyword ++ " ") =
      if word = keyword.toList then some rest else none := by
  split_ifs with h
  · rw [after?_eq_some_iff, h, String.toList_append, List.append_assoc]
    rfl
  · refine Option.eq_none_iff_forall_ne_some.2 fun tail htail => h ?_
    rw [after?_eq_some_iff, String.toList_append, List.append_assoc] at htail
    exact (append_cons_inj hword hkeyword htail).1

theorem cutAt?_eq_some {separator s left right : Text}
    (h : cutAt? separator s = some (left, right)) : s = left ++ separator ++ right := by
  induction s generalizing left with
  | nil =>
    unfold cutAt? at h
    split_ifs at h with hempty
    cases h
    rw [List.isEmpty_iff.1 hempty]
    rfl
  | cons c rest ih =>
    unfold cutAt? at h
    split at h
    · next tail htail =>
      cases h
      exact (List.isPrefixOf?_eq_some_iff_append_eq.1 htail).symm
    · obtain ⟨⟨left', right'⟩, hcut, hparts⟩ := Option.map_eq_some_iff.1 h
      cases hparts
      rw [ih hcut]
      rfl

theorem cut?_eq_some {s left right : Text} {separator : String}
    (h : s.cut? separator = some (left, right)) : s = left ++ separator.toList ++ right :=
  cutAt?_eq_some h

theorem isPrefixOf?_cons_of_ne {c d : Char} (h : c ≠ d) (separator s : Text) :
    (c :: separator).isPrefixOf? (d :: s) = none := by
  simp [List.isPrefixOf?, h]

theorem cutAt?_append {c : Char} {separator left right : Text} (h : c ∉ left) :
    cutAt? (c :: separator) (left ++ (c :: separator ++ right)) = some (left, right) := by
  induction left with
  | nil =>
    have : (c :: separator).isPrefixOf? (c :: (separator ++ right)) = some right :=
      List.isPrefixOf?_eq_some_iff_append_eq.2 rfl
    simp only [List.nil_append, List.cons_append, cutAt?, this]
  | cons d left ih =>
    rw [List.mem_cons, not_or] at h
    simp only [List.cons_append, cutAt?, isPrefixOf?_cons_of_ne h.1]
    rw [← List.cons_append, ih h.2]
    rfl

theorem cutAt?_eq_none {c : Char} {separator s : Text} (h : c ∉ s) :
    cutAt? (c :: separator) s = none := by
  induction s with
  | nil => rfl
  | cons d s ih =>
    rw [List.mem_cons, not_or] at h
    simp only [cutAt?, isPrefixOf?_cons_of_ne h.1, ih h.2, Option.map_none]

/-- The cut is at the separator if its first character does not occur before. -/
theorem cut?_append {c : Char} {separator : String} {tail left right : Text}
    (hseparator : separator.toList = c :: tail) (h : c ∉ left) :
    cut? (left ++ (separator.toList ++ right)) separator = some (left, right) := by
  rw [cut?, hseparator]
  exact cutAt?_append h

theorem cut?_eq_none {c : Char} {separator : String} {tail s : Text}
    (hseparator : separator.toList = c :: tail) (h : c ∉ s) : cut? s separator = none := by
  rw [cut?, hseparator]
  exact cutAt?_eq_none h

theorem hasPart_dots_of_isWord {s : Text} (h : isWord s) : s.hasPart ".." = false := by
  rw [hasPart, cut?_eq_none rfl (not_mem_of_isWord h (by decide))]
  rfl

/-! ## Splitting -/

theorem not_mem_of_mem_splitOn {a : Char} {s piece : Text} (h : piece ∈ s.splitOn a) :
    a ∉ piece := by
  induction s generalizing piece with
  | nil =>
    obtain rfl : piece = [] := by simpa using h
    exact List.not_mem_nil
  | cons c s ih =>
    rw [List.splitOn_cons_eq_if_modifyHead] at h
    obtain ⟨head, tail, hsplit⟩ := List.exists_cons_of_ne_nil (List.splitOn_ne_nil a s)
    rw [hsplit] at h ih
    split_ifs at h with hc
    · rcases List.mem_cons.1 h with rfl | hmem
      · exact List.not_mem_nil
      · exact ih hmem
    · rcases List.mem_cons.1 h with rfl | hmem
      · rw [List.mem_cons, not_or]
        exact ⟨fun hac => hc (beq_iff_eq.2 hac.symm), ih List.mem_cons_self⟩
      · exact ih (List.mem_cons_of_mem _ hmem)

theorem infix_intercalate (separator : Text) {pieces : List Text} {piece : Text}
    (h : piece ∈ pieces) : piece <:+: separator.intercalate pieces := by
  induction pieces with
  | nil => cases h
  | cons first rest ih =>
    cases rest with
    | nil =>
      obtain rfl := List.mem_singleton.1 h
      exact List.intercalate_singleton.symm ▸ List.infix_rfl
    | cons next rest =>
      rw [List.intercalate_cons_cons]
      rcases List.mem_cons.1 h with rfl | hrest
      · rw [List.append_assoc]
        exact (List.prefix_append _ _).isInfix
      · exact (ih hrest).trans (List.suffix_append _ _).isInfix

theorem infix_of_mem_splitOn {a : Char} {s piece : Text} (h : piece ∈ s.splitOn a) :
    piece <:+: s := by
  have hinfix := infix_intercalate [a] h
  rwa [List.intercalate_splitOn] at hinfix

theorem map_trim_splitOn_blank_cons (s : Text) :
    ((' ' :: s).splitOn ',').map trim = (s.splitOn ',').map trim := by
  obtain ⟨head, tail, hsplit⟩ := List.exists_cons_of_ne_nil (List.splitOn_ne_nil ',' s)
  rw [List.splitOn_cons_eq_if_modifyHead, if_neg (by decide), hsplit, List.modifyHead_cons,
    List.map_cons, List.map_cons, trim_cons_of_isBlank (by decide)]

/-- Items between commas are found again if they have no comma and no white space at their
ends. -/
theorem map_trim_splitOn_commaSeparated {items : List Text} (hne : items ≠ [])
    (hcomma : ∀ item ∈ items, ',' ∉ item) (htight : ∀ item ∈ items, Tight item) :
    ((commaSeparated items).splitOn ',').map trim = items := by
  induction items with
  | nil => exact absurd rfl hne
  | cons item rest ih =>
    have htrim : item.trim = item := (htight item List.mem_cons_self).trim_eq
    have hitem : ',' ∉ item := hcomma item List.mem_cons_self
    cases rest with
    | nil =>
      rw [commaSeparated, List.intercalate_singleton, List.splitOn_eq_singleton hitem,
        List.map_singleton, htrim]
    | cons next rest =>
      have hrest := ih (List.cons_ne_nil _ _) (fun x hx => hcomma x (List.mem_cons_of_mem _ hx))
        (fun x hx => htight x (List.mem_cons_of_mem _ hx))
      rw [commaSeparated, List.intercalate_cons_cons, List.append_assoc, List.cons_append,
        List.splitOn_append_cons_self_of_not_mem hitem, List.map_cons, htrim, List.cons_append,
        List.nil_append, map_trim_splitOn_blank_cons]
      exact congrArg (item :: ·) hrest

theorem commaSeparated_cons (item : Text) (rest : List Text) :
    commaSeparated (item :: rest) = item ++ rest.flatMap fun next => ',' :: ' ' :: next := by
  induction rest generalizing item with
  | nil => simp [commaSeparated]
  | cons next rest ih =>
    rw [commaSeparated, List.intercalate_cons_cons, ← commaSeparated, ih next]
    simp

theorem mem_intercalate {separator : Text} {pieces : List Text} {c : Char}
    (h : c ∈ separator.intercalate pieces) : c ∈ separator ∨ ∃ piece ∈ pieces, c ∈ piece := by
  induction pieces with
  | nil => cases h
  | cons piece rest ih =>
    cases rest with
    | nil =>
      rw [List.intercalate_singleton] at h
      exact .inr ⟨piece, List.mem_cons_self, h⟩
    | cons next rest =>
      rw [List.intercalate_cons_cons, List.mem_append, List.mem_append] at h
      rcases h with (hpiece | hseparator) | hrest
      · exact .inr ⟨piece, List.mem_cons_self, hpiece⟩
      · exact .inl hseparator
      · rcases ih hrest with hseparator | ⟨x, hx, hc⟩
        · exact .inl hseparator
        · exact .inr ⟨x, List.mem_cons_of_mem _ hx, hc⟩

theorem mem_commaSeparated {items : List Text} {c : Char} (h : c ∈ commaSeparated items) :
    c = ',' ∨ c = ' ' ∨ ∃ item ∈ items, c ∈ item := by
  rcases mem_intercalate h with hseparator | hitem
  · rcases List.mem_cons.1 hseparator with rfl | hblank
    · exact .inl rfl
    · exact .inr (.inl (List.mem_singleton.1 hblank))
  · exact .inr (.inr hitem)

/-! ## Lines -/

theorem withoutReturn_eq_self {line : Text} (h : line.getLast? ≠ some '\r') :
    withoutReturn line = line := by
  have hnone : line.before? "\r" = none := by
    refine Option.eq_none_iff_forall_ne_some.2 fun rest hrest => h ?_
    rw [before?_eq_some_iff.1 hrest]
    exact List.getLast?_concat
  rw [withoutReturn, hnone, Option.getD_none]

theorem length_splitOn (c : Char) (s : Text) : (s.splitOn c).length = s.count c + 1 := by
  induction s with
  | nil => rfl
  | cons d rest ih =>
    rw [List.splitOn_cons_eq_if_modifyHead]
    by_cases h : d = c
    · subst h
      simp [ih]
    · simp [h, ih]

theorem splitOn_flatMap_newline {lines : List Text} (h : ∀ line ∈ lines, '\n' ∉ line) :
    (lines.flatMap (· ++ ['\n'])).splitOn '\n' = lines ++ [[]] := by
  induction lines with
  | nil => rfl
  | cons line rest ih =>
    rw [List.flatMap_cons, List.append_assoc, List.singleton_append,
      List.splitOn_append_cons_self_of_not_mem (h line List.mem_cons_self),
      ih fun x hx => h x (List.mem_cons_of_mem _ hx), List.cons_append]

/-- Lines that are each printed with a line feed are the lines of the text. -/
theorem lines_flatMap_newline {lines : List Text} (hfeed : ∀ line ∈ lines, '\n' ∉ line)
    (hreturn : ∀ line ∈ lines, line.getLast? ≠ some '\r') :
    Text.lines (lines.flatMap (· ++ ['\n'])) = lines := by
  have hmap : lines.map withoutReturn = lines := by
    refine (List.map_congr_left fun line hline => ?_).trans (List.map_id lines)
    exact withoutReturn_eq_self (hreturn line hline)
  simp [Text.lines, splitOn_flatMap_newline hfeed, hmap]

theorem mem_withoutReturn {line : Text} {c : Char} (h : c ∈ withoutReturn line) : c ∈ line := by
  unfold withoutReturn at h
  cases hbefore : line.before? "\r" with
  | none => rwa [hbefore, Option.getD_none] at h
  | some rest =>
    rw [hbefore, Option.getD_some] at h
    rw [before?_eq_some_iff.1 hbefore]
    exact List.mem_append_left _ h

theorem newline_not_mem_of_mem_lines {s line : Text} (h : line ∈ s.lines) : '\n' ∉ line := by
  intro hmem
  simp only [Text.lines, List.mem_append, List.mem_map, List.mem_filter, Option.mem_toList] at h
  rcases h with ⟨piece, hpiece, rfl⟩ | ⟨hlast, -⟩
  · exact not_mem_of_mem_splitOn ((List.dropLast_sublist _).mem hpiece) (mem_withoutReturn hmem)
  · exact not_mem_of_mem_splitOn (List.mem_of_mem_getLast? hlast) hmem

/-! ## Code -/

/-- The text can stand in a line of code: it has no line feed and starts no comment. -/
def IsPlain (s : Text) : Prop := ∀ c ∈ s, c ≠ '#' ∧ c ≠ '\n'

instance (s : Text) : Decidable (IsPlain s) :=
  List.decidableBAll (fun c => c ≠ '#' ∧ c ≠ '\n') s

theorem isPlain_append {s t : Text} : IsPlain (s ++ t) ↔ IsPlain s ∧ IsPlain t :=
  List.forall_mem_append

theorem isPlain_cons {c : Char} {s : Text} :
    IsPlain (c :: s) ↔ (c ≠ '#' ∧ c ≠ '\n') ∧ IsPlain s :=
  List.forall_mem_cons

theorem plain_of_isWordChar {c : Char} (h : isWordChar c) : c ≠ '#' ∧ c ≠ '\n' := by
  constructor
  · rintro rfl
    exact absurd h (by decide)
  · rintro rfl
    exact absurd h (by decide)

theorem isPlain_of_isWord {s : Text} (h : isWord s) : IsPlain s := fun c hc =>
  plain_of_isWordChar ((isWord_iff.1 h).2 c hc)

theorem isPlain_commaSeparated {items : List Text} (h : ∀ item ∈ items, IsPlain item) :
    IsPlain (commaSeparated items) := by
  intro c hc
  rcases mem_commaSeparated hc with rfl | rfl | ⟨item, hitem, hmem⟩
  · decide
  · decide
  · exact h item hitem c hmem

/-- The text is the code of a line: nothing is left of it as comment or white space. -/
structure IsCode (s : Text) : Prop where
  tight : Tight s
  ne_nil : s ≠ []
  plain : IsPlain s

theorem isCode_of_isWord {s : Text} (h : isWord s) : IsCode s :=
  ⟨tight_of_isWord h, (isWord_iff.1 h).1, isPlain_of_isWord h⟩

theorem isCode_append {front back : Text} {c : Char} (hhead : front.head? = some c)
    (hc : isBlank c = false) (hfront : IsPlain front) (hback : IsCode back) :
    IsCode (front ++ back) := by
  have hne : front ≠ [] := by
    rintro rfl
    cases hhead
  refine ⟨tight_append hne hback.ne_nil ?_ hback.tight.last,
    List.append_ne_nil_of_left_ne_nil hne back, isPlain_append.2 ⟨hfront, hback.plain⟩⟩
  intro d hd
  rw [hhead] at hd
  obtain rfl := Option.some.inj hd
  exact hc

end CellCheck.Text

namespace CellCheck.Numeral

theorem hexDigit_digitChar :
    ∀ d < 16, isHexDigit d.digitChar.toUpper ∧ hexDigitValue d.digitChar.toUpper = d ∧
      Text.isWordChar d.digitChar.toUpper := by
  decide

theorem hexadecimal_of_base_le {n : Nat} (h : 16 ≤ n) :
    hexadecimal n = hexadecimal (n / 16) ++ [(n % 16).digitChar.toUpper] := by
  rw [hexadecimal, Nat.toDigits_of_base_le (by decide) h, List.map_append]
  rfl

theorem hexadecimal_of_lt_base {n : Nat} (h : n < 16) :
    hexadecimal n = [n.digitChar.toUpper] := by
  rw [hexadecimal, Nat.toDigits_of_lt_base h]
  rfl

theorem isWord_hexadecimal (n : Nat) : Text.isWord (hexadecimal n) := by
  induction n using Nat.strong_induction_on with
  | _ n ih =>
    by_cases h : n < 16
    · rw [hexadecimal_of_lt_base h]
      exact Text.isWord_iff.2 ⟨List.cons_ne_nil _ _, by simpa using (hexDigit_digitChar n h).2.2⟩
    · rw [hexadecimal_of_base_le (Nat.not_lt.1 h)]
      exact Text.isWord_append (ih (n / 16) (by omega))
        (by simpa using (hexDigit_digitChar (n % 16) (by omega)).2.2)

theorem readHexadecimal?_hexadecimal (n : Nat) : readHexadecimal? (hexadecimal n) = some n := by
  have hdigits : (hexadecimal n).all isHexDigit ∧
      (hexadecimal n).foldl (fun n c => n * 16 + hexDigitValue c) 0 = n := by
    induction n using Nat.strong_induction_on with
    | _ n ih =>
      by_cases h : n < 16
      · obtain ⟨hdigit, hvalue, -⟩ := hexDigit_digitChar n h
        rw [hexadecimal_of_lt_base h]
        simp [hdigit, hvalue]
      · obtain ⟨hdigit, hvalue, -⟩ := hexDigit_digitChar (n % 16) (by omega)
        obtain ⟨hall, hfold⟩ := ih (n / 16) (by omega)
        rw [hexadecimal_of_base_le (Nat.not_lt.1 h), List.all_append, List.foldl_append, hall,
          hfold]
        simp only [List.all_cons, List.all_nil, hdigit, List.foldl_cons, List.foldl_nil, hvalue]
        exact ⟨rfl, by omega⟩
  have hne : (hexadecimal n).isEmpty = false :=
    List.isEmpty_eq_false_iff.2 (Text.isWord_iff.1 (isWord_hexadecimal n)).1
  rw [readHexadecimal?, if_pos (by rw [hne, hdigits.1]; rfl), hdigits.2]

end CellCheck.Numeral
