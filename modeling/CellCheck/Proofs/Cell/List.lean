import CellCheck.Cell.List
import CellCheck.Proofs.Text
import CellCheck.Proofs.Traversal
import Mathlib.Data.List.Nodup

/-!
# Printed cell lists read back

Printing merges neighbours that count up by one into ranges, also across the ranges that the list
was written with. The printed list is read as the same list unless one of the merged ranges is
wider than a written range may be.
-/

namespace CellCheck

theorem Cell.isWord_toText (c : Cell) : Text.isWord c.toText :=
  Text.isWord_append (s := ['C']) (by decide) (Text.isWord_iff.1 (Text.isWord_decimal _)).2

theorem Cell.startsWith_toText (c : Cell) : Text.startsWith c.toText "C" :=
  Text.startsWith_iff.2 ⟨_, rfl⟩

namespace CellRange

def Ordered (r : CellRange) : Prop := r.first.toNat ≤ r.last.toNat

instance (r : CellRange) : Decidable r.Ordered :=
  inferInstanceAs (Decidable (r.first.toNat ≤ r.last.toNat))

theorem length_cells (r : CellRange) : r.cells.length = r.last.toNat + 1 - r.first.toNat := by
  rw [cells, List.length_map, List.length_range']

theorem length_cells_le_iff {r : CellRange} (h : r.Ordered) :
    r.cells.length ≤ maxWidth ↔ r.last.toNat - r.first.toNat < maxWidth := by
  rw [length_cells]
  unfold Ordered at h
  omega

theorem cells_single (c : Cell) : cells ⟨c, c⟩ = [c] := by
  rw [cells, Nat.add_sub_cancel_left]
  simp [List.range']

/-- A range gets longer by its first cell. -/
theorem cells_cons {c first last : Cell} (hfirst : c.toNat + 1 = first.toNat)
    (h : Ordered ⟨first, last⟩) : cells ⟨c, last⟩ = c :: cells ⟨first, last⟩ := by
  have hcount : last.toNat + 1 - c.toNat = last.toNat + 1 - first.toNat + 1 := by
    unfold Ordered at h
    dsimp only at h
    omega
  simp only [cells, hcount, List.range'_succ, List.map_cons, Cell.ofNat_toNat, hfirst]

/-- Two adjacent ranges make up one range. -/
theorem cells_append {first last next final : Cell} (hnext : last.toNat + 1 = next.toNat)
    (hordered : Ordered ⟨first, last⟩) (hordered' : Ordered ⟨next, final⟩) :
    cells ⟨first, last⟩ ++ cells ⟨next, final⟩ =
      cells ⟨first, final⟩ := by
  unfold Ordered at hordered hordered'
  dsimp only at hordered hordered'
  have hstart : next.toNat = first.toNat + 1 * (last.toNat + 1 - first.toNat) := by omega
  have hcount : last.toNat + 1 - first.toNat + (final.toNat + 1 - next.toNat) =
      final.toNat + 1 - first.toNat := by omega
  simp only [cells]
  rw [← List.map_append, ← hcount, ← List.range'_append, ← hstart]

theorem mem_cells_iff {r : CellRange} {c : Cell} :
    c ∈ r.cells ↔ r.first.toNat ≤ c.toNat ∧ c.toNat ≤ r.last.toNat := by
  simp only [cells, List.mem_map, List.mem_range'_1]
  constructor
  · rintro ⟨n, hn, rfl⟩
    have hlast := r.last.toNat_lt
    rw [Cell.toNat_ofNat (by omega)]
    omega
  · intro hc
    refine ⟨c.toNat, ?_, c.ofNat_toNat⟩
    omega

theorem nodup_cells (r : CellRange) : r.cells.Nodup := by
  refine List.Nodup.map_on ?_ List.nodup_range'
  intro m hm n hn h
  have hlast := r.last.toNat_lt
  rw [List.mem_range'_1] at hm hn
  have hnat := congrArg Cell.toNat h
  rwa [Cell.toNat_ofNat (by omega), Cell.toNat_ofNat (by omega)] at hnat

theorem cut?_toText (r : CellRange) :
    r.toText.cut? ".." = some (r.first.toText, r.last.toText) := by
  rw [toText, List.append_assoc]
  exact Text.cut?_append rfl (Text.not_mem_of_isWord r.first.isWord_toText (by decide))

theorem hasPart_toText (r : CellRange) : r.toText.hasPart ".." := by
  rw [Text.hasPart, cut?_toText]
  rfl

/-- A printed range is read as itself unless it is too wide to be written. -/
theorem ofText_toText {r : CellRange} (h : r.Ordered) :
    ofText r.toText =
      if maxWidth < r.cells.length then .error (.rangeTooWide (String.ofList r.toText))
      else .ok r := by
  have htrim (c : Cell) : c.toText.trim = c.toText :=
    (Text.tight_of_isWord c.isWord_toText).trim_eq
  have hpart : r.last.toText.hasPart ".." = false :=
    Text.hasPart_dots_of_isWord r.last.isWord_toText
  have hwide : maxWidth ≤ r.last.toNat - r.first.toNat ↔ maxWidth < r.cells.length := by
    rw [← Nat.not_lt, ← length_cells_le_iff h, Nat.not_le]
  simp only [ofText, cut?_toText, hpart, htrim, Cell.startsWith_toText, Cell.ofText?_toText,
    Nat.not_lt.2 h, hwide, Bool.and_self, Bool.not_true, Bool.false_eq_true, if_false]

/-- A range that was read is not inverted and not too wide. -/
theorem ordered_of_ofText {item : Text} {r : CellRange} (h : ofText item = .ok r) :
    r.Ordered ∧ r.last.toNat - r.first.toNat < maxWidth := by
  unfold ofText at h
  dsimp only at h
  split at h
  · cases h
  · split_ifs at h
    split at h
    · next first last _ _ =>
      split_ifs at h with hinverted hwide
      obtain rfl := Except.ok.inj h
      exact ⟨Nat.not_lt.1 hinverted, Nat.not_le.1 hwide⟩
    · cases h

end CellRange

namespace CellList

def CountsUp (cells : List Cell) : Prop :=
  cells.IsChain fun c next => next.toNat = c.toNat + 1

/-- Somewhere in the list more cells count up by one than a written range may cover. -/
def HasLongRun (cells : List Cell) : Prop :=
  ∃ run, run <:+: cells ∧ CountsUp run ∧ CellRange.maxWidth < run.length

section Runs

theorem follows_iff {c next : Cell} : follows c next ↔ c.toNat + 1 = next.toNat := by
  rw [follows, beq_iff_eq]

theorem ordered_of_mem_runs {cells : List Cell} {run : CellRange} (h : run ∈ runs cells) :
    run.Ordered := by
  induction cells generalizing run with
  | nil => cases h
  | cons c cells ih =>
    rw [runs_cons] at h
    cases hruns : runs cells with
    | nil =>
      rw [hruns] at h
      obtain rfl := List.mem_singleton.1 h
      exact Nat.le_refl _
    | cons first rest =>
      rw [hruns] at h ih
      rw [consRun] at h
      split_ifs at h with hfollows
      · rcases List.mem_cons.1 h with rfl | hrest
        · have hfirst : first.first.toNat ≤ first.last.toNat := ih List.mem_cons_self
          have := follows_iff.1 hfollows
          show c.toNat ≤ first.last.toNat
          omega
        · exact ih (List.mem_cons_of_mem _ hrest)
      · rcases List.mem_cons.1 h with rfl | hrest
        · exact Nat.le_refl _
        · exact ih hrest

/-- The runs are the list cut into ranges. -/
theorem flatMap_cells_runs (cells : List Cell) :
    (runs cells).flatMap CellRange.cells = cells := by
  induction cells with
  | nil => rfl
  | cons c cells ih =>
    rw [runs_cons]
    cases hruns : runs cells with
    | nil =>
      rw [hruns, List.flatMap_nil] at ih
      rw [consRun, List.flatMap_singleton, CellRange.cells_single, ← ih]
    | cons first rest =>
      rw [hruns, List.flatMap_cons] at ih
      have hordered : first.Ordered := ordered_of_mem_runs (hruns ▸ List.mem_cons_self)
      rw [consRun]
      split_ifs with hfollows
      · rw [List.flatMap_cons, CellRange.cells_cons (follows_iff.1 hfollows) hordered,
          List.cons_append, ih]
      · rw [List.flatMap_cons, List.flatMap_cons, CellRange.cells_single, ih, List.singleton_append]

theorem countsUp_cells (r : CellRange) : CountsUp r.cells := by
  refine List.isChain_iff_getElem.2 fun i hi => ?_
  rw [CellRange.length_cells] at hi
  have hlast := r.last.toNat_lt
  simp only [CellRange.cells, List.getElem_map, List.getElem_range']
  rw [Cell.toNat_ofNat (by omega), Cell.toNat_ofNat (by omega)]
  omega

/-- The first run starts with the first cell. -/
theorem exists_runs_cons (c : Cell) (cells : List Cell) :
    ∃ first rest, runs (c :: cells) = first :: rest ∧ first.first = c := by
  rw [runs_cons]
  cases runs cells with
  | nil => exact ⟨_, _, rfl, rfl⟩
  | cons first rest =>
    rw [consRun]
    split_ifs
    · exact ⟨_, _, rfl, rfl⟩
    · exact ⟨_, _, rfl, rfl⟩

/-- A beginning of the list that counts up lies within the first run. -/
theorem length_le_first_run {c : Cell} {run cells : List Cell} (hup : CountsUp (c :: run))
    (hfront : run <+: cells) {first : CellRange} {rest : List CellRange}
    (hruns : runs (c :: cells) = first :: rest) : (c :: run).length ≤ first.cells.length := by
  induction cells generalizing c run first rest with
  | nil =>
    obtain rfl := List.prefix_nil.1 hfront
    have hordered : first.Ordered := ordered_of_mem_runs (hruns ▸ List.mem_cons_self)
    rw [CellRange.length_cells, List.length_singleton]
    unfold CellRange.Ordered at hordered
    omega
  | cons d cells ih =>
    cases run with
    | nil =>
      have hordered : first.Ordered := ordered_of_mem_runs (hruns ▸ List.mem_cons_self)
      rw [CellRange.length_cells, List.length_singleton]
      unfold CellRange.Ordered at hordered
      omega
    | cons e run =>
      obtain ⟨rfl, hrun⟩ := List.cons_prefix_cons.1 hfront
      obtain ⟨hnext, hrest⟩ := List.isChain_cons_cons.1 hup
      obtain ⟨next, others, hnexts, hfirst⟩ := exists_runs_cons e cells
      have hlength := ih hrest hrun hnexts
      have hfollows : follows c next.first := by
        rw [follows_iff, hfirst, hnext]
      have hordered : next.Ordered := ordered_of_mem_runs (hnexts ▸ List.mem_cons_self)
      rw [runs_cons, hnexts, consRun, if_pos hfollows] at hruns
      obtain ⟨rfl, -⟩ := List.cons.inj hruns
      rw [CellRange.cells_cons (follows_iff.1 hfollows) hordered, List.length_cons,
        List.length_cons]
      exact Nat.succ_le_succ hlength

/-- A cell in front makes no run shorter. -/
theorem exists_longer_run {cells : List Cell} {run : CellRange} (c : Cell)
    (h : run ∈ runs cells) :
    ∃ longer ∈ runs (c :: cells), run.cells.length ≤ longer.cells.length := by
  rw [runs_cons]
  cases hruns : runs cells with
  | nil =>
    rw [hruns] at h
    cases h
  | cons first rest =>
    rw [hruns] at h
    rw [consRun]
    split_ifs with hfollows
    · rcases List.mem_cons.1 h with rfl | hrest
      · have hordered : run.Ordered := ordered_of_mem_runs (hruns ▸ List.mem_cons_self)
        refine ⟨⟨c, run.last⟩, List.mem_cons_self, ?_⟩
        rw [CellRange.cells_cons (follows_iff.1 hfollows) hordered, List.length_cons]
        exact Nat.le_succ _
      · exact ⟨run, List.mem_cons_of_mem _ hrest, Nat.le_refl _⟩
    · exact ⟨run, List.mem_cons_of_mem _ h, Nat.le_refl _⟩

/-- A part of the list that counts up lies within one run. -/
theorem exists_run_of_part {cells part : List Cell} (hinside : part <:+: cells)
    (hup : CountsUp part) (hne : part ≠ []) :
    ∃ run ∈ runs cells, part.length ≤ run.cells.length := by
  induction cells with
  | nil => exact absurd (List.infix_nil.1 hinside) hne
  | cons c cells ih =>
    rcases List.infix_cons_iff.1 hinside with hfront | hrest
    · obtain ⟨d, part, rfl⟩ := List.exists_cons_of_ne_nil hne
      obtain ⟨rfl, hpart⟩ := List.cons_prefix_cons.1 hfront
      obtain ⟨first, rest, hruns, -⟩ := exists_runs_cons d cells
      exact ⟨first, hruns ▸ List.mem_cons_self, length_le_first_run hup hpart hruns⟩
    · obtain ⟨run, hrun, hlength⟩ := ih hrest
      obtain ⟨longer, hlonger, hle⟩ := exists_longer_run c hrun
      exact ⟨longer, hlonger, hlength.trans hle⟩

theorem hasLongRun_iff {cells : List Cell} :
    HasLongRun cells ↔ ∃ run ∈ runs cells, CellRange.maxWidth < run.cells.length := by
  constructor
  · rintro ⟨part, hinside, hup, hlong⟩
    have hne : part ≠ [] := by
      rintro rfl
      exact absurd hlong (Nat.not_lt_zero _)
    obtain ⟨run, hrun, hlength⟩ := exists_run_of_part hinside hup hne
    exact ⟨run, hrun, Nat.lt_of_lt_of_le hlong hlength⟩
  · rintro ⟨run, hrun, hlong⟩
    refine ⟨run.cells, ?_, countsUp_cells run, hlong⟩
    have hinside := List.infix_of_mem_flatten (List.mem_map_of_mem (f := CellRange.cells) hrun)
    rwa [← List.flatMap_def, flatMap_cells_runs] at hinside

end Runs

section RoundTrip

theorem mem_runText {run : CellRange} {c : Char} (h : c ∈ runText run) :
    Text.isWordChar c ∨ c = '.' := by
  have hword (d : Cell) (hd : c ∈ d.toText) : Text.isWordChar c :=
    (Text.isWord_iff.1 d.isWord_toText).2 c hd
  unfold runText at h
  split_ifs at h
  · exact .inl (hword _ h)
  · rw [CellRange.toText, List.mem_append, List.mem_append] at h
    rcases h with (hfirst | hdots) | hlast
    · exact .inl (hword _ hfirst)
    · exact .inr (by simpa using hdots)
    · exact .inl (hword _ hlast)

theorem not_mem_runText {run : CellRange} {c : Char} (hword : Text.isWordChar c = false)
    (hdot : c ≠ '.') : c ∉ runText run := by
  intro h
  rcases mem_runText h with hc | hc
  · rw [hword] at hc
    cases hc
  · exact hdot hc

theorem tight_runText (run : CellRange) : Text.Tight (runText run) := by
  refine Text.tight_of_forall fun c hc => ?_
  rcases mem_runText hc with hword | rfl
  · exact Text.isBlank_of_isWordChar hword
  · decide

theorem readItem_runText {run : CellRange} (h : run.Ordered) :
    readItem (runText run) =
      if CellRange.maxWidth < run.cells.length then
        .error (.rangeTooWide (String.ofList run.toText))
      else .ok run.cells := by
  by_cases hsingle : run.first = run.last
  · obtain ⟨first, last⟩ := run
    obtain rfl : first = last := hsingle
    have hpart : first.toText.hasPart ".." = false :=
      Text.hasPart_dots_of_isWord first.isWord_toText
    have hshort : ¬ CellRange.maxWidth < [first].length := by
      rw [List.length_singleton]
      decide
    rw [runText, if_pos rfl, CellRange.cells_single, if_neg hshort]
    simp only [readItem, hpart, first.startsWith_toText, Cell.ofText?_toText, Bool.not_true,
      Bool.false_eq_true, if_false]
  · rw [runText, if_neg hsingle, readItem, if_pos run.hasPart_toText, CellRange.ofText_toText h]
    split_ifs <;> rfl

theorem items_toText {cells : List Cell} (h : cells ≠ []) :
    ((toText cells).splitOn ',').map Text.trim = (runs cells).map runText := by
  apply Text.map_trim_splitOn_commaSeparated
  · obtain ⟨c, cells, rfl⟩ := List.exists_cons_of_ne_nil h
    obtain ⟨first, rest, hruns, -⟩ := exists_runs_cons c cells
    simp [hruns]
  · intro item hitem
    obtain ⟨run, -, rfl⟩ := List.mem_map.1 hitem
    exact not_mem_runText (by decide) (by decide)
  · intro item hitem
    obtain ⟨run, -, rfl⟩ := List.mem_map.1 hitem
    exact tight_runText run

/-- Items that are ranges of the permitted width are read as their cells. -/
theorem ofText_of_items {s : Text} {ranges : List CellRange}
    (hitems : (s.splitOn ',').map Text.trim = ranges.map runText)
    (hranges : ∀ r ∈ ranges, r.Ordered ∧ r.cells.length ≤ CellRange.maxWidth) :
    ofText s = .ok (ranges.flatMap CellRange.cells) := by
  have hread : ∀ r ∈ ranges, readItem (runText r) = .ok r.cells := by
    intro r hr
    obtain ⟨hordered, hwidth⟩ := hranges r hr
    rw [readItem_runText hordered, if_neg (Nat.not_lt.2 hwidth)]
  have hmap : (ranges.map runText).mapM readItem = .ok (ranges.map CellRange.cells) := by
    rw [List.mapM_map]
    exact mapM_eq_ok hread
  rw [ofText, hitems, hmap, List.flatMap_def]
  rfl

/-- A printed list is read as itself if none of its merged ranges is too wide. -/
theorem ofText_toText {cells : List Cell} (hne : cells ≠ []) (hshort : ¬ HasLongRun cells) :
    ofText (toText cells) = .ok cells := by
  rw [ofText_of_items (items_toText hne), flatMap_cells_runs]
  intro run hrun
  refine ⟨ordered_of_mem_runs hrun, Nat.not_lt.1 fun hlong => hshort ?_⟩
  exact hasLongRun_iff.2 ⟨run, hrun, hlong⟩

/-- A printed list with a range that is too wide is rejected for such a range. -/
theorem exists_ofText_toText_eq_error {cells : List Cell} (hne : cells ≠ [])
    (hlong : HasLongRun cells) :
    ∃ run ∈ runs cells, CellRange.maxWidth < run.cells.length ∧
      ofText (toText cells) = .error (.rangeTooWide (String.ofList run.toText)) := by
  obtain ⟨wide, hwide, hwidth⟩ := hasLongRun_iff.1 hlong
  have hread : readItem (runText wide) = .error (.rangeTooWide (String.ofList wide.toText)) := by
    rw [readItem_runText (ordered_of_mem_runs hwide), if_pos hwidth]
  obtain ⟨e, he⟩ := exists_mapM_eq_error (List.mem_map_of_mem hwide) hread
  obtain ⟨item, hitem, hitem'⟩ := exists_eq_error_of_mapM he
  obtain ⟨run, hrun, rfl⟩ := List.mem_map.1 hitem
  rw [readItem_runText (ordered_of_mem_runs hrun)] at hitem'
  split_ifs at hitem' with hrunWidth
  obtain rfl := Except.error.inj hitem'
  refine ⟨run, hrun, hrunWidth, ?_⟩
  rw [ofText, items_toText hne, he]
  rfl

theorem mem_toText {cells : List Cell} {c : Char} (h : c ∈ toText cells) :
    Text.isWordChar c ∨ c = '.' ∨ c = ',' ∨ c = ' ' := by
  rcases Text.mem_commaSeparated h with rfl | rfl | ⟨item, hitem, hc⟩
  · exact .inr (.inr (.inl rfl))
  · exact .inr (.inr (.inr rfl))
  · obtain ⟨run, -, rfl⟩ := List.mem_map.1 hitem
    exact (mem_runText hc).imp_right .inl

theorem exists_toText_eq_cons {cells : List Cell} (h : cells ≠ []) :
    ∃ tail, toText cells = 'C' :: tail := by
  obtain ⟨c, cells, rfl⟩ := List.exists_cons_of_ne_nil h
  obtain ⟨first, rest, hruns, -⟩ := exists_runs_cons c cells
  obtain ⟨tail, htail⟩ : ∃ tail, runText first = 'C' :: tail := by
    rw [runText]
    split_ifs
    · exact ⟨_, rfl⟩
    · exact ⟨_, rfl⟩
  rw [toText, hruns, List.map_cons, Text.commaSeparated_cons, htail]
  exact ⟨_, rfl⟩

end RoundTrip

section Reading

theorem ne_nil_of_readItem {item : Text} {cells : List Cell} (h : readItem item = .ok cells) :
    cells ≠ [] := by
  unfold readItem at h
  split_ifs at h
  · cases hrange : CellRange.ofText item with
    | error e =>
      rw [hrange] at h
      cases h
    | ok r =>
      rw [hrange] at h
      obtain rfl := Except.ok.inj h
      obtain ⟨hordered, -⟩ := CellRange.ordered_of_ofText hrange
      have hlength := r.length_cells
      unfold CellRange.Ordered at hordered
      rintro hnil
      rw [hnil, List.length_nil] at hlength
      omega
  · split at h
    · obtain rfl := Except.ok.inj h
      exact List.cons_ne_nil _ _
    · cases h

/-- A list that was read is not empty. -/
theorem ne_nil_of_ofText {s : Text} {cells : List Cell} (h : ofText s = .ok cells) :
    cells ≠ [] := by
  unfold ofText at h
  cases hitems : ((s.splitOn ',').map Text.trim).mapM readItem with
  | error e =>
    rw [hitems] at h
    cases h
  | ok parts =>
    rw [hitems] at h
    obtain rfl := Except.ok.inj h
    obtain ⟨piece, pieces, hsplit⟩ := List.exists_cons_of_ne_nil (List.splitOn_ne_nil ',' s)
    rw [hsplit, List.map_cons] at hitems
    obtain ⟨part, hpart, hread⟩ :=
      exists_of_mem_left (mapM_eq_ok_iff.1 hitems) List.mem_cons_self
    intro hnil
    exact ne_nil_of_readItem hread (List.flatten_eq_nil_iff.1 hnil part hpart)

end Reading

section ReadBack

/-- A list that was read is printed as a text that is read as the same list, just if no more of its
cells count up by one than a written range may cover. Else the printed list is rejected for a range
that its items were merged into. -/
theorem printed_list_reads_back_iff {s : Text} {cells : List Cell} (h : ofText s = .ok cells) :
    (ofText (toText cells) = .ok cells ↔ ¬ HasLongRun cells) ∧
      (HasLongRun cells → ∃ run ∈ runs cells, CellRange.maxWidth < run.cells.length ∧
        ofText (toText cells) = .error (.rangeTooWide (String.ofList run.toText))) := by
  have hne := ne_nil_of_ofText h
  refine ⟨⟨fun hread hlong => ?_, ofText_toText hne⟩, exists_ofText_toText_eq_error hne⟩
  obtain ⟨run, -, -, herror⟩ := exists_ofText_toText_eq_error hne hlong
  rw [hread] at herror
  cases herror

def mixed : List Cell :=
  [⟨4294967294⟩, ⟨4294967295⟩, ⟨0⟩, ⟨0⟩, ⟨7⟩, ⟨8⟩, ⟨9⟩, ⟨8⟩, ⟨9⟩, ⟨10⟩]

theorem printed_mixed_reads_back_iff :
    ofText "C4294967294..C4294967295, C0,C0, C7 .. C9 , C8..C9, C10".toList = .ok mixed ∧
      (ofText (toText mixed) = .ok mixed ↔ ¬ HasLongRun mixed) ∧
      (HasLongRun mixed → ∃ run ∈ runs mixed, CellRange.maxWidth < run.cells.length ∧
        ofText (toText mixed) = .error (.rangeTooWide (String.ofList run.toText))) := by
  have h : ofText "C4294967294..C4294967295, C0,C0, C7 .. C9 , C8..C9, C10".toList = .ok mixed := by
    decide +kernel
  exact ⟨h, printed_list_reads_back_iff h⟩

def overlong : CellRange := ⟨⟨0⟩, ⟨65536⟩⟩

theorem hasLongRun_overlong : HasLongRun overlong.cells := by
  refine ⟨overlong.cells, List.infix_rfl, countsUp_cells overlong, ?_⟩
  rw [CellRange.length_cells]
  decide

/-- Adjacent items that may be written are merged into a range that may not. -/
theorem adjacent_items_do_not_read_back :
    ofText "C0..C65535, C65536".toList = .ok overlong.cells ∧
      ofText (toText overlong.cells) ≠ .ok overlong.cells := by
  have hitems : ("C0..C65535, C65536".toList.splitOn ',').map Text.trim =
      [⟨⟨0⟩, ⟨65535⟩⟩, ⟨⟨65536⟩, ⟨65536⟩⟩].map runText := by
    decide +kernel
  have hranges : ∀ r ∈ [(⟨⟨0⟩, ⟨65535⟩⟩ : CellRange), ⟨⟨65536⟩, ⟨65536⟩⟩],
      r.Ordered ∧ r.cells.length ≤ CellRange.maxWidth := by
    simp only [CellRange.length_cells]
    decide
  have hjoined : [(⟨⟨0⟩, ⟨65535⟩⟩ : CellRange), ⟨⟨65536⟩, ⟨65536⟩⟩].flatMap CellRange.cells =
      overlong.cells := by
    rw [List.flatMap_cons, List.flatMap_singleton]
    exact CellRange.cells_append (by decide) (by decide) (by decide)
  have hread : ofText "C0..C65535, C65536".toList = .ok overlong.cells := by
    rw [ofText_of_items hitems hranges, hjoined]
  refine ⟨hread, fun hsame => ?_⟩
  obtain ⟨run, -, -, herror⟩ :=
    exists_ofText_toText_eq_error (ne_nil_of_ofText hread) hasLongRun_overlong
  rw [hsame] at herror
  cases herror

end ReadBack

end CellList

end CellCheck
