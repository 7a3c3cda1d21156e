import CellCheck.CellMap.Basic

/-!
# The views of a cell map

A log lists its cells in strictly ascending order. The snapshot shows the last claim of every
claimed cell and nothing else.
-/

namespace CellCheck

theorem Cell.compare_eq_lt_iff {c d : Cell} : compare c d = .lt ↔ c.toNat < d.toNat := by
  change compareOfLessAndEq c.number d.number = .lt ↔ c.number.toNat < d.number.toNat
  rw [compareOfLessAndEq_eq_lt]
  exact UInt32.lt_iff_toNat_lt

namespace CellLog

variable {α : Type}

theorem toList_pairwise_lt (log : CellLog α) :
    log.toList.Pairwise fun x y => x.1.toNat < y.1.toNat := by
  rw [toList, List.pairwise_map]
  exact log.entries.ordered_keys_toList.imp fun h => Cell.compare_eq_lt_iff.1 h

/-- What is made of the entries of a log keeps their order if it tells its cell. -/
theorem filterMap_pairwise_lt {β : Type} {cell : β → Cell} (log : CellLog α)
    {f : Cell × List α → Option β} (hcell : ∀ entry b, f entry = some b → cell b = entry.1) :
    (log.toList.filterMap f).Pairwise fun x y => (cell x).toNat < (cell y).toNat := by
  apply List.Pairwise.filterMap f _ log.toList_pairwise_lt
  intro x y hlt b hb b' hb'
  rwa [hcell x b hb, hcell y b' hb']

theorem get_of_mem_toList {log : CellLog α} {c : Cell} {as : List α}
    (h : (c, as) ∈ log.toList) : log.get c = as := by
  obtain ⟨⟨d, recorded⟩, hentry, he⟩ := List.mem_map.1 h
  obtain ⟨rfl, rfl⟩ := Prod.mk.inj he
  rw [get, Std.TreeMap.mem_toList_iff_getElem?_eq_some.1 hentry, Option.getD_some]

theorem mem_toList_of_get_ne_nil {log : CellLog α} {c : Cell} (h : log.get c ≠ []) :
    (c, log.get c) ∈ log.toList := by
  cases he : log.entries[c]? with
  | none => exact absurd (by simp [get, he]) h
  | some recorded =>
    have hentry := Std.TreeMap.mem_toList_iff_getElem?_eq_some.2 he
    exact List.mem_map.2 ⟨(c, recorded), hentry, by simp [get, he]⟩

end CellLog

namespace CellMap

theorem mem_snapshot_iff (m : CellMap) (info : CellInfo) :
    info ∈ m.snapshot ↔ ∃ latest, (m.claimsOn info.cell).getLast? = some latest ∧
      info = ⟨info.cell, latest.owner, latest.kind, latest.size⟩ := by
  constructor
  · intro h
    obtain ⟨⟨c, claims⟩, hclaims, hinfo⟩ := List.mem_filterMap.1 h
    obtain ⟨latest, hlatest, rfl⟩ := Option.map_eq_some_iff.1 hinfo
    refine ⟨latest, ?_, rfl⟩
    rw [← hlatest]
    exact congrArg List.getLast? (CellLog.get_of_mem_toList hclaims)
  · rintro ⟨latest, hlatest, hinfo⟩
    have hne : m.claims.get info.cell ≠ [] := by
      intro hnil
      rw [claimsOn, hnil] at hlatest
      cases hlatest
    refine List.mem_filterMap.2 ⟨_, CellLog.mem_toList_of_get_ne_nil hne, ?_⟩
    rw [claimsOn] at hlatest
    simp only [hlatest, Option.map_some]
    rw [← hinfo]

theorem snapshot_pairwise_lt (m : CellMap) :
    m.snapshot.Pairwise fun x y => x.cell.toNat < y.cell.toNat := by
  apply m.claims.filterMap_pairwise_lt
  intro entry info hinfo
  obtain ⟨latest, -, rfl⟩ := Option.map_eq_some_iff.1 hinfo
  rfl

end CellMap

end CellCheck
