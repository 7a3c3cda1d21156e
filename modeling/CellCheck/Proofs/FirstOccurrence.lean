import Mathlib.Data.List.Basic
import Mathlib.Data.List.Induction

/-!
# First occurrences

A list without its repetitions keeps every element at the place where it first occurs.
-/

namespace CellCheck

variable {α : Type} [DecidableEq α]

theorem eraseDups_snoc (items : List α) (a : α) :
    (items ++ [a]).eraseDups = if a ∈ items then items.eraseDups else items.eraseDups ++ [a] := by
  rw [List.eraseDups_append]
  by_cases h : a ∈ items
  · have hnone : [a].removeAll items = [] := by simpa [List.removeAll] using h
    rw [if_pos h, hnone, List.eraseDups_nil, List.append_nil]
  · have hsome : [a].removeAll items = [a] := by simpa [List.removeAll] using h
    rw [if_neg h, hsome, List.eraseDups_cons]
    rfl

theorem nodup_eraseDups (items : List α) : items.eraseDups.Nodup := by
  induction items using List.reverseRecOn with
  | nil => exact List.nodup_nil
  | append_singleton items a ih =>
    rw [eraseDups_snoc]
    split_ifs with h
    · exact ih
    · rw [List.nodup_append]
      refine ⟨ih, List.pairwise_singleton _ a, fun b hb c hc => ?_⟩
      obtain rfl := List.mem_singleton.1 hc
      rintro rfl
      exact h (List.mem_eraseDups.1 hb)

theorem pairwise_idxOf_eraseDups (items : List α) :
    items.eraseDups.Pairwise fun a b => items.idxOf a < items.idxOf b := by
  induction items using List.reverseRecOn with
  | nil => exact List.Pairwise.nil
  | append_singleton items a ih =>
    have hold (b : α) (hb : b ∈ items) : (items ++ [a]).idxOf b = items.idxOf b := by
      rw [List.idxOf_append, if_pos hb]
    have hbefore : items.eraseDups.Pairwise fun b c =>
        (items ++ [a]).idxOf b < (items ++ [a]).idxOf c := by
      refine ih.imp_of_mem fun {b c} hb hc hlt => ?_
      rwa [hold b (List.mem_eraseDups.1 hb), hold c (List.mem_eraseDups.1 hc)]
    rw [eraseDups_snoc]
    split_ifs with h
    · exact hbefore
    · rw [List.pairwise_append]
      refine ⟨hbefore, List.pairwise_singleton _ _, fun b hb c hc => ?_⟩
      obtain rfl := List.mem_singleton.1 hc
      have hmem := List.mem_eraseDups.1 hb
      -- the new element stands behind all others
      rw [hold b hmem, List.idxOf_append, if_neg h]
      exact Nat.lt_of_lt_of_le (List.idxOf_lt_length_of_mem hmem) (Nat.le_add_left _ _)

theorem two_le_length_eraseDups_iff (items : List α) :
    2 ≤ items.eraseDups.length ↔ ∃ a ∈ items, ∃ b ∈ items, a ≠ b := by
  have hnodup := nodup_eraseDups items
  simp only [← List.mem_eraseDups (l := items)]
  match items.eraseDups, hnodup with
  | [], _ => simp
  | [a], _ => simp
  | a :: b :: rest, hnodup =>
    have hne : a ≠ b := by
      rintro rfl
      exact (List.nodup_cons.1 hnodup).1 List.mem_cons_self
    simp only [List.length_cons, Nat.le_add_left, true_iff]
    exact ⟨a, List.mem_cons_self, b, List.mem_cons_of_mem _ List.mem_cons_self, hne⟩

end CellCheck
