import CellCheck.Proofs.CellMap.Snapshot
import CellCheck.Proofs.FirstOccurrence

/-!
# Shared cells

A cell is shared if there are claims of different owners on it. It is listed with its owners, each
once and in the order of their first claims, and with its last claim.
-/

namespace CellCheck

def firstClaim (claims : List Claim) (owner : String) : Nat :=
  claims.findIdx fun claim => claim.owner == owner

/-- The owners of the claims, each once, in the order of their first claims. -/
structure OwnersOf (claims : List Claim) (owners : List String) : Prop where
  nodup : owners.Nodup
  mem_iff : ∀ owner, owner ∈ owners ↔ ∃ claim ∈ claims, claim.owner = owner
  in_order : owners.Pairwise fun a b => firstClaim claims a < firstClaim claims b

structure Shares (claims : List Claim) (shared : Shared) : Prop where
  several : ∃ a ∈ claims, ∃ b ∈ claims, a.owner ≠ b.owner
  owners : OwnersOf claims shared.owners
  latest : claims.getLast? = some shared.latest

namespace CellMap

theorem ownersOf_owners (claims : List Claim) : OwnersOf claims (owners claims) where
  nodup := nodup_eraseDups _
  mem_iff owner := List.mem_eraseDups.trans List.mem_map
  in_order := by
    have hfirst (owner : String) :
        (claims.map Claim.owner).idxOf owner = firstClaim claims owner :=
      List.findIdx_map claims Claim.owner _
    refine (pairwise_idxOf_eraseDups (claims.map Claim.owner)).imp fun hlt => ?_
    rwa [hfirst, hfirst] at hlt

theorem eq_owners {claims : List Claim} {names : List String} (h : OwnersOf claims names) :
    names = owners claims := by
  have howners := ownersOf_owners claims
  have hperm : names.Perm (owners claims) :=
    (List.perm_ext_iff_of_nodup h.nodup howners.nodup).2 fun owner =>
      (h.mem_iff owner).trans (howners.mem_iff owner).symm
  exact hperm.eq_of_pairwise (fun _ _ _ _ hlt hgt => absurd hlt (Nat.lt_asymm hgt))
    h.in_order howners.in_order

theorem two_le_length_owners_iff (claims : List Claim) :
    2 ≤ (owners claims).length ↔ ∃ a ∈ claims, ∃ b ∈ claims, a.owner ≠ b.owner := by
  rw [owners, two_le_length_eraseDups_iff]
  simp

theorem mem_shared_iff (m : CellMap) (s : Shared) :
    s ∈ m.shared ↔ Shares (m.claimsOn s.cell) s := by
  constructor
  · intro h
    obtain ⟨⟨c, claims⟩, hclaims, hs⟩ := List.mem_filterMap.1 h
    simp only [Option.ite_none_left_eq_some, Nat.not_lt] at hs
    obtain ⟨hseveral, hs⟩ := hs
    obtain ⟨latest, hlatest, rfl⟩ := Option.map_eq_some_iff.1 hs
    have hon : m.claimsOn c = claims := CellLog.get_of_mem_toList hclaims
    dsimp only
    rw [hon]
    exact ⟨(two_le_length_owners_iff claims).1 hseveral, ownersOf_owners claims, hlatest⟩
  · intro h
    obtain ⟨hseveral, howners, hlatest⟩ := h
    have hne : m.claims.get s.cell ≠ [] := by
      rintro hnil
      rw [claimsOn, hnil] at hlatest
      cases hlatest
    refine List.mem_filterMap.2 ⟨_, CellLog.mem_toList_of_get_ne_nil hne, ?_⟩
    simp only [Option.ite_none_left_eq_some, Nat.not_lt]
    refine ⟨(two_le_length_owners_iff _).2 hseveral, ?_⟩
    rw [claimsOn] at hlatest howners
    rw [hlatest, Option.map_some, ← eq_owners howners]

theorem shared_pairwise_lt (m : CellMap) :
    m.shared.Pairwise fun x y => x.cell.toNat < y.cell.toNat := by
  apply m.claims.filterMap_pairwise_lt
  intro entry s hs
  simp only [Option.ite_none_left_eq_some] at hs
  obtain ⟨latest, -, rfl⟩ := Option.map_eq_some_iff.1 hs.2
  rfl

end CellMap

end CellCheck
