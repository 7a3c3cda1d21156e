import CellCheck.Proofs.Analysis.History
import CellCheck.Proofs.Program.Blocks
import CellCheck.Report.Basic

/-!
# The order of a history

The history of a cell lists all claims on the cell in front of its uses, the claims and the uses in
the order of their lines. So the whole history is in that order unless a command uses the cell on a
line above a claim on it.
-/

namespace CellCheck

def Chronological (events : List Event) : Prop := events.Pairwise fun e f => e.line ≤ f.line

instance (events : List Event) : Decidable (Chronological events) :=
  inferInstanceAs (Decidable (events.Pairwise fun e f => e.line ≤ f.line))

def UsedAboveClaim (commands : List Placed) (c : Cell) : Prop :=
  ∃ p ∈ commands, usesOf commands c p ≠ [] ∧
    ∃ claim ∈ claimsIn commands c, p.position.line < claim.line

instance (commands : List Placed) (c : Cell) : Decidable (UsedAboveClaim commands c) :=
  inferInstanceAs (Decidable (∃ p ∈ commands, usesOf commands c p ≠ [] ∧
    ∃ claim ∈ claimsIn commands c, p.position.line < claim.line))

section Lines

variable {commands : List Placed} {c : Cell}

/-- What is made of numbered items on their own lines is in the order of the lines. -/
theorem pairwise_line_flatMap {ι α : Type} {items : List ι} {number : ι → Nat} {f : ι → List α}
    {line : α → Nat} (hitems : items.Pairwise fun i j => number i < number j)
    (hline : ∀ i ∈ items, ∀ a ∈ f i, line a = number i) :
    (items.flatMap f).Pairwise fun a b => line a ≤ line b := by
  refine List.pairwise_flatMap.2 ⟨fun i hi => ?_, ?_⟩
  · refine List.pairwise_of_forall_mem_list fun a ha b hb => ?_
    rw [hline i hi a ha, hline i hi b hb]
  · refine (List.Pairwise.and_mem.1 hitems).imp ?_
    rintro i j ⟨hi, hj, hlt⟩ a ha b hb
    rw [hline i hi a ha, hline j hj b hb]
    exact hlt.le

theorem line_of_mem_claimsOf {before : List Placed} {p : Placed} {claim : Claim}
    (h : claim ∈ claimsOf c before p) : claim.line = p.position.line := by
  obtain ⟨i, -, -, rfl⟩ | ⟨d, -, -, rfl⟩ := mem_claimsOf h
  · rfl
  · rfl

/-- Claims come in the order of their lines. -/
theorem claimsIn_lines (h : commands.Pairwise fun p q => p.position.line < q.position.line) :
    (claimsIn commands c).Pairwise fun a b => a.line ≤ b.line := by
  have hnumbered : commands.zipIdx.Pairwise fun x y => x.1.position.line < y.1.position.line := by
    rw [← List.zipIdx_map_fst 0 commands, List.pairwise_map] at h
    exact h
  exact pairwise_line_flatMap hnumbered fun x _ claim hclaim => line_of_mem_claimsOf hclaim

variable {use e : Event}

theorem eq_of_mem_targetUses {target : Target} (h : e ∈ targetUses c use target) : e = use := by
  cases target with
  | name n => cases h
  | _ =>
    rw [targetUses] at h
    split_ifs at h
    · exact List.mem_singleton.1 h
    · cases h

theorem eq_of_mem_operandUses {operand : Operand} (h : e ∈ operandUses c use operand) :
    e = use := by
  rw [operandUses] at h
  split_ifs at h
  · exact List.mem_singleton.1 h
  · cases h

theorem eq_of_mem_argumentUses {argument : Operand}
    (h : e ∈ argumentUses commands c use argument) : e = use := by
  unfold argumentUses at h
  split at h
  · split_ifs at h
    · exact List.mem_singleton.1 h
    · cases h
  · split at h
    · exact List.eq_of_mem_replicate h
    · cases h

/-- A use is an event on the line of its command. -/
theorem of_mem_usesOf {p : Placed} (h : e ∈ usesOf commands c p) :
    e.kind = .usage ∧ e.line = p.position.line := by
  obtain ⟨position, command⟩ := p
  cases command with
  | assign a =>
    rw [eq_of_mem_targetUses h]
    exact ⟨rfl, rfl⟩
  | move m =>
    rcases List.mem_append.1 h with hsource | hdestination
    · rw [eq_of_mem_operandUses hsource]
      exact ⟨rfl, rfl⟩
    · rw [eq_of_mem_operandUses hdestination]
      exact ⟨rfl, rfl⟩
  | call call =>
    change e ∈ callUses commands c position.line call at h
    unfold callUses at h
    split at h
    · obtain ⟨argument, -, hargument⟩ := List.mem_flatMap.1 h
      rw [eq_of_mem_argumentUses hargument]
      exact ⟨rfl, rfl⟩
    · cases h
  | _ => cases h

theorem filter_allocation_append :
    ((claimsIn commands c).map Claim.event ++ commands.flatMap (usesOf commands c)).filter
        (·.kind = .allocation) = (claimsIn commands c).map Claim.event := by
  rw [List.filter_append, List.filter_eq_self.2, List.filter_eq_nil_iff.2, List.append_nil]
  · intro e he
    obtain ⟨p, -, hp⟩ := List.mem_flatMap.1 he
    simp [(of_mem_usesOf hp).1]
  · intro e he
    obtain ⟨claim, -, rfl⟩ := List.mem_map.1 he
    rfl

theorem filter_usage_append :
    ((claimsIn commands c).map Claim.event ++ commands.flatMap (usesOf commands c)).filter
        (·.kind = .usage) = commands.flatMap (usesOf commands c) := by
  rw [List.filter_append, List.filter_eq_nil_iff.2, List.filter_eq_self.2, List.nil_append]
  · intro e he
    obtain ⟨p, -, hp⟩ := List.mem_flatMap.1 he
    simp [(of_mem_usesOf hp).1]
  · intro e he
    obtain ⟨claim, -, rfl⟩ := List.mem_map.1 he
    exact nofun

/-- Claims and uses that are each in order are in order together just if every use is on or below the
line of every claim. -/
theorem chronological_append_iff (hclaims : Chronological ((claimsIn commands c).map Claim.event))
    (huses : Chronological (commands.flatMap (usesOf commands c))) :
    Chronological ((claimsIn commands c).map Claim.event ++
        commands.flatMap (usesOf commands c)) ↔ ¬ UsedAboveClaim commands c := by
  rw [Chronological, List.pairwise_append]
  constructor
  · rintro ⟨-, -, hcross⟩ ⟨p, hp, hused, claim, hclaim, hlt⟩
    obtain ⟨e, he⟩ := List.exists_mem_of_ne_nil _ hused
    have hle := hcross claim.event (List.mem_map_of_mem hclaim) e (List.mem_flatMap.2 ⟨p, hp, he⟩)
    rw [(of_mem_usesOf he).2] at hle
    exact absurd hlt (Nat.not_lt.2 hle)
  · intro habove
    refine ⟨hclaims, huses, fun a ha b hb => ?_⟩
    obtain ⟨claim, hclaim, rfl⟩ := List.mem_map.1 ha
    obtain ⟨p, hp, hused⟩ := List.mem_flatMap.1 hb
    rw [(of_mem_usesOf hused).2]
    exact Nat.not_lt.1 fun hlt => habove ⟨p, hp, List.ne_nil_of_mem hused, claim, hclaim, hlt⟩

end Lines

namespace Report

variable {file : String} {source : Text} {p : Program}

theorem history_check (h : Program.ofText source = .ok p) {c : Cell} {events : List Event}
    (hevents : (c, events) ∈ (check file source).history) :
    events = (claimsIn p.flatten c).map Claim.event ++
      p.flatten.flatMap (usesOf p.flatten c) := by
  rw [check, h] at hevents
  rw [← CellLog.get_of_mem_toList hevents]
  exact Analysis.history_ofCommands p.flatten c

/-- In the history of a cell the claims stand in front of the uses, and either are in the order of
their lines. All events together are in that order just if no command uses the cell above a claim
on it. -/
theorem history_chronological_iff (h : Program.ofText source = .ok p) {c : Cell}
    {events : List Event} (hevents : (c, events) ∈ (check file source).history) :
    events = events.filter (·.kind = .allocation) ++ events.filter (·.kind = .usage) ∧
    Chronological (events.filter (·.kind = .allocation)) ∧
    Chronological (events.filter (·.kind = .usage)) ∧
    (Chronological events ↔ ¬ UsedAboveClaim p.flatten c) := by
  have hlines := Program.flatten_lines_increase h
  have hclaims : Chronological ((claimsIn p.flatten c).map Claim.event) :=
    List.pairwise_map.2 (claimsIn_lines hlines)
  have huses : Chronological (p.flatten.flatMap (usesOf p.flatten c)) :=
    pairwise_line_flatMap hlines fun _ _ _ he => (of_mem_usesOf he).2
  rw [history_check h hevents, filter_allocation_append, filter_usage_append]
  exact ⟨rfl, hclaims, huses, chronological_append_iff hclaims huses⟩

def usedAbove : Program where
  statements :=
    [.command ⟨0, 0⟩ (.assign ⟨.cell ⟨0⟩, .int 1⟩), .command ⟨1, 0⟩ (.var ⟨"a", [⟨0⟩], .int 1⟩),
      .command ⟨2, 0⟩ (.move ⟨.cell ⟨0⟩, .cell ⟨1⟩⟩)]

def usedAboveSource : Text := "SET C0 1\na (C0) = 1\nMOV C0 C1".toList

theorem ofText_usedAboveSource : Program.ofText usedAboveSource = .ok usedAbove := by
  decide +kernel

def eventsUsedAbove : List Event :=
  [⟨"a", 1, .allocation⟩, ⟨"SET_operation", 0, .usage⟩, ⟨"MOV_source", 2, .usage⟩]

theorem history_usedAbove : (check "m" usedAboveSource).history =
    [(⟨0⟩, eventsUsedAbove), (⟨1⟩, [⟨"MOV_target", 2, .usage⟩])] := by
  decide +kernel

theorem usedAbove_chronological_iff :
    Program.ofText usedAboveSource = .ok usedAbove ∧
      (⟨0⟩, eventsUsedAbove) ∈ (check "m" usedAboveSource).history ∧
      Chronological (eventsUsedAbove.filter (·.kind = .usage)) ∧
      (Chronological eventsUsedAbove ↔ ¬ UsedAboveClaim usedAbove.flatten ⟨0⟩) ∧
      (Chronological [⟨"MOV_target", 2, .usage⟩] ↔ ¬ UsedAboveClaim usedAbove.flatten ⟨1⟩) := by
  have hzero : (⟨0⟩, eventsUsedAbove) ∈ (check "m" usedAboveSource).history := by
    rw [history_usedAbove]
    exact List.mem_cons_self
  have hone : (⟨1⟩, [⟨"MOV_target", 2, .usage⟩]) ∈ (check "m" usedAboveSource).history := by
    rw [history_usedAbove]
    exact List.mem_cons_of_mem _ List.mem_cons_self
  obtain ⟨-, -, huses, hall⟩ := history_chronological_iff ofText_usedAboveSource hzero
  exact ⟨ofText_usedAboveSource, hzero, huses, hall,
    (history_chronological_iff ofText_usedAboveSource hone).2.2.2⟩

/-- The claim on the second line is shown before the assignment on the first. -/
theorem use_above_claim_is_out_of_order :
    (⟨0⟩, eventsUsedAbove) ∈ (check "m" usedAboveSource).history ∧
      ¬ Chronological eventsUsedAbove := by
  rw [history_usedAbove]
  exact ⟨List.mem_cons_self, by decide⟩

end Report

end CellCheck
