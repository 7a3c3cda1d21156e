import CellCheck.Proofs.Statement.WellFormed
import CellCheck.Proofs.Value.Forms

/-!
# Names in commands

Every name in a command is a part of the code that the command was read from.
-/

namespace CellCheck

def Operand.name? : Operand → Option String
  | cell _ => none
  | name n => some n

def Target.name? : Target → Option String
  | name n => some n
  | cell _ => none
  | range _ => none

def Command.names : Command → List String
  | init i => [i.syscall]
  | param p => [p.name]
  | var v => [v.name]
  | assign a => a.target.name?.toList ++ a.value.reference?.toList
  | move m => m.source.name?.toList ++ m.destination.name?.toList
  | call c => c.syscall :: c.arguments.filterMap Operand.name?

variable {s code : Text} {name : String}

theorem Value.infix_of_reference? (h : name ∈ (ofText s).reference?) : name.toList <:+: s := by
  have hmeans := means_ofText s
  cases hv : ofText s with
  | reference target =>
    rw [hv] at h hmeans
    obtain rfl := Option.some.inj h
    obtain ⟨blanks, hform, -⟩ := hmeans
    have hrest : target.toList <:+ s.trim := by
      rw [hform]
      exact (List.suffix_append _ _).trans (List.suffix_cons _ _)
    exact hrest.isInfix.trans (Text.infix_trim s)
  | _ =>
    rw [hv] at h
    cases h

theorem Operand.WrittenAs.infix_of_name? {o : Operand} (h : o.WrittenAs s)
    (hname : name ∈ o.name?) : name.toList <:+: s := by
  cases o with
  | cell c => cases hname
  | name n =>
    obtain rfl := Option.some.inj hname
    exact h.1 ▸ List.infix_rfl

theorem Target.WrittenAs.infix_of_name? {t : Target} (h : t.WrittenAs s)
    (hname : name ∈ t.name?) : name.toList <:+: s := by
  cases t with
  | cell c => cases hname
  | range r => cases hname
  | name n =>
    obtain rfl := Option.some.inj hname
    exact h.1 ▸ List.infix_rfl

theorem Assign.WrittenAs.infix_of_mem_names {a : Assign} (h : a.WrittenAs code)
    (hname : name ∈ (Command.assign a).names) : name.toList <:+: code := by
  obtain ⟨target, value, rfl, -, htarget, hvalue⟩ := h
  rcases List.mem_append.1 hname with hmem | hmem
  · exact (htarget.infix_of_name? (Option.mem_toList.1 hmem)).trans (List.infix_append' _ _ _)
  · have hreference := Option.mem_toList.1 hmem
    rw [hvalue] at hreference
    have hrest : value <:+ target ++ ' ' :: value :=
      (List.suffix_cons _ _).trans (List.suffix_append _ _)
    exact (Value.infix_of_reference? hreference).trans
      (hrest.trans (List.suffix_append _ _)).isInfix

theorem Move.WrittenAs.infix_of_mem_names {m : Move} (h : m.WrittenAs code)
    (hname : name ∈ (Command.move m).names) : name.toList <:+: code := by
  obtain ⟨source, destination, rfl, hsource, hdestination⟩ := h
  rcases List.mem_append.1 hname with hmem | hmem
  · exact (hsource.infix_of_name? (Option.mem_toList.1 hmem)).trans (List.infix_append' _ _ _)
  · have hrest : destination <:+ source ++ ' ' :: destination :=
      (List.suffix_cons _ _).trans (List.suffix_append _ _)
    exact (hdestination.infix_of_name? (Option.mem_toList.1 hmem)).trans
      (hrest.trans (List.suffix_append _ _)).isInfix

theorem Call.WrittenAs.infix_of_mem_names {c : Call} (h : c.WrittenAs code)
    (hname : name ∈ (Command.call c).names) : name.toList <:+: code := by
  obtain ⟨arguments, rfl, -, harguments⟩ := h
  rcases List.mem_cons.1 hname with rfl | hmem
  · exact (List.prefix_append _ _).isInfix
  obtain ⟨argument, hargument, hargumentName⟩ := List.mem_filterMap.1 hmem
  rcases harguments with ⟨-, hnil⟩ | hitems
  · rw [hnil] at hargument
    cases hargument
  · obtain ⟨item, hitem, hwritten⟩ := exists_of_mem_right hitems hargument
    obtain ⟨piece, hpiece, rfl⟩ := List.mem_map.1 hitem
    have hpart : piece.trim <:+: arguments :=
      (Text.infix_trim piece).trans (Text.infix_of_mem_splitOn hpiece)
    have hrest : arguments <:+: c.syscall.toList ++ '(' :: (arguments ++ [')']) :=
      ((List.prefix_append _ _).isInfix.trans (List.suffix_cons _ _).isInfix).trans
        (List.suffix_append _ _).isInfix
    exact ((Operand.WrittenAs.infix_of_name? hwritten hargumentName).trans hpart).trans hrest

/-- The names in a command stand in the code that the command was read from. -/
theorem Line.infix_of_ofCode {c : Command} (h : ofCode code = .ok (.command c))
    (hname : name ∈ c.names) : name.toList <:+: code := by
  cases ofCode_eq_command_iff_writtenAs.1 h with
  | init hwritten =>
    obtain rfl := List.mem_singleton.1 hname
    obtain ⟨cell, count, rfl, -⟩ := hwritten
    exact List.infix_append' _ _ _
  | param hwritten =>
    obtain rfl := List.mem_singleton.1 hname
    rw [← hwritten.name]
    exact List.infix_append' _ _ _
  | var _ _ hwritten =>
    obtain rfl := List.mem_singleton.1 hname
    rw [← hwritten.name]
    exact (List.prefix_append _ _).isInfix
  | assign hwritten => exact hwritten.infix_of_mem_names hname
  | move hwritten => exact hwritten.infix_of_mem_names hname
  | call hwritten => exact hwritten.infix_of_mem_names hname

end CellCheck
