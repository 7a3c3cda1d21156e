import CellCheck.Proofs.Literal.Content
import CellCheck.Proofs.Program.RoundTrip

/-!
# What every parsed program satisfies

Loops nest at most once, names are words, cell lists are not empty and ranges are narrow. The texts
in the values can stand in a line of code, and a free or raw text is what it is read as.
-/

namespace CellCheck

/-- A value that is its own source form. -/
structure Value.Verbatim (content : String) (v : Value) : Prop where
  ne_nil : content.toList ≠ []
  trim_eq : Text.trim content.toList = content.toList
  plain : Text.IsPlain content.toList
  ofText_eq : ofText content.toList = v

/-- The texts and numbers in the value are such as a line of code can hold. -/
def Value.Clean : Value → Prop
  | int _ => True
  | hex _ => True
  | reference target => Text.isWord target.toList
  | object fields =>
    fields.names.Nodup ∧
      (∀ s ∈ Literal.fieldTexts fields.entries, Text.IsPlain s.toList ∧ '"' ∉ s.toList) ∧
      ∀ x ∈ Literal.fieldNumbers fields.entries, x ≠ .nan
  | array items =>
    (∀ s ∈ Literal.textsOf items, Text.IsPlain s.toList ∧ '"' ∉ s.toList) ∧
      ∀ x ∈ Literal.numbersOf items, x ≠ .nan
  | text content => Verbatim content (text content)
  | raw content => Verbatim content (raw content)

def Command.value? : Command → Option Value
  | param p => p.value
  | var v => some v.value
  | assign a => some a.value
  | init _ => none
  | move _ => none
  | call _ => none

theorem Value.verbatim_ofList {form : Text} {v : Value} (htight : Text.Tight form)
    (hne : form ≠ []) (hplain : Text.IsPlain form) (hread : ofText form = v) :
    Verbatim (String.ofList form) v := by
  have hcontent : (String.ofList form).toList = form := String.toList_ofList
  rw [← hcontent] at htight hne hplain hread
  exact ⟨hne, htight.trim_eq, hplain, hread⟩

theorem Value.WellFormed.clean {v : Value} (h : v.WellFormed) : v.Clean := by
  obtain ⟨form, htight, hne, hplain, horigin⟩ := h
  have hread := horigin.ofText_toText htight
  cases horigin with
  | int n => trivial
  | hex n => trivial
  | reference hword => exact hword
  | object hfields =>
    refine ⟨NameTable.nodup _, fun s hs => ?_, Literal.ne_nan_of_objectOfText hfields⟩
    have hmem {c : Char} (hc : c ∈ s.toList) := Literal.mem_of_objectOfText hfields hs hc
    exact ⟨fun c hc => hplain c (hmem hc).1, fun hquote => (hmem hquote).2 rfl⟩
  | array hitems =>
    refine ⟨fun s hs => ?_, Literal.ne_nan_of_arrayOfText hitems⟩
    have hmem {c : Char} (hc : c ∈ s.toList) := Literal.mem_of_arrayOfText hitems hs hc
    exact ⟨fun c hc => hplain c (hmem hc).1, fun hquote => (hmem hquote).2 rfl⟩
  | raw hstarts hform =>
    rw [toText, String.toList_ofList] at hread
    exact verbatim_ofList htight hne hplain hread
  | text hstarts =>
    rw [toText, String.toList_ofList] at hread
    exact verbatim_ofList htight hne hplain hread

theorem Command.WellFormed.wellFormed_value {c : Command} (h : c.WellFormed) {v : Value}
    (hv : v ∈ c.value?) : v.WellFormed := by
  cases c with
  | param p => exact h.value v hv
  | var declared =>
    obtain rfl := Option.some.inj hv
    exact h.value
  | assign a =>
    obtain rfl := Option.some.inj hv
    exact h.2
  | init i => cases hv
  | move m => cases hv
  | call call => cases hv

namespace Program

/-- A program that was read is well formed, and so are all values in it. -/
theorem parsed_program_wellFormed {source : Text} {p : Program} (h : ofText source = .ok p) :
    (∀ s ∈ p.statements, s.WellFormed) ∧
      ∀ placed ∈ p.flatten, ∀ v ∈ placed.command.value?, v.Clean := by
  have hformed := wellFormed_of_ofText h
  refine ⟨hformed, fun placed hplaced v hv => ?_⟩
  obtain ⟨s, hs, hmem⟩ := mem_flattenAll.1 hplaced
  obtain ⟨hcommand, -⟩ := toText_mem_toLines (hformed s hs) hmem
  exact (hcommand.wellFormed_value hv).clean

def everyKind : Program where
  statements :=
    [.command ⟨0, 0⟩ (.init ⟨"SYS_OUT", ⟨0⟩, 2⟩),
      .command ⟨1, 0⟩ (.param ⟨"list", [⟨1⟩, ⟨2⟩], .struct, some 2,
        some (.object ⟨[("k", .array [.number (.infinite true), .text "x y"])], by decide⟩)⟩),
      .loop ⟨2, 0⟩
        [.command ⟨3, 0⟩ (.var ⟨"v", [⟨3⟩], .raw "0xZ"⟩), .loop ⟨4, 0⟩ [],
          .command ⟨5, 0⟩ (.assign ⟨.range ⟨⟨4⟩, ⟨6⟩⟩, .reference "v"⟩)],
      .command ⟨8, 0⟩ (.move ⟨.name "v", .cell ⟨7⟩⟩),
      .command ⟨9, 0⟩ (.assign ⟨.name "v", .text "free text"⟩),
      .command ⟨10, 0⟩ (.call ⟨"SYS_OUT", [.cell ⟨1⟩, .name "v"]⟩)]

def everyKindSource : Text :=
  ["INIT SYS_OUT AT C0 WITH 2",
    "PARAM list (C1..C2): STRUCT[2] = \x7bk: 1, \"k\": [-1e999, \"x y\"]\x7d",
    "while: # outer",
    "v (C3) = 0xZ",
    "while:",
    "SET C4..C6 & v",
    "endwhile",
    "endwhile",
    "MOV v C7",
    "SET v  free text # rest",
    "SYS_OUT(C1, v)"].flatMap fun line => line.toList ++ ['\n']

theorem parsed_everyKind_wellFormed :
    ofText everyKindSource = .ok everyKind ∧ (∀ s ∈ everyKind.statements, s.WellFormed) ∧
      ∀ placed ∈ everyKind.flatten, ∀ v ∈ placed.command.value?, v.Clean := by
  have h : ofText everyKindSource = .ok everyKind := by decide +kernel
  exact ⟨h, parsed_program_wellFormed h⟩

end Program

end CellCheck
