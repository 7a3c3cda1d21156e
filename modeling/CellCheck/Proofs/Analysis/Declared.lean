import CellCheck.Analysis.Basic
import CellCheck.Proofs.NameTable
import Mathlib.Data.List.Basic
import Mathlib.Data.List.Induction

/-!
# What the commands declare

The first declaration of a name, the last `INIT` of a syscall and the claims on a cell are read off
the commands of a program, where each command is seen together with the commands before it. The
tables hold exactly these after any run of declarations.
-/

namespace CellCheck

def Command.declaredName? : Command → Option String
  | .param p => some p.name
  | .var v => some v.name
  | _ => none

def Declares (commands : List Placed) (name : String) : Prop :=
  ∃ p ∈ commands, p.command.declaredName? = some name

instance (commands : List Placed) (name : String) : Decidable (Declares commands name) :=
  inferInstanceAs (Decidable (∃ p ∈ commands, p.command.declaredName? = some name))

/-- What each command makes of the commands before it, in program order. -/
def inProgramOrder {α : Type} (f : List Placed → Placed → List α) (commands : List Placed) :
    List α :=
  commands.zipIdx.flatMap fun (p, i) => f (commands.take i) p

def firstDeclaration? (before : List Placed) (p : Placed) : Option Declaration :=
  match p.command with
  | .param q =>
    if Declares before q.name then none else some ⟨q.name, q.cells, .data q.kind, p.position⟩
  | .var v =>
    if Declares before v.name then none else some ⟨v.name, v.cells, .data .int, p.position⟩
  | _ => none

def firstDeclarations (commands : List Placed) : List Declaration :=
  inProgramOrder (fun before p => (firstDeclaration? before p).toList) commands

def redeclaration? (before : List Placed) (p : Placed) : Option Finding :=
  match p.command.declaredName? with
  | some name => if Declares before name then some ⟨p.position, .redeclared name⟩ else none
  | none => none

def redeclarations (commands : List Placed) : List Finding :=
  inProgramOrder (fun before p => (redeclaration? before p).toList) commands

/-- The claims that a command makes on a cell. A declaration claims a cell as often as it lists
it, and always with the length of its whole list. -/
def claimsOf (c : Cell) (before : List Placed) (p : Placed) : List Claim :=
  match p.command with
  | .init i => if i.cell = c then [⟨i.syscall, .syscall, 1, p.position.line⟩] else []
  | _ =>
    match firstDeclaration? before p with
    | some d => List.replicate (d.cells.count c) ⟨d.name, d.kind, d.cells.length, p.position.line⟩
    | none => []

def claimsIn (commands : List Placed) (c : Cell) : List Claim :=
  inProgramOrder (claimsOf c) commands

def Placed.initOf? (syscall : String) (p : Placed) : Option InitAt :=
  match p.command with
  | .init i => if i.syscall = syscall then some ⟨p.position, i⟩ else none
  | _ => none

def lastInit? (commands : List Placed) (syscall : String) : Option InitAt :=
  (commands.filterMap (Placed.initOf? syscall)).getLast?

@[simp] theorem inProgramOrder_nil {α : Type} (f : List Placed → Placed → List α) :
    inProgramOrder f [] = [] := rfl

theorem inProgramOrder_snoc {α : Type} (f : List Placed → Placed → List α)
    (commands : List Placed) (p : Placed) :
    inProgramOrder f (commands ++ [p]) = inProgramOrder f commands ++ f commands p := by
  have hbefore : (commands.zipIdx.flatMap fun (q, i) => f ((commands ++ [p]).take i) q) =
      commands.zipIdx.flatMap fun (q, i) => f (commands.take i) q := by
    apply List.flatMap_congr
    intro entry hentry
    have hi : entry.2 ≤ commands.length := by
      simpa using Nat.le_of_lt (List.snd_lt_of_mem_zipIdx hentry)
    simp only [List.take_append_of_le_length hi]
  unfold inProgramOrder
  rw [List.zipIdx_append, List.flatMap_append, hbefore]
  simp

theorem inProgramOrder_append {α : Type} (f : List Placed → Placed → List α)
    (front back : List Placed) :
    inProgramOrder f (front ++ back) =
      inProgramOrder f front ++ inProgramOrder (fun before => f (front ++ before)) back := by
  induction back using List.reverseRecOn with
  | nil => simp
  | append_singleton back p ih =>
    rw [← List.append_assoc, inProgramOrder_snoc, ih, inProgramOrder_snoc, List.append_assoc]

theorem inProgramOrder_cons {α : Type} (f : List Placed → Placed → List α) (p : Placed)
    (rest : List Placed) :
    inProgramOrder f (p :: rest) =
      f [] p ++ inProgramOrder (fun before => f (p :: before)) rest := by
  have hfirst : inProgramOrder f [p] = f [] p := inProgramOrder_snoc f [] p
  rw [← List.singleton_append, inProgramOrder_append, hfirst]
  rfl

theorem inProgramOrder_congr {α : Type} {f g : List Placed → Placed → List α}
    {commands : List Placed} (h : ∀ p ∈ commands, ∀ before, f before p = g before p) :
    inProgramOrder f commands = inProgramOrder g commands := by
  refine List.flatMap_congr fun entry hentry => ?_
  exact h entry.1 (List.fst_mem_of_mem_zipIdx hentry) _

theorem mem_inProgramOrder {α : Type} {f : List Placed → Placed → List α}
    {commands : List Placed} {x : α} :
    x ∈ inProgramOrder f commands ↔
      ∃ p i, commands[i]? = some p ∧ x ∈ f (commands.take i) p := by
  simp only [inProgramOrder, List.mem_flatMap, Prod.exists, List.mem_zipIdx_iff_getElem?]

theorem redeclaration?_eq_some {before : List Placed} {p : Placed} {f : Finding} :
    redeclaration? before p = some f ↔ ∃ name, p.command.declaredName? = some name ∧
      Declares before name ∧ f = ⟨p.position, .redeclared name⟩ := by
  unfold redeclaration?
  cases p.command.declaredName? with
  | none => simp
  | some name => by_cases h : Declares before name <;> simp [h, eq_comm]

theorem firstDeclarations_snoc (commands : List Placed) (p : Placed) :
    firstDeclarations (commands ++ [p]) =
      firstDeclarations commands ++ (firstDeclaration? commands p).toList :=
  inProgramOrder_snoc _ commands p

theorem redeclarations_snoc (commands : List Placed) (p : Placed) :
    redeclarations (commands ++ [p]) =
      redeclarations commands ++ (redeclaration? commands p).toList :=
  inProgramOrder_snoc _ commands p

theorem claimsIn_snoc (commands : List Placed) (p : Placed) (c : Cell) :
    claimsIn (commands ++ [p]) c = claimsIn commands c ++ claimsOf c commands p :=
  inProgramOrder_snoc _ commands p

theorem declares_snoc (commands : List Placed) (p : Placed) (name : String) :
    Declares (commands ++ [p]) name ↔
      Declares commands name ∨ p.command.declaredName? = some name := by
  simp only [Declares, List.mem_append, List.mem_singleton, or_and_right, exists_or,
    exists_eq_left]

theorem lastInit?_snoc (commands : List Placed) (p : Placed) (syscall : String) :
    lastInit? (commands ++ [p]) syscall =
      (p.initOf? syscall).or (lastInit? commands syscall) := by
  unfold lastInit?
  rw [List.filterMap_append]
  cases h : p.initOf? syscall <;> simp [h]

theorem Declaration.ofCommand?_name (position : Position) (c : Command) :
    (Declaration.ofCommand? position c).map Declaration.name = c.declaredName? := by
  cases c <;> rfl

theorem firstDeclaration?_eq (before : List Placed) (p : Placed) :
    firstDeclaration? before p =
      (Declaration.ofCommand? p.position p.command).filter fun d => ¬ Declares before d.name := by
  obtain ⟨position, c⟩ := p
  cases c with
  | param q => by_cases h : Declares before q.name <;> simp [firstDeclaration?,
      Declaration.ofCommand?, Option.filter, h]
  | var v => by_cases h : Declares before v.name <;> simp [firstDeclaration?,
      Declaration.ofCommand?, Option.filter, h]
  | _ => rfl

theorem Declaration.position_of_ofCommand? {position : Position} {c : Command} {d : Declaration}
    (h : Declaration.ofCommand? position c = some d) : d.position = position := by
  cases c <;> cases h <;> rfl

theorem initOf?_of_ofCommand? {p : Placed} {d : Declaration}
    (h : Declaration.ofCommand? p.position p.command = some d) (syscall : String) :
    p.initOf? syscall = none := by
  obtain ⟨position, c⟩ := p
  cases c <;> cases h <;> rfl

theorem claimsOf_of_ofCommand? {p : Placed} {d : Declaration}
    (h : Declaration.ofCommand? p.position p.command = some d) (c : Cell)
    (before : List Placed) :
    claimsOf c before p = match firstDeclaration? before p with
      | some d =>
        List.replicate (d.cells.count c) ⟨d.name, d.kind, d.cells.length, p.position.line⟩
      | none => [] := by
  obtain ⟨position, command⟩ := p
  cases command <;> cases h <;> rfl

/-- A claim on a cell is made by an `INIT` of it or by a first declaration that lists it. -/
theorem mem_claimsOf {c : Cell} {before : List Placed} {p : Placed} {claim : Claim}
    (h : claim ∈ claimsOf c before p) :
    (∃ i, p.command = .init i ∧ i.cell = c ∧
      claim = ⟨i.syscall, .syscall, 1, p.position.line⟩) ∨
    ∃ d, firstDeclaration? before p = some d ∧ c ∈ d.cells ∧
      claim = ⟨d.name, d.kind, d.cells.length, p.position.line⟩ := by
  unfold claimsOf at h
  split at h
  · next i hcommand =>
    split_ifs at h with hcell
    · exact .inl ⟨i, hcommand, hcell, List.mem_singleton.1 h⟩
    · cases h
  · split at h
    · next d hd =>
      obtain ⟨hcount, hclaim⟩ := List.mem_replicate.1 h
      exact .inr ⟨d, hd, List.count_pos_iff.1 (Nat.pos_of_ne_zero hcount), hclaim⟩
    · cases h

theorem declares_iff_mem_firstDeclarations (commands : List Placed) (name : String) :
    Declares commands name ↔ name ∈ (firstDeclarations commands).map Declaration.name := by
  induction commands using List.reverseRecOn with
  | nil => simp [Declares, firstDeclarations]
  | append_singleton commands p ih =>
    rw [declares_snoc, firstDeclarations_snoc, List.map_append, List.mem_append, ← ih]
    apply or_congr_right'
    intro hnot
    rw [firstDeclaration?_eq, ← Declaration.ofCommand?_name p.position]
    cases Declaration.ofCommand? p.position p.command with
    | none => simp
    | some d =>
      by_cases hd : d.name = name
      · subst hd
        simp [Option.filter, hnot]
      · by_cases hb : Declares commands d.name <;> simp [Option.filter, hb, hd, Ne.symm hd]

namespace Tables

structure Record (t : Tables) (commands : List Placed) : Prop where
  symbols : t.symbols.entries = (firstDeclarations commands).map fun d => (d.name, d)
  syscalls : ∀ syscall, t.syscalls.get? syscall = lastInit? commands syscall
  claims : ∀ c, t.cells.claimsOn c = claimsIn commands c
  redeclarations : t.redeclarations.toList = CellCheck.redeclarations commands

theorem record_empty : Record empty [] where
  symbols := rfl
  syscalls _ := rfl
  claims c := CellMap.claimsOn_empty c
  redeclarations := rfl

namespace Record

variable {t : Tables} {commands : List Placed}

theorem names (h : t.Record commands) :
    t.symbols.names = (firstDeclarations commands).map Declaration.name := by
  rw [NameTable.names, h.symbols, List.map_map]
  rfl

theorem values (h : t.Record commands) : t.symbols.values = firstDeclarations commands := by
  rw [NameTable.values, h.symbols, List.map_map]
  exact List.map_id _

theorem mem_names_iff (h : t.Record commands) {name : String} :
    name ∈ t.symbols.names ↔ ∃ d ∈ t.symbols.values, d.name = name := by
  rw [h.names, h.values, List.mem_map]

theorem get?_of_mem_values (h : t.Record commands) {d : Declaration} (hd : d ∈ t.symbols.values) :
    t.symbols.get? d.name = some d := by
  rw [h.values] at hd
  rw [NameTable.get?_eq_some_iff, h.symbols]
  exact List.mem_map.2 ⟨d, hd, rfl⟩

theorem contains_iff (h : t.Record commands) (name : String) :
    t.symbols.contains name = true ↔ Declares commands name := by
  rw [NameTable.contains_iff, h.names, declares_iff_mem_firstDeclarations]

end Record

/-- A list of cells is claimed cell by cell, so that a repeated cell is claimed repeatedly. -/
theorem claimsOn_foldl_allocate (cells : List Cell) (claim : Claim) (m : CellMap) (c : Cell) :
    (cells.foldl (fun m d => m.allocate d claim) m).claimsOn c =
      m.claimsOn c ++ List.replicate (cells.count c) claim := by
  induction cells generalizing m with
  | nil => simp
  | cons d rest ih =>
    rw [List.foldl_cons, ih, CellMap.claimsOn_allocate]
    by_cases h : d = c
    · subst h
      rw [if_pos rfl, List.count_cons_self, List.append_assoc, ← List.singleton_append,
        Nat.add_comm, List.replicate_add]
      rfl
    · rw [if_neg h, List.count_cons_of_ne h]

/-- The record goes on with what the next command adds to each table. -/
theorem Record.snoc {t t' : Tables} {commands : List Placed} {p : Placed} (h : t.Record commands)
    (hsymbols : t'.symbols.entries =
      t.symbols.entries ++ (firstDeclaration? commands p).toList.map fun d => (d.name, d))
    (hsyscalls : ∀ syscall, t'.syscalls.get? syscall =
      (p.initOf? syscall).or (t.syscalls.get? syscall))
    (hclaims : ∀ c, t'.cells.claimsOn c = t.cells.claimsOn c ++ claimsOf c commands p)
    (hredeclarations : t'.redeclarations.toList =
      t.redeclarations.toList ++ (redeclaration? commands p).toList) :
    t'.Record (commands ++ [p]) where
  symbols := by
    rw [hsymbols, h.symbols, firstDeclarations_snoc, List.map_append]
  syscalls syscall := by
    rw [hsyscalls, h.syscalls, lastInit?_snoc]
  claims c := by
    rw [hclaims, h.claims, claimsIn_snoc]
  redeclarations := by
    rw [hredeclarations, h.redeclarations, redeclarations_snoc]

theorem Record.init {t : Tables} {commands : List Placed} (h : t.Record commands)
    (position : Position) (i : SyscallInit) :
    (t.init ⟨position, i⟩).Record (commands ++ [⟨position, .init i⟩]) := by
  apply h.snoc
  · exact (List.append_nil _).symm
  · intro syscall
    rw [Tables.init, NameTable.get?_insert]
    by_cases hs : i.syscall = syscall <;> simp [Placed.initOf?, hs]
  · intro c
    rw [Tables.init, CellMap.claimsOn_allocate]
    by_cases hc : i.cell = c <;> simp [claimsOf, InitAt.claim, hc]
  · exact (List.append_nil _).symm

/-- A declaration is recorded if its name is new, and is an error without other effect if not. -/
theorem Record.declare {t : Tables} {commands : List Placed} (h : t.Record commands) {p : Placed}
    {d : Declaration} (hd : Declaration.ofCommand? p.position p.command = some d) :
    (t.declare d).Record (commands ++ [p]) := by
  have hname : p.command.declaredName? = some d.name := by
    rw [← Declaration.ofCommand?_name p.position, hd, Option.map_some]
  have hposition := Declaration.position_of_ofCommand? hd
  have hinit := initOf?_of_ofCommand? hd
  have hclaims := claimsOf_of_ofCommand? hd
  have hfirst := firstDeclaration?_eq commands p
  rw [hd] at hfirst
  by_cases hold : Declares commands d.name
  · have hnone : firstDeclaration? commands p = none := by
      simpa [Option.filter, hold] using hfirst
    rw [Tables.declare, if_pos ((h.contains_iff d.name).2 hold)]
    apply h.snoc
    · simp [hnone]
    · simp [hinit]
    · simp [hclaims, hnone]
    · simp [redeclaration?, hname, hold, hposition]
  · have hsome : firstDeclaration? commands p = some d := by
      simpa [Option.filter, hold] using hfirst
    have hnew : d.name ∉ t.symbols.names := by
      rwa [← NameTable.contains_iff, h.contains_iff]
    rw [Tables.declare, if_neg (fun hc => hold ((h.contains_iff d.name).1 hc))]
    apply h.snoc
    · simp [NameTable.entries_insert_of_not_mem d hnew, hsome]
    · simp [hinit]
    · intro c
      rw [claimsOn_foldl_allocate, hclaims, hsome]
      simp [Declaration.claim, hposition]
    · simp [redeclaration?, hname, hold]

theorem Record.add {t : Tables} {commands : List Placed} (h : t.Record commands) (p : Placed) :
    (t.add p).Record (commands ++ [p]) := by
  obtain ⟨position, c⟩ := p
  cases c with
  | init i => exact h.init position i
  | param q => exact h.declare rfl
  | var v => exact h.declare rfl
  | _ =>
    -- an operation leaves the tables as they are
    apply h.snoc
    · exact (List.append_nil _).symm
    · exact fun _ => rfl
    · exact fun _ => (List.append_nil _).symm
    · exact (List.append_nil _).symm

theorem Record.foldl {t : Tables} {before : List Placed} (h : t.Record before)
    (commands : List Placed) : (commands.foldl Tables.add t).Record (before ++ commands) := by
  induction commands generalizing t before with
  | nil => simpa using h
  | cons p rest ih => simpa using ih (h.add p)

theorem record_ofCommands (commands : List Placed) :
    (ofCommands commands).Record commands :=
  record_empty.foldl commands

theorem declares_ofCommands (commands : List Placed) (name : String) :
    (ofCommands commands).declares name = true ↔ Declares commands name :=
  (record_ofCommands commands).contains_iff name

/-- Declarations do nothing to the cells but to claim them. -/
theorem cells_ofCommands_induction {motive : CellMap → Prop} (hempty : motive .empty)
    (hallocate : ∀ m c claim, motive m → motive (m.allocate c claim)) (commands : List Placed) :
    motive (ofCommands commands).cells := by
  have hclaims (cells : List Cell) (claim : Claim) (m : CellMap) (h : motive m) :
      motive (cells.foldl (fun m c => m.allocate c claim) m) := by
    induction cells generalizing m with
    | nil => exact h
    | cons c rest ih => exact ih _ (hallocate m c claim h)
  have hdeclare (t : Tables) (d : Declaration) (h : motive t.cells) :
      motive (t.declare d).cells := by
    unfold Tables.declare
    split
    · exact h
    · exact hclaims d.cells d.claim t.cells h
  have hadd (t : Tables) (p : Placed) (h : motive t.cells) : motive (t.add p).cells := by
    obtain ⟨position, c⟩ := p
    cases c with
    | init i => exact hallocate _ _ _ h
    | param q => exact hdeclare _ _ h
    | var v => exact hdeclare _ _ h
    | assign a => exact h
    | move m => exact h
    | call c => exact h
  have hrun : ∀ t : Tables, motive t.cells → motive (commands.foldl add t).cells := by
    induction commands with
    | nil => exact fun _ h => h
    | cons p rest ih => exact fun t h => ih _ (hadd t p h)
  exact hrun empty hempty

end Tables

end CellCheck
