/-!
# Name tables

A finite map from names whose entries keep the order of their first insertion.
-/

namespace CellCheck

structure NameTable (α : Type) where
  entries : List (String × α)
  nodup : (entries.map Prod.fst).Nodup

namespace NameTable

variable {α : Type}

@[ext] theorem ext {t u : NameTable α} (h : t.entries = u.entries) : t = u := by
  cases t; cases u; cases h; rfl

instance [Repr α] : Repr (NameTable α) := ⟨fun t n => reprPrec t.entries n⟩

instance [DecidableEq α] : DecidableEq (NameTable α) := fun t u =>
  decidable_of_iff (t.entries = u.entries) ⟨ext, fun h => h ▸ rfl⟩

def empty : NameTable α := ⟨[], List.nodup_nil⟩

def names (t : NameTable α) : List String := t.entries.map Prod.fst

def values (t : NameTable α) : List α := t.entries.map Prod.snd

def get? (t : NameTable α) (name : String) : Option α :=
  (t.entries.find? (·.1 = name)).map Prod.snd

def contains (t : NameTable α) (name : String) : Bool := t.names.contains name

def size (t : NameTable α) : Nat := t.entries.length

/-- Writes the value at the place of the name, or at the end if the name is new. -/
def insertEntry (name : String) (value : α) : List (String × α) → List (String × α)
  | [] => [(name, value)]
  | entry :: rest =>
    if entry.1 = name then (name, value) :: rest else entry :: insertEntry name value rest

theorem map_fst_insertEntry (name : String) (value : α) (entries : List (String × α)) :
    (insertEntry name value entries).map Prod.fst =
      if name ∈ entries.map Prod.fst then entries.map Prod.fst
      else entries.map Prod.fst ++ [name] := by
  induction entries with
  | nil => simp [insertEntry]
  | cons entry rest ih =>
    by_cases h : entry.1 = name
    · simp [insertEntry, h]
    · simp only [insertEntry, h, if_false, List.map_cons, ih, List.mem_cons, Ne.symm h, false_or]
      split <;> simp

/-- A known name keeps its place and takes the new value. -/
def insert (t : NameTable α) (name : String) (value : α) : NameTable α where
  entries := insertEntry name value t.entries
  nodup := by
    rw [map_fst_insertEntry]
    split
    · exact t.nodup
    · next h => exact List.nodup_append.2 ⟨t.nodup, by simp, by grind⟩

def ofList (entries : List (String × α)) : NameTable α :=
  entries.foldl (fun t entry => t.insert entry.1 entry.2) empty

@[simp] theorem entries_empty : (empty : NameTable α).entries = [] := rfl

@[simp] theorem names_empty : (empty : NameTable α).names = [] := rfl

theorem names_insert (t : NameTable α) (name : String) (value : α) :
    (t.insert name value).names = if name ∈ t.names then t.names else t.names ++ [name] :=
  map_fst_insertEntry name value t.entries

@[simp] theorem get?_insert_self (t : NameTable α) (name : String) (value : α) :
    (t.insert name value).get? name = some value := by
  simp only [get?, insert]
  induction t.entries with
  | nil => simp [insertEntry]
  | cons entry rest ih => by_cases h : entry.1 = name <;> simp [insertEntry, h, ih]

end NameTable

end CellCheck
