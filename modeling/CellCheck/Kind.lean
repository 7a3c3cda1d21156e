/-!
# Kinds

The kind of a parameter's data, and of a claim on a cell: data, or the handle of a syscall.
-/

namespace CellCheck

inductive DataKind where
  | int
  | struct
  | pointer
  deriving DecidableEq, Repr

inductive ClaimKind where
  | data (kind : DataKind)
  | syscall
  deriving DecidableEq, Repr

structure UnknownKind where
  name : String
  deriving DecidableEq, Repr

def UnknownKind.message (e : UnknownKind) : String := "Unknown data type: " ++ e.name

namespace DataKind

def name : DataKind → String
  | int => "INT"
  | struct => "STRUCT"
  | pointer => "PTR"

def ofName (name : String) : Except UnknownKind DataKind :=
  if name = "INT" then .ok int
  else if name = "STRUCT" then .ok struct
  else if name = "PTR" then .ok pointer
  else .error ⟨name⟩

@[simp] theorem ofName_name (kind : DataKind) : ofName kind.name = .ok kind := by
  cases kind <;> rfl

end DataKind

namespace ClaimKind

def name : ClaimKind → String
  | data kind => kind.name
  | syscall => "SYSCALL"

def ofName? (name : String) : Option ClaimKind :=
  if name = "SYSCALL" then some syscall else (DataKind.ofName name).toOption.map data

end ClaimKind

end CellCheck
