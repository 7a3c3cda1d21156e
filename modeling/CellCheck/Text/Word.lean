import CellCheck.Text.Cut

/-!
# Words

Names are words of ASCII letters, digits and underscores; the names of syscalls are words that
start with `SYS_` and go on.
-/

namespace CellCheck.Text

def isWordChar (c : Char) : Bool := c.isAlphanum || c == '_'

def isWord (s : Text) : Bool := !s.isEmpty && s.all isWordChar

def isSyscallName (s : Text) : Bool := (s.after? "SYS_").any isWord

end CellCheck.Text
