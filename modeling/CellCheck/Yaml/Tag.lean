import CellCheck.Text.Numeral
import CellCheck.Yaml.Source

/-!
# Tags

A tag names the type of a node. It is written in full between angle brackets, or as a handle and a
suffix, where the handle stands for a beginning. Octets can be written with a percent sign and two
hexadecimal digits; all octets of a character have to be written so.
-/

namespace CellCheck.Yaml

abbrev Octets := List UInt8

namespace Octets

def ofAscii (s : Text) : Octets := s.map fun c => UInt8.ofNat c.toNat

/-- The octets spell the given name. -/
def spell (octets : Octets) (name : String) : Bool := octets = name.toUTF8.toList

/-- The number of octets that follow the first one of a character. -/
def following? (first : UInt8) : Option Nat :=
  if first < 0x80 then some 0
  else if first < 0xC0 then none
  else if first < 0xE0 then some 1
  else if first < 0xF0 then some 2
  else if first < 0xF8 then some 3
  else none

def isFollowing (octet : UInt8) : Bool := 0x80 ≤ octet && octet < 0xC0

/-- The octet that two hexadecimal digits write. -/
def ofDigits? (a b : Char) : Option UInt8 := (Numeral.readHexadecimal? [a, b]).map UInt8.ofNat

def isUriChar (c : Char) : Bool := Source.isNameChar c || ";/?:@&=+$.!~*'()".toList.contains c

/-- Reads on behind the octets in `reversed`, of whose last character `missing` octets have to
follow. Commas and square brackets count if the tag is written in full. -/
def readFrom (full : Bool) (reversed : Octets) (missing : Nat) (s : Source) :
    Option (Octets × Source) :=
  match s with
  | [] => if missing = 0 then some (reversed.reverse, []) else none
  | g :: rest =>
    if g.char == '%' then
      match rest with
      | a :: b :: rest' =>
        match ofDigits? a.char b.char with
        | none => none
        | some octet =>
          if missing = 0 then
            match following? octet with
            | some n => readFrom full (octet :: reversed) n rest'
            | none => none
          else if isFollowing octet then readFrom full (octet :: reversed) (missing - 1) rest'
          else none
      | _ => none
    else if missing ≠ 0 then none
    else if isUriChar g.char || (full && [',', '[', ']'].contains g.char) then
      readFrom full (UInt8.ofNat g.char.toNat :: reversed) 0 rest
    else some (reversed.reverse, g :: rest)
termination_by s.length

/-- The octets up to a null. -/
def untilNull (octets : Octets) : Octets := octets.takeWhile (· != 0)

/-- Reads at least one octet. -/
def read? (full : Bool) (s : Source) : Option (Octets × Source) :=
  (readFrom full [] 0 s).bind fun (octets, rest) =>
    if octets.isEmpty then none else some (octets.untilNull, rest)

end Octets

inductive Tag where
  | full (octets : Octets)
  | short (handle : Text) (suffix : Octets)
  deriving DecidableEq, Repr

namespace Tag

/-- The tag that stands for no particular type. -/
def nonSpecific : Octets := Octets.ofAscii ['!']

/-- A tag with the handle of one exclamation mark, and without a suffix that mark alone. -/
def ofSuffix (octets : Octets) : Tag :=
  if octets.isEmpty then full nonSpecific else short ['!'] octets

/-- Reads a tag behind its exclamation mark. -/
def read? (s : Source) : Option (Tag × Source) :=
  match s.head?.map Glyph.char with
  | some '<' =>
    (Octets.read? true (s.drop 1)).bind fun (octets, rest) =>
      if rest.head?.map Glyph.char = some '>' then some (full octets, rest.drop 1) else none
  | _ =>
    let (name, rest) := s.readName
    if rest.head?.map Glyph.char = some '!' then
      (Octets.read? false (rest.drop 1)).map fun (suffix, rest) =>
        (short ('!' :: name ++ ['!']) suffix, rest)
    else
      (Octets.readFrom false (Octets.ofAscii name).reverse 0 rest).map fun (suffix, rest) =>
        (ofSuffix suffix.untilNull, rest)

end Tag

/-- What the handles of a document stand for. -/
abbrev Handles := List (Text × Octets)

namespace Handles

/-- Handles that a document need not declare. -/
def default : Handles :=
  [(['!'], Tag.nonSpecific), (['!', '!'], Octets.ofAscii "tag:yaml.org,2002:".toList)]

/-- The octets of a tag. A declared handle hides a default one. -/
def resolve? (handles : Handles) : Tag → Option Octets
  | .full octets => some octets
  | .short handle suffix => ((handles ++ default).lookup handle).map (· ++ suffix)

end Handles

end CellCheck.Yaml
