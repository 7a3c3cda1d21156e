import CellCheck.NameTable
import CellCheck.Yaml.Scanner

/-!
# Flat mappings

A document holds one mapping from scalars to scalars, or nothing. A scalar can have an anchor, and
an alias stands for the scalar that its anchor is at.
-/

namespace CellCheck.Yaml

structure Scalar where
  tag : Option Octets
  style : ScalarStyle
  content : Text
  deriving DecidableEq, Repr

inductive Node where
  | scalar (anchor : Option Text) (s : Scalar)
  | aliasOf (name : Text)
  deriving DecidableEq, Repr

/-- An anchor and a tag, in either order, and the tokens behind them. -/
structure Properties where
  anchor : Option Text
  tag : Option Tag
  rest : List Token

namespace Properties

def read : List Token → Properties
  | .anchor name :: .tag t :: rest => ⟨some name, some t, rest⟩
  | .tag t :: .anchor name :: rest => ⟨some name, some t, rest⟩
  | .anchor name :: rest => ⟨some name, none, rest⟩
  | .tag t :: rest => ⟨none, some t, rest⟩
  | rest => ⟨none, none, rest⟩

/-- The tag in octets; its handle has to be known. -/
def tag? (p : Properties) (handles : Handles) : Option (Option Octets) :=
  match p.tag with
  | none => some none
  | some t => (handles.resolve? t).map some

end Properties

namespace Node

/-- The scalar that stands where nothing is written. -/
def nothing : Node := scalar none ⟨none, .plain, []⟩

/-- Reads a node from all of the tokens. A lone exclamation mark does not count as the tag of a
scalar that is written out. -/
def ofTokens? (handles : Handles) : List Token → Option Node
  | [.aliasOf name] => some (aliasOf name)
  | ts =>
    let p := Properties.read ts
    (p.tag? handles).bind fun tag =>
      match p.rest with
      | [] => some (scalar p.anchor ⟨tag, .plain, []⟩)
      | [.scalar style content] =>
        some (scalar p.anchor ⟨tag.filter (· != Tag.nonSpecific), style, content⟩)
      | _ => none

end Node

abbrev Entry := Node × Node

namespace Entry

/-- Reads an entry behind the start of its key. -/
def ofTokens? (handles : Handles) (ts : List Token) : Option Entry :=
  match Node.ofTokens? handles (ts.takeWhile (· != .value)),
      Node.ofTokens? handles ((ts.dropWhile (· != .value)).drop 1) with
  | some key, some value => some (key, value)
  | _, _ => none

/-- The entries of a block mapping between its start and its end. -/
def ofBlock? (handles : Handles) (ts : List Token) : Option (List Entry) :=
  match ts.splitOn .key with
  | [] :: parts => parts.mapM (ofTokens? handles)
  | _ => none

/-- An entry between commas. Without the start of a key it is a key alone. -/
def ofPart? (handles : Handles) : List Token → Option Entry
  | [] => none
  | .key :: rest => ofTokens? handles rest
  | ts => (Node.ofTokens? handles ts).map fun key => (key, Node.nothing)

/-- The entries between braces, where a comma may follow the last one. -/
def ofBraces? (handles : Handles) (ts : List Token) : Option (List Entry) :=
  let parts := ts.splitOn .comma
  let parts := if parts.getLast? = some [] then parts.dropLast else parts
  parts.mapM (ofPart? handles)

end Entry

/-- The mapping of a document, whose node can have an anchor as well. -/
structure Mapping where
  anchor : Option Text
  entries : List Entry

namespace Mapping

/-- Reads the mapping from all tokens between the marks of a document. Where no mapping is
written, properties alone or a start mark make an empty one. -/
def ofTokens? (handles : Handles) (ts : List Token) : Option Mapping :=
  let p := Properties.read ts
  (p.tag? handles).bind fun _ =>
    match p.rest, p.rest.getLast? with
    | [], _ => some ⟨p.anchor, []⟩
    | .blockStart :: rest, some .blockEnd =>
      (Entry.ofBlock? handles rest.dropLast).map fun entries => ⟨p.anchor, entries⟩
    | .openBrace :: rest, some .closeBrace =>
      (Entry.ofBraces? handles rest.dropLast).map fun entries => ⟨p.anchor, entries⟩
    | _, _ => none

end Mapping

/-- Where the anchors are. An anchor gets the number of names in use before it, so that a name
used twice can bring two names to one number; the last anchor with a number is the one it means. -/
structure Anchors where
  numbers : NameTable Nat
  targets : List (Nat × Option Scalar)

namespace Anchors

def empty : Anchors := ⟨.empty, []⟩

/-- Records an anchor at a scalar, or at the mapping. -/
def record (anchors : Anchors) (name : Option Text) (target : Option Scalar) : Anchors :=
  match name with
  | none => anchors
  | some name =>
    let number := anchors.numbers.size
    ⟨anchors.numbers.insert (String.ofList name) number, (number, target) :: anchors.targets⟩

def target? (anchors : Anchors) (number : Nat) : Option Scalar :=
  (anchors.targets.lookup number).join

end Anchors

/-- A scalar, or the number of the anchor that it is at. -/
inductive Reference where
  | own (s : Scalar)
  | anchored (number : Nat)

namespace Reference

/-- An alias needs an anchor of its name before it. -/
def ofNode? (anchors : Anchors) : Node → Option (Anchors × Reference)
  | .scalar anchor s => some (anchors.record anchor (some s), own s)
  | .aliasOf name =>
    (anchors.numbers.get? (String.ofList name)).map fun number => (anchors, anchored number)

def ofEntries? (anchors : Anchors) :
    List Entry → Option (Anchors × List (Reference × Reference))
  | [] => some (anchors, [])
  | (key, value) :: rest =>
    (ofNode? anchors key).bind fun (anchors, key) =>
      (ofNode? anchors value).bind fun (anchors, value) =>
        (ofEntries? anchors rest).map fun (anchors, rest) => (anchors, (key, value) :: rest)

def scalar? (anchors : Anchors) : Reference → Option Scalar
  | own s => some s
  | anchored number => anchors.target? number

def scalars? (anchors : Anchors) (entry : Reference × Reference) : Option (Scalar × Scalar) :=
  match entry.1.scalar? anchors, entry.2.scalar? anchors with
  | some key, some value => some (key, value)
  | _, _ => none

end Reference

/-- The entries of a mapping with scalars in the place of aliases. -/
def Mapping.scalars? (m : Mapping) : Option (List (Scalar × Scalar)) :=
  (Reference.ofEntries? (Anchors.empty.record m.anchor none) m.entries).bind
    fun (anchors, entries) => entries.mapM (Reference.scalars? anchors)

namespace Document

def isDirective : Token → Bool
  | .directive _ => true
  | _ => false

/-- What ends the content of a document. -/
def isBoundary (t : Token) : Bool := isDirective t || t == .documentStart || t == .documentEnd

/-- Nothing but end marks may follow the content. -/
def content? (ts : List Token) : Option (List Token) :=
  if (ts.dropWhile (!isBoundary ·)).all (· == .documentEnd) then
    some (ts.takeWhile (!isBoundary ·))
  else none

/-- The mapping of a document. Directives need a start mark behind them, and without a start mark
a document has content or there is none. -/
def mapping? (ts : List Token) : Option Mapping :=
  let directives := (ts.takeWhile isDirective).filterMap fun
    | .directive d => some d
    | _ => none
  match ts.dropWhile isDirective with
  | .documentStart :: rest =>
    (Directive.handles? directives).bind fun handles =>
      (content? rest).bind (Mapping.ofTokens? handles)
  | [] => if ts.isEmpty then some ⟨none, []⟩ else none
  | _ =>
    if directives.isEmpty then
      (content? ts).bind fun content =>
        if content.isEmpty then none else Mapping.ofTokens? [] content
    else none

/-- The entries of the only document in a source. -/
def entries? (source : Text) : Option (List (Scalar × Scalar)) :=
  if source.all isAllowed then
    ((tokens? (Source.ofText source)).bind mapping?).bind Mapping.scalars?
  else none

end Document

end CellCheck.Yaml
