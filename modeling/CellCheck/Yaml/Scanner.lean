import CellCheck.Yaml.Block
import CellCheck.Yaml.Plain
import CellCheck.Yaml.Quoted
import CellCheck.Yaml.Token

/-!
# Splitting a document into tokens

Only flat mappings are split: a sequence, or a mapping inside another one, has no tokens. A key
that no question mark announces is recognised by the colon behind it, which has to follow on the
same line within 1024 characters. Until then the tokens from its start on are held back.
-/

namespace CellCheck.Yaml

/-- A place where a key may have started, with the tokens from there on in reverse. -/
structure Candidate where
  line : Nat
  column : Nat
  /-- Nothing but a key can stand here. -/
  required : Bool
  since : List Token

/-- What is known between two tokens. The tokens before the candidate are kept in reverse. -/
structure Scanner where
  tokens : List Token
  candidate : Option Candidate
  keyAllowed : Bool
  /-- The column of the open block mapping. -/
  indent : Option Nat
  inBraces : Bool

namespace Scanner

def start : Scanner := ⟨[], none, true, none, false⟩

/-- The column at which the content of an entry may start. -/
def leastColumn (sc : Scanner) : Nat := (sc.indent.map (· + 1)).getD 0

def push (sc : Scanner) (t : Token) : Scanner :=
  match sc.candidate with
  | some c => { sc with candidate := some { c with since := t :: c.since } }
  | none => { sc with tokens := t :: sc.tokens }

/-- Gives the candidate up. -/
def settle? (sc : Scanner) : Option Scanner :=
  match sc.candidate with
  | none => some sc
  | some c =>
    if c.required then none
    else some { sc with candidate := none, tokens := c.since ++ sc.tokens }

/-- Gives up a candidate that is too far away to be the key of a colon at the given place. -/
def expire? (sc : Scanner) (g : Glyph) : Option Scanner :=
  if sc.candidate.any fun c => c.line < g.line || c.column + 1024 < g.column then sc.settle?
  else some sc

/-- Lines further to the left are outside the block mapping. -/
def dedent (sc : Scanner) (column : Nat) : Scanner :=
  if sc.indent.any fun indent => column < indent then { sc.push .blockEnd with indent := none }
  else sc

/-- Ends the block mapping wherever it started. -/
def leaveBlock (sc : Scanner) : Scanner :=
  if sc.indent.isSome then { sc.push .blockEnd with indent := none } else sc

/-- Makes a new candidate if a key may start here. -/
def offer? (sc : Scanner) (g : Glyph) : Option Scanner :=
  if sc.keyAllowed then
    sc.settle?.map fun sc =>
      let required := !sc.inBraces && sc.indent = some g.column
      { sc with candidate := some ⟨g.line, g.column, required, []⟩ }
  else some sc

/-- Opens a block mapping at the column of an entry unless the entry belongs to the open one. An
entry further to the right would be in a mapping of its own. -/
def openBlock? (sc : Scanner) (column : Nat) : Option (List Token × Option Nat) :=
  if sc.inBraces then some ([], sc.indent)
  else
    match sc.indent with
    | none => some ([.blockStart], some column)
    | some indent => if indent < column then none else some ([], some indent)

/-- A question mark in front of a key. -/
def announceKey? (sc : Scanner) (g : Glyph) : Option Scanner :=
  if sc.inBraces || sc.keyAllowed then
    (sc.openBlock? g.column).bind fun (opening, indent) =>
      sc.settle?.map fun sc =>
        { sc with
          tokens := .key :: opening ++ sc.tokens
          indent
          keyAllowed := !sc.inBraces }
  else none

/-- A colon in front of a value. -/
def announceValue? (sc : Scanner) (g : Glyph) : Option Scanner :=
  match sc.candidate with
  | some c =>
    (sc.openBlock? c.column).map fun (opening, indent) =>
      { sc with
        tokens := .value :: c.since ++ .key :: opening ++ sc.tokens
        candidate := none
        indent
        keyAllowed := false }
  | none =>
    if sc.inBraces || sc.keyAllowed then
      (sc.openBlock? g.column).map fun (opening, indent) =>
        { sc with
          tokens := .value :: opening ++ sc.tokens
          indent
          keyAllowed := !sc.inBraces }
    else none

def openBrace? (sc : Scanner) : Option Scanner :=
  if sc.inBraces || sc.indent.isSome then none
  else
    sc.settle?.map fun sc =>
      { sc with tokens := .openBrace :: sc.tokens, keyAllowed := true, inBraces := true }

def closeBrace? (sc : Scanner) : Option Scanner :=
  if sc.inBraces then
    sc.settle?.map fun sc =>
      { sc with tokens := .closeBrace :: sc.tokens, keyAllowed := false, inBraces := false }
  else none

def comma? (sc : Scanner) : Option Scanner :=
  if sc.inBraces then
    sc.settle?.map fun sc => { sc with tokens := .comma :: sc.tokens, keyAllowed := true }
  else none

/-- A token that ends all that is open, which braces are not meant to be. -/
def outermost? (sc : Scanner) (t : Token) : Option Scanner :=
  if sc.inBraces then none
  else
    sc.settle?.map fun sc =>
      let sc := sc.leaveBlock
      { sc with tokens := t :: sc.tokens, keyAllowed := false }

/-- A token that may be, or start, a key. -/
def node? (sc : Scanner) (g : Glyph) (t : Token) : Option Scanner :=
  (sc.offer? g).map fun sc => { sc.push t with keyAllowed := false }

def isAnchorEnd (s : Source) : Bool :=
  s.atGap || s.head?.any fun g => "?:,]\x7d%@".toList.contains g.char || g.char.toNat == 0x60

def anchorName? (s : Source) : Option (Text × Source) :=
  let (name, rest) := s.readName
  if name.isEmpty || !isAnchorEnd rest then none else some (name, rest)

def isTagEnd (inBraces : Bool) (s : Source) : Bool :=
  s.atGap || (inBraces && s.head?.map Glyph.char = some ',')

def directive? (sc : Scanner) (rest : Source) : Option (Scanner × Source) :=
  (Directive.read? rest).bind fun (d, rest) =>
    (sc.outermost? (.directive d)).map fun sc => (sc, rest)

def anchor? (sc : Scanner) (g : Glyph) (rest : Source) : Option (Scanner × Source) :=
  (anchorName? rest).bind fun (name, rest) =>
    (sc.node? g (.anchor name)).map fun sc => (sc, rest)

def aliasOf? (sc : Scanner) (g : Glyph) (rest : Source) : Option (Scanner × Source) :=
  (anchorName? rest).bind fun (name, rest) =>
    (sc.node? g (.aliasOf name)).map fun sc => (sc, rest)

def tag? (sc : Scanner) (g : Glyph) (rest : Source) : Option (Scanner × Source) :=
  (Tag.read? rest).bind fun (t, rest) =>
    if isTagEnd sc.inBraces rest then (sc.node? g (.tag t)).map fun sc => (sc, rest) else none

def quoted? (sc : Scanner) (g : Glyph) (reading : Option (Text × Source)) :
    Option (Scanner × Source) :=
  reading.bind fun (content, rest) =>
    (sc.node? g (.scalar .quoted content)).map fun sc => (sc, rest)

def plain? (sc : Scanner) (g : Glyph) (rest : Source) : Option (Scanner × Source) :=
  (PlainScalar.read sc.inBraces sc.leastColumn (g :: rest)).bind fun scalar =>
    (sc.node? g (.scalar .plain scalar.content)).map fun sc =>
      ({ sc with keyAllowed := scalar.endsLine }, scalar.rest)

/-- A block scalar is never found by a colon behind it, and a key may follow it. -/
def block? (sc : Scanner) (style : ScalarStyle) (rest : Source) : Option (Scanner × Source) :=
  if sc.inBraces then none
  else
    (BlockScalar.read (style == .folded) sc.leastColumn rest).bind fun (content, rest) =>
      sc.settle?.map fun sc => ({ sc.push (.scalar style content) with keyAllowed := true }, rest)

/-- Takes the token that starts with the given character. -/
def next? (sc : Scanner) (g : Glyph) (rest : Source) : Option (Scanner × Source) :=
  let one (result : Option Scanner) : Option (Scanner × Source) := result.map fun sc => (sc, rest)
  if g.column == 0 && g.char == '%' then sc.directive? rest
  else if Source.atMark '-' (g :: rest) then
    (sc.outermost? .documentStart).map fun sc => (sc, rest.drop 2)
  else if Source.atMark '.' (g :: rest) then
    (sc.outermost? .documentEnd).map fun sc => (sc, rest.drop 2)
  else
    match g.char with
    | '\x7b' => one sc.openBrace?
    | '\x7d' => one sc.closeBrace?
    | ',' => one sc.comma?
    | '?' =>
      if sc.inBraces || rest.atGap then one (sc.announceKey? g) else sc.plain? g rest
    | ':' =>
      if sc.inBraces || rest.atGap then one (sc.announceValue? g) else sc.plain? g rest
    | '-' => if rest.atGap then none else sc.plain? g rest
    | '&' => sc.anchor? g rest
    | '*' => sc.aliasOf? g rest
    | '!' => sc.tag? g rest
    | '|' => sc.block? .literal rest
    | '>' => sc.block? .folded rest
    | '\'' => sc.quoted? g (readSingleQuoted [] .empty rest)
    | '"' => sc.quoted? g (readDoubleQuoted [] .empty rest)
    | '[' | ']' | '%' | '@' | '\x60' | '\t' => none
    | _ => sc.plain? g rest

/-- All tokens, once the end is reached. -/
def finish? (sc : Scanner) : Option (List Token) :=
  if sc.inBraces then none else sc.settle?.map fun sc => sc.leaveBlock.tokens.reverse

/-- Takes at most `count` tokens. -/
def tokensFrom? (sc : Scanner) (count : Nat) (s : Source) : Option (List Token) :=
  match s.skipGaps sc.inBraces false sc.keyAllowed, count with
  | (_, []), _ => sc.finish?
  | _, 0 => none
  | (keyAllowed, g :: rest), count + 1 =>
    (({ sc with keyAllowed }).expire? g).bind fun sc =>
      ((sc.dedent g.column).next? g rest).bind fun (sc, rest) => sc.tokensFrom? count rest

end Scanner

/-- Each token takes at least one character, so there are no more tokens than characters. -/
def tokens? (s : Source) : Option (List Token) := Scanner.start.tokensFrom? s.length s

end CellCheck.Yaml
