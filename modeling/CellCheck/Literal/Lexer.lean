import CellCheck.Literal.Token
import CellCheck.Text.Blank

/-!
# Splitting a literal into tokens

White space between tokens is skipped. A bare run goes on to the next structural character or
quote and loses the white space at its end. A quoted text has no escapes; without a closing quote
the rest of the literal is one error token.
-/

namespace CellCheck.Literal

def endsBare (c : Char) : Bool := c == '"' || (TokenKind.ofStructural? c).isSome

/-- The tokens of a text whose first character stands at the given column. -/
def tokensFrom (column : Nat) : Text → List Token
  | [] => []
  | c :: rest =>
    if Text.isBlank c then tokensFrom (column + c.utf8Size) rest
    else
      match TokenKind.ofStructural? c with
      | some kind => ⟨kind, column⟩ :: tokensFrom (column + c.utf8Size) rest
      | none =>
        if c = '"' then
          let content := rest.takeWhile (· != '"')
          if rest.contains '"' then
            have : (rest.dropWhile (· != '"')).length ≤ rest.length :=
              (List.dropWhile_sublist _).length_le
            ⟨.quoted (String.ofList content), column⟩ ::
              tokensFrom (column + Text.byteSize content + 2) ((rest.dropWhile (· != '"')).drop 1)
          else [⟨.error (String.ofList ("Unterminated string: \"".toList ++ content)), column⟩]
        else
          let run := c :: rest.takeWhile (!endsBare ·)
          have : (rest.dropWhile (!endsBare ·)).length ≤ rest.length :=
            (List.dropWhile_sublist _).length_le
          ⟨.bare (String.ofList (Text.trimEnd run)), column⟩ ::
            tokensFrom (column + Text.byteSize run) (rest.dropWhile (!endsBare ·))
termination_by s => s.length

def tokens (s : Text) : List Token := tokensFrom 0 s

end CellCheck.Literal
