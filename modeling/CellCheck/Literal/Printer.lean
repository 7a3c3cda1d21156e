import CellCheck.Literal.Reader
import CellCheck.Binary64.Shortest

/-!
# Printing literals

A text is quoted where it would not be read as itself without quotes. A text with a quote in it
has no quoted form and is printed as it is.
-/

namespace CellCheck.Literal

def needsQuotes (s : Text) : Bool :=
  s.isEmpty || s.trim != s || s.any endsBare || (Binary64.ofText? s).isSome

def textForm (s : Text) : Text :=
  if needsQuotes s && !s.contains '"' then '"' :: s ++ ['"'] else s

mutual

def toText : Literal → Text
  | number value => value.toText
  | text content => textForm content.toList
  | array items => '[' :: itemsText items ++ [']']

/-- The items with a comma and a blank between them. -/
def itemsText : List Literal → Text
  | [] => []
  | item :: rest => toText item ++ followingText rest

/-- The items after the first, each behind its comma. -/
def followingText : List Literal → Text
  | [] => []
  | item :: rest => ',' :: ' ' :: toText item ++ followingText rest

end

theorem itemsText_eq (items : List Literal) :
    itemsText items = Text.commaSeparated (items.map toText) := by
  have following (item : Literal) (rest : List Literal) :
      toText item ++ followingText rest = Text.commaSeparated (toText item :: rest.map toText) := by
    induction rest generalizing item with
    | nil => simp [followingText, Text.commaSeparated, List.intercalate]
    | cons next rest ih =>
      simp [followingText, ih, Text.commaSeparated, List.intercalate]
  cases items with
  | nil => rfl
  | cons item rest => exact following item rest

def arrayText (items : List Literal) : Text := toText (array items)

def fieldText (field : String × Literal) : Text :=
  textForm field.1.toList ++ ':' :: ' ' :: toText field.2

def objectText (fields : Fields) : Text :=
  '{' :: Text.commaSeparated (fields.entries.map fieldText) ++ ['}']

end CellCheck.Literal
