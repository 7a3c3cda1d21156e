import CellCheck.Literal.Basic
import CellCheck.Literal.Lexer
import CellCheck.Binary64.Numeral

/-!
# Reading literals

An array is a list of items between brackets and an object a list of `key: item` between braces,
with commas between them and one allowed after the last. Each reader answers with its result and
the tokens that it has left; a token that fits nowhere is used up, and so is the whole list if it
ends too early.
-/

namespace CellCheck

inductive LiteralError where
  | unexpectedEnd
  | unexpectedToken (token : Token)
  | nestedObject (token : Token)
  | trailingInput (token : Token)
  deriving DecidableEq, Repr

def LiteralError.message : LiteralError → Text
  | unexpectedEnd => "Unexpected end of literal".toList
  | unexpectedToken token => "Unexpected token: ".toList ++ token.describe
  | nestedObject token => "Nested objects are not supported: ".toList ++ token.describe
  | trailingInput token => "Trailing input after literal: ".toList ++ token.describe

namespace Literal

abbrev Reading (α : Type) := Except LiteralError α × List Token

/-- A bare run is a number if it reads as one, and a text otherwise. -/
def ofBare (content : String) : Literal :=
  match Binary64.ofText? content.toList with
  | some value => number value
  | none => text content

/-- The item that a single token stands for. -/
def ofToken (token : Token) : Except LiteralError Literal :=
  match token.kind with
  | .bare content => .ok (ofBare content)
  | .quoted content => .ok (text content)
  | .openBrace => .error (.nestedObject token)
  | _ => .error (.unexpectedToken token)

/-- Reads on inside an open array up to the end of the outermost one. `items` are those of the
innermost array so far, the last one first, and `outer` those of the arrays around it from the
inside out; `afterItem` says that a comma or the end has to come next. -/
def readItems (outer : List (List Literal)) (items : List Literal) (afterItem : Bool) :
    List Token → Reading (List Literal)
  | [] => (.error .unexpectedEnd, [])
  | token :: rest =>
    match token.kind, afterItem with
    | .closeBracket, _ =>
      match outer with
      | [] => (.ok items.reverse, rest)
      | parent :: outer => readItems outer (array items.reverse :: parent) true rest
    | .comma, true => readItems outer items false rest
    | _, true => (.error (.unexpectedToken token), rest)
    | .openBracket, false => readItems (items :: outer) [] false rest
    | _, false =>
      match ofToken token with
      | .ok item => readItems outer (item :: items) true rest
      | .error e => (.error e, rest)

/-- Uses up the next token if it has the given kind. -/
def expect (kind : TokenKind) : List Token → Reading Unit
  | [] => (.error .unexpectedEnd, [])
  | token :: rest =>
    if token.kind = kind then (.ok (), rest) else (.error (.unexpectedToken token), rest)

def readArray (ts : List Token) : Reading (List Literal) :=
  match expect .openBracket ts with
  | (.ok (), rest) => readItems [] [] false rest
  | (.error e, rest) => (.error e, rest)

def readItem : List Token → Reading Literal
  | [] => (.error .unexpectedEnd, [])
  | token :: rest =>
    match token.kind with
    | .openBracket =>
      match readItems [] [] false rest with
      | (.ok items, rest) => (.ok (array items), rest)
      | (.error e, rest) => (.error e, rest)
    | _ => (ofToken token, rest)

def readKey : List Token → Reading String
  | [] => (.error .unexpectedEnd, [])
  | token :: rest =>
    match token.kind with
    | .bare content => (.ok content, rest)
    | .quoted content => (.ok content, rest)
    | _ => (.error (.unexpectedToken token), rest)

/-- One `key: item`. -/
def readField (ts : List Token) : Reading (String × Literal) :=
  match readKey ts with
  | (.error e, rest) => (.error e, rest)
  | (.ok key, rest) =>
    match expect .colon rest with
    | (.error e, rest) => (.error e, rest)
    | (.ok (), rest) =>
      match readItem rest with
      | (.error e, rest) => (.error e, rest)
      | (.ok item, rest) => (.ok (key, item), rest)

theorem readItems_length_le (outer : List (List Literal)) (items : List Literal)
    (afterItem : Bool) (ts : List Token) :
    (readItems outer items afterItem ts).2.length ≤ ts.length := by
  fun_induction readItems outer items afterItem ts <;> grind

theorem expect_length_le (kind : TokenKind) (ts : List Token) :
    (expect kind ts).2.length ≤ ts.length := by
  cases ts <;> grind [expect]

theorem readItem_length_le (ts : List Token) : (readItem ts).2.length ≤ ts.length := by
  cases ts with
  | nil => simp [readItem]
  | cons token rest =>
    have := readItems_length_le [] [] false rest
    grind [readItem]

theorem readKey_length_lt {ts : List Token} (h : ts ≠ []) :
    (readKey ts).2.length < ts.length := by
  cases ts <;> grind [readKey]

theorem readField_length_lt {ts : List Token} (h : ts ≠ []) :
    (readField ts).2.length < ts.length := by
  have h₁ := readKey_length_lt h
  have h₂ := expect_length_le .colon (readKey ts).2
  have h₃ := readItem_length_le (expect .colon (readKey ts).2).2
  grind [readField]

/-- Reads on inside an open object where a key or the end has to come next. -/
def readFields (fields : Fields) (ts : List Token) : Reading Fields :=
  match ts with
  | [] => (.error .unexpectedEnd, [])
  | token :: rest =>
    if token.kind = .closeBrace then (.ok fields, rest)
    else
      let field := readField (token :: rest)
      have := readField_length_lt (List.cons_ne_nil token rest)
      match field.1, field.2.head? with
      | .error e, _ => (.error e, field.2)
      | .ok _, none => (.error .unexpectedEnd, [])
      | .ok (key, item), some next =>
        match next.kind with
        | .comma => readFields (fields.insert key item) field.2.tail
        | .closeBrace => (.ok (fields.insert key item), field.2.tail)
        | _ => (.error (.unexpectedToken next), field.2.tail)
termination_by ts.length
decreasing_by
  simp only [List.length_tail, List.length_cons] at *
  omega

def readObject (ts : List Token) : Reading Fields :=
  match expect .openBrace ts with
  | (.ok (), rest) => readFields .empty rest
  | (.error e, rest) => (.error e, rest)

/-- No token may be left; a first one is used up. -/
def finish : List Token → Reading Unit
  | [] => (.ok (), [])
  | token :: rest => (.error (.trailingInput token), rest)

/-- The result of a reader that has to use up all tokens. -/
def whole {α : Type} (reading : Reading α) : Except LiteralError α :=
  match reading with
  | (.error e, _) => .error e
  | (.ok result, rest) => (finish rest).1.map fun _ => result

def arrayOfText (s : Text) : Except LiteralError (List Literal) := whole (readArray (tokens s))

def objectOfText (s : Text) : Except LiteralError Fields := whole (readObject (tokens s))

end Literal

end CellCheck
