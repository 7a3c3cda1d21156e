import CellCheck.Literal.Reader
import CellCheck.Proofs.NameTable

/-!
# The grammar of literals

    object := "{" [ key ":" item { "," key ":" item } [ "," ] ] "}"
    array  := "[" [ item { "," item } [ "," ] ] "]"
    item   := array | bare | text
    key    := bare | text

A derivation is a tree whose leaves are the columns of the tokens. Its tokens determine it, and it
stands for items or fields. No derivation starts like the rest of another one.
-/

namespace CellCheck

mutual

inductive ItemTree where
  | bare (content : String) (column : Nat)
  | quoted (content : String) (column : Nat)
  | array (a : ArrayTree)

inductive ArrayTree where
  | empty (opening closing : Nat)
  | filled (opening : Nat) (first : ItemTree) (others : ItemsTree) (trailing : Option Nat)
      (closing : Nat)

inductive ItemsTree where
  | nil
  | cons (comma : Nat) (item : ItemTree) (others : ItemsTree)

end

inductive KeyTree where
  | bare (content : String) (column : Nat)
  | quoted (content : String) (column : Nat)

structure FieldTree where
  key : KeyTree
  colon : Nat
  item : ItemTree

inductive ObjectTree where
  | empty (opening closing : Nat)
  | filled (opening : Nat) (first : FieldTree) (others : List (Nat × FieldTree))
      (trailing : Option Nat) (closing : Nat)

def trailingTokens : Option Nat → List Token
  | none => []
  | some column => [⟨.comma, column⟩]

mutual

def ItemTree.tokens : ItemTree → List Token
  | .bare content column => [⟨.bare content, column⟩]
  | .quoted content column => [⟨.quoted content, column⟩]
  | .array a => a.tokens

def ArrayTree.tokens : ArrayTree → List Token
  | .empty opening closing => [⟨.openBracket, opening⟩, ⟨.closeBracket, closing⟩]
  | .filled opening first others trailing closing =>
    ⟨.openBracket, opening⟩ :: (first.tokens ++ (others.tokens ++
      (trailingTokens trailing ++ [⟨.closeBracket, closing⟩])))

def ItemsTree.tokens : ItemsTree → List Token
  | .nil => []
  | .cons comma item others => ⟨.comma, comma⟩ :: (item.tokens ++ others.tokens)

end

mutual

/-- A bare run that reads as a number is one, and every other bare or quoted run is a text. -/
def ItemTree.literal : ItemTree → Literal
  | .bare content _ =>
    match Binary64.ofText? content.toList with
    | some value => .number value
    | none => .text content
  | .quoted content _ => .text content
  | .array a => .array a.items

def ArrayTree.items : ArrayTree → List Literal
  | .empty _ _ => []
  | .filled _ first others _ _ => first.literal :: others.items

def ItemsTree.items : ItemsTree → List Literal
  | .nil => []
  | .cons _ item others => item.literal :: others.items

end

def KeyTree.tokens : KeyTree → List Token
  | bare content column => [⟨.bare content, column⟩]
  | quoted content column => [⟨.quoted content, column⟩]

def KeyTree.name : KeyTree → String
  | bare content _ => content
  | quoted content _ => content

def FieldTree.tokens (t : FieldTree) : List Token :=
  t.key.tokens ++ ⟨.colon, t.colon⟩ :: t.item.tokens

def FieldTree.field (t : FieldTree) : String × Literal := (t.key.name, t.item.literal)

def followingTokens (others : List (Nat × FieldTree)) : List Token :=
  others.flatMap fun other => ⟨.comma, other.1⟩ :: other.2.tokens

def ObjectTree.tokens : ObjectTree → List Token
  | empty opening closing => [⟨.openBrace, opening⟩, ⟨.closeBrace, closing⟩]
  | filled opening first others trailing closing =>
    ⟨.openBrace, opening⟩ :: (first.tokens ++ (followingTokens others ++
      (trailingTokens trailing ++ [⟨.closeBrace, closing⟩])))

def ObjectTree.written : ObjectTree → List (String × Literal)
  | empty _ _ => []
  | filled _ first others _ _ => first.field :: others.map fun other => other.2.field

/-- The fields that a list of written fields stands for: the distinct keys in the order of their
first occurrences, each with the item of its last occurrence. -/
def Denotes (written : List (String × Literal)) (fields : Fields) : Prop :=
  fields.names = (written.map Prod.fst).eraseDups ∧
    ∀ key, fields.get? key = written.reverse.lookup key

@[simp] theorem followingTokens_nil : followingTokens [] = [] := rfl

@[simp] theorem followingTokens_cons (other : Nat × FieldTree) (others : List (Nat × FieldTree)) :
    followingTokens (other :: others) =
      ⟨.comma, other.1⟩ :: (other.2.tokens ++ followingTokens others) := rfl

section Unique

theorem ItemTree.exists_tokens_eq_cons (t : ItemTree) :
    ∃ token rest, t.tokens = token :: rest ∧ token.kind ≠ .comma ∧ token.kind ≠ .closeBracket := by
  cases t with
  | bare content column => exact ⟨_, _, rfl, nofun, nofun⟩
  | quoted content column => exact ⟨_, _, rfl, nofun, nofun⟩
  | array a => cases a <;> exact ⟨_, _, rfl, nofun, nofun⟩

/-- What follows an open array ends at the same bracket in every derivation. -/
theorem closing_not_item (t : ItemTree) (closing : Nat) (r s : List Token) :
    ⟨.closeBracket, closing⟩ :: r ≠ t.tokens ++ s := by
  obtain ⟨token, rest, ht, -, hne⟩ := t.exists_tokens_eq_cons
  rw [ht, List.cons_append]
  intro h
  exact hne (by rw [← (List.cons.inj h).1])

mutual

theorem ItemTree.tokens_append_inj (t u : ItemTree) (r s : List Token)
    (h : t.tokens ++ r = u.tokens ++ s) : t = u ∧ r = s := by
  match t, u with
  | .array a, .array b =>
    obtain ⟨rfl, rfl⟩ := a.tokens_append_inj b r s h
    exact ⟨rfl, rfl⟩
  | .bare content column, .bare content' column' => simp_all [ItemTree.tokens]
  | .quoted content column, .quoted content' column' => simp_all [ItemTree.tokens]
  | .bare content column, .quoted content' column' => simp [ItemTree.tokens] at h
  | .quoted content column, .bare content' column' => simp [ItemTree.tokens] at h
  | .bare content column, .array b => cases b <;> simp [ItemTree.tokens, ArrayTree.tokens] at h
  | .quoted content column, .array b => cases b <;> simp [ItemTree.tokens, ArrayTree.tokens] at h
  | .array a, .bare content column => cases a <;> simp [ItemTree.tokens, ArrayTree.tokens] at h
  | .array a, .quoted content column => cases a <;> simp [ItemTree.tokens, ArrayTree.tokens] at h

theorem ArrayTree.tokens_append_inj (a b : ArrayTree) (r s : List Token)
    (h : a.tokens ++ r = b.tokens ++ s) : a = b ∧ r = s := by
  match a, b with
  | .empty _ _, .empty _ _ => simp_all [ArrayTree.tokens]
  | .empty _ _, .filled _ first others _ _ =>
    simp only [ArrayTree.tokens, List.cons_append, List.nil_append, List.append_assoc] at h
    exact absurd (List.cons.inj h).2 (closing_not_item first _ _ _)
  | .filled _ first others _ _, .empty _ _ =>
    simp only [ArrayTree.tokens, List.cons_append, List.nil_append, List.append_assoc] at h
    exact absurd (List.cons.inj h).2.symm (closing_not_item first _ _ _)
  | .filled o first others trailing c, .filled o' first' others' trailing' c' =>
    simp only [ArrayTree.tokens, List.cons_append, List.append_assoc, List.nil_append,
      List.cons.injEq, Token.mk.injEq, true_and] at h
    obtain ⟨rfl, hfirst⟩ := h
    obtain ⟨rfl, hothers⟩ := first.tokens_append_inj first' _ _ hfirst
    obtain ⟨rfl, rfl, rfl, rfl⟩ := others.tokens_append_inj others' _ _ _ _ _ _ hothers
    exact ⟨rfl, rfl⟩

theorem ItemsTree.tokens_append_inj (o o' : ItemsTree) (trailing trailing' : Option Nat)
    (c c' : Nat) (r s : List Token)
    (h : o.tokens ++ (trailingTokens trailing ++ ⟨.closeBracket, c⟩ :: r) =
      o'.tokens ++ (trailingTokens trailing' ++ ⟨.closeBracket, c'⟩ :: s)) :
    o = o' ∧ trailing = trailing' ∧ c = c' ∧ r = s := by
  match o, o' with
  | .nil, .nil =>
    cases trailing <;> cases trailing' <;> simp_all [ItemsTree.tokens, trailingTokens]
  | .nil, .cons _ item' _ =>
    cases trailing with
    | none => simp [ItemsTree.tokens, trailingTokens] at h
    | some column =>
      simp only [ItemsTree.tokens, trailingTokens, List.cons_append, List.nil_append,
        List.append_assoc] at h
      exact absurd (List.cons.inj h).2 (closing_not_item item' _ _ _)
  | .cons _ item _, .nil =>
    cases trailing' with
    | none => simp [ItemsTree.tokens, trailingTokens] at h
    | some column =>
      simp only [ItemsTree.tokens, trailingTokens, List.cons_append, List.nil_append,
        List.append_assoc] at h
      exact absurd (List.cons.inj h).2.symm (closing_not_item item _ _ _)
  | .cons comma item others, .cons comma' item' others' =>
    simp only [ItemsTree.tokens, List.cons_append, List.append_assoc, List.cons.injEq,
      Token.mk.injEq, true_and] at h
    obtain ⟨rfl, hitem⟩ := h
    obtain ⟨rfl, hothers⟩ := item.tokens_append_inj item' _ _ hitem
    obtain ⟨rfl, rfl, rfl, rfl⟩ := others.tokens_append_inj others' _ _ _ _ _ _ hothers
    exact ⟨rfl, rfl, rfl, rfl⟩

end

theorem KeyTree.tokens_append_inj {k k' : KeyTree} {r s : List Token}
    (h : k.tokens ++ r = k'.tokens ++ s) : k = k' ∧ r = s := by
  cases k <;> cases k' <;> simp_all [KeyTree.tokens]

theorem FieldTree.tokens_append_inj {t u : FieldTree} {r s : List Token}
    (h : t.tokens ++ r = u.tokens ++ s) : t = u ∧ r = s := by
  obtain ⟨key, colon, item⟩ := t
  obtain ⟨key', colon', item'⟩ := u
  simp only [FieldTree.tokens, List.append_assoc, List.cons_append] at h
  obtain ⟨rfl, hcolon⟩ := KeyTree.tokens_append_inj h
  simp only [List.cons.injEq, Token.mk.injEq, true_and] at hcolon
  obtain ⟨rfl, hitem⟩ := hcolon
  obtain ⟨rfl, hrest⟩ := item.tokens_append_inj item' _ _ hitem
  exact ⟨rfl, hrest⟩

theorem closing_not_field (t : FieldTree) (closing : Nat) (r s : List Token) :
    ⟨.closeBrace, closing⟩ :: r ≠ t.tokens ++ s := by
  obtain ⟨key, colon, item⟩ := t
  cases key <;> simp [FieldTree.tokens, KeyTree.tokens]

theorem followingTokens_append_inj {o o' : List (Nat × FieldTree)} {trailing trailing' : Option Nat}
    {c c' : Nat} {r s : List Token}
    (h : followingTokens o ++ (trailingTokens trailing ++ ⟨.closeBrace, c⟩ :: r) =
      followingTokens o' ++ (trailingTokens trailing' ++ ⟨.closeBrace, c'⟩ :: s)) :
    o = o' ∧ trailing = trailing' ∧ c = c' ∧ r = s := by
  induction o generalizing o' with
  | nil =>
    cases o' with
    | nil => cases trailing <;> cases trailing' <;> simp_all [trailingTokens]
    | cons other others =>
      cases trailing with
      | none => simp [trailingTokens] at h
      | some column =>
        simp only [followingTokens_nil, followingTokens_cons, trailingTokens,
          List.cons_append, List.nil_append, List.append_assoc] at h
        exact absurd (List.cons.inj h).2 (closing_not_field other.2 _ _ _)
  | cons other others ih =>
    cases o' with
    | nil =>
      cases trailing' with
      | none => simp [trailingTokens] at h
      | some column =>
        simp only [followingTokens_nil, followingTokens_cons, trailingTokens,
          List.cons_append, List.nil_append, List.append_assoc] at h
        exact absurd (List.cons.inj h).2.symm (closing_not_field other.2 _ _ _)
    | cons other' others' =>
      obtain ⟨comma, field⟩ := other
      obtain ⟨comma', field'⟩ := other'
      simp only [followingTokens_cons, List.cons_append, List.append_assoc,
        List.cons.injEq, Token.mk.injEq, true_and] at h
      obtain ⟨rfl, hfield⟩ := h
      obtain ⟨rfl, hothers⟩ := FieldTree.tokens_append_inj hfield
      obtain ⟨rfl, rfl, rfl, rfl⟩ := ih hothers
      exact ⟨rfl, rfl, rfl, rfl⟩

theorem ObjectTree.tokens_append_inj {t u : ObjectTree} {r s : List Token}
    (h : t.tokens ++ r = u.tokens ++ s) : t = u ∧ r = s := by
  match t, u with
  | .empty _ _, .empty _ _ => simp_all [ObjectTree.tokens]
  | .empty _ _, .filled _ first _ _ _ =>
    simp only [ObjectTree.tokens, List.cons_append, List.nil_append, List.append_assoc] at h
    exact absurd (List.cons.inj h).2 (closing_not_field first _ _ _)
  | .filled _ first _ _ _, .empty _ _ =>
    simp only [ObjectTree.tokens, List.cons_append, List.nil_append, List.append_assoc] at h
    exact absurd (List.cons.inj h).2.symm (closing_not_field first _ _ _)
  | .filled o first others trailing c, .filled o' first' others' trailing' c' =>
    simp only [ObjectTree.tokens, List.cons_append, List.append_assoc, List.nil_append,
      List.cons.injEq, Token.mk.injEq, true_and] at h
    obtain ⟨rfl, hfirst⟩ := h
    obtain ⟨rfl, hothers⟩ := FieldTree.tokens_append_inj hfirst
    obtain ⟨rfl, rfl, rfl, rfl⟩ := followingTokens_append_inj hothers
    exact ⟨rfl, rfl⟩

end Unique

end CellCheck
