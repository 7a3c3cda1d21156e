import CellCheck.Proofs.Literal.Stopping

/-!
# The token that an error reports

Tokens are viable if something can follow that makes them a complete literal. Whole literals are
rejected at the first token with which they are no longer viable. A reader that fails has used up
this token and those before it, and one that comes to the end too early has used up all.
-/

namespace CellCheck

def LiteralError.token? : LiteralError → Option Token
  | unexpectedEnd => none
  | unexpectedToken token => some token
  | nestedObject token => some token
  | trailingInput token => some token

namespace Literal

def IsArray (ts : List Token) : Prop := ∃ a : ArrayTree, ts = a.tokens

def IsObject (ts : List Token) : Prop := ∃ o : ObjectTree, ts = o.tokens

def Viable (complete : List Token → Prop) (ts : List Token) : Prop := ∃ more, complete (ts ++ more)

def Unfinished (complete : List Token → Prop) (ts : List Token) : Prop :=
  ∃ more, more ≠ [] ∧ complete (ts ++ more)

/-- The token is the first one with which the tokens are not viable, and no complete literal ends in
front of it. -/
structure FirstOffence (complete : List Token → Prop) (ts before : List Token) (token : Token) :
    Prop where
  split : ∃ rest, ts = before ++ token :: rest
  viable : ∀ front, front <+: before → Viable complete front
  unfinished : Unfinished complete before
  not_viable : ¬ Viable complete (before ++ [token])

structure ReportsOffences {α : Type} (complete : List Token → Prop)
    (read : List Token → Reading α) : Prop where
  accepted_iff : ∀ ts, (∃ a, whole (read ts) = .ok a) ↔ complete ts
  unexpectedEnd_iff : ∀ ts, whole (read ts) = .error .unexpectedEnd ↔ Unfinished complete ts
  trailingInput_iff : ∀ ts token, whole (read ts) = .error (.trailingInput token) ↔
    ∃ before rest, ts = before ++ token :: rest ∧ complete before
  nestedObject_iff : ∀ ts token, whole (read ts) = .error (.nestedObject token) ↔
    ∃ before, FirstOffence complete ts before token ∧
      (token.kind = .openBrace ∧ itemMayStart before)
  unexpectedToken_iff : ∀ ts token, whole (read ts) = .error (.unexpectedToken token) ↔
    ∃ before, FirstOffence complete ts before token ∧
      ¬ (token.kind = .openBrace ∧ itemMayStart before)

section Whole

variable {α : Type} {complete : List Token → Prop} {read : List Token → Reading α}

theorem Viable.of_append {ts more : List Token} (h : Viable complete (ts ++ more)) :
    Viable complete ts := by
  obtain ⟨rest, hrest⟩ := h
  exact ⟨more ++ rest, List.append_assoc ts more rest ▸ hrest⟩

theorem Unfinished.viable {ts : List Token} (h : Unfinished complete ts) : Viable complete ts := by
  obtain ⟨more, -, hmore⟩ := h
  exact ⟨more, hmore⟩

theorem FirstOffence.concat_prefix {ts before : List Token} {token : Token}
    (h : FirstOffence complete ts before token) : before ++ [token] <+: ts := by
  obtain ⟨rest, rfl⟩ := h.split
  exact ⟨rest, List.append_assoc before [token] rest⟩

theorem FirstOffence.not_viable_of_prefix {ts before us : List Token} {token : Token}
    (h : FirstOffence complete ts before token) (hbefore : before ++ [token] <+: us) :
    ¬ Viable complete us := by
  obtain ⟨more, rfl⟩ := hbefore
  exact fun hviable => h.not_viable hviable.of_append

/-- The tokens up to a first offence go no further than those up to any other one. -/
theorem FirstOffence.unique {ts before before' : List Token} {token token' : Token}
    (h : FirstOffence complete ts before token) (h' : FirstOffence complete ts before' token') :
    before = before' ∧ token = token' := by
  have heq : before ++ [token] = before' ++ [token'] := by
    rcases List.prefix_or_prefix_of_prefix h.concat_prefix h'.concat_prefix with hle | hge
    · rcases List.prefix_concat_iff.1 hle with heq | hfront
      · exact heq
      · exact absurd (h'.viable _ hfront) h.not_viable
    · rcases List.prefix_concat_iff.1 hge with heq | hfront
      · exact heq.symm
      · exact absurd (h.viable _ hfront) h'.not_viable
  exact ⟨List.append_inj_left' heq rfl, List.singleton_inj.1 (List.append_inj_right' heq rfl)⟩

theorem rejection_eq_nestedObject_iff {before : List Token} {token offending : Token} :
    rejection before token = .nestedObject offending ↔
      token = offending ∧ (token.kind = .openBrace ∧ itemMayStart before) := by
  unfold rejection
  split <;> simp [*]

theorem rejection_eq_unexpectedToken_iff {before : List Token} {token offending : Token} :
    rejection before token = .unexpectedToken offending ↔
      token = offending ∧ ¬ (token.kind = .openBrace ∧ itemMayStart before) := by
  unfold rejection
  split <;> simp [*]

theorem rejection_ne (before : List Token) (token : Token) :
    rejection before token ≠ .unexpectedEnd ∧
      ∀ offending, rejection before token ≠ .trailingInput offending := by
  unfold rejection
  split <;> exact ⟨nofun, nofun⟩

/-- The reader stops as it should on all tokens, and it is done with nothing left just on the
complete literals. -/
structure Recognizes (complete : List Token → Prop) (read : List Token → Reading α) : Prop where
  stops : ∀ ts, Stops [] read ts
  complete_iff : ∀ ts, complete ts ↔ ∃ a, read ts = (.ok a, [])

namespace Recognizes

variable (h : Recognizes complete read) {ts before : List Token} {token : Token}

include h

theorem read_append (hcomplete : complete ts) : ∃ a, ∀ more, read (ts ++ more) = (.ok a, more) := by
  obtain ⟨a, ha⟩ := (h.complete_iff ts).1 hcomplete
  cases h.stops ts with
  | done used rest b hts hused =>
    rw [hts, hused] at ha
    obtain ⟨-, rfl⟩ := Prod.mk.inj ha
    rw [List.append_nil] at hts
    exact ⟨b, hts ▸ hused⟩
  | waits completion b hwaits hcompletion =>
    rw [hwaits] at ha
    cases ha
  | rejects used token rest hts hwaits hused =>
    rw [hts, hused] at ha
    cases ha

theorem complete_of_read {a : α} (hread : ∀ more, read (ts ++ more) = (.ok a, more)) :
    complete ts :=
  (h.complete_iff ts).2 ⟨a, List.append_nil ts ▸ hread []⟩

theorem waits_iff_unfinished : read ts = (.error .unexpectedEnd, []) ↔ Unfinished complete ts := by
  constructor
  · intro hwaits
    cases h.stops ts with
    | done used rest a hts hused =>
      rw [hts, hused] at hwaits
      cases hwaits
    | waits completion a _ hcompletion =>
      refine ⟨completion, ?_, h.complete_of_read (a := a) fun more => ?_⟩
      · rintro rfl
        have hread := hcompletion []
        rw [List.append_nil, List.append_nil, hwaits] at hread
        cases hread
      · rw [List.append_assoc, hcompletion]
    | rejects used token rest hts _ hused =>
      rw [hts, hused] at hwaits
      exact absurd (Except.error.inj (Prod.mk.inj hwaits).1) (rejection_ne _ _).1
  · rintro ⟨more, hne, hcomplete⟩
    obtain ⟨a, ha⟩ := (h.complete_iff _).1 hcomplete
    cases h.stops ts with
    | done used rest b hts hused =>
      rw [hts, List.append_assoc, hused] at ha
      exact absurd (List.append_eq_nil_iff.1 (Prod.mk.inj ha).2).2 hne
    | waits completion b hwaits _ => exact hwaits
    | rejects used token rest hts _ hused =>
      rw [hts, List.append_assoc, List.cons_append, hused] at ha
      cases ha

theorem not_viable_of_read {e : LiteralError}
    (hread : ∀ more, read (before ++ token :: more) = (.error e, more)) :
    ¬ Viable complete (before ++ [token]) := by
  rintro ⟨more, hmore⟩
  obtain ⟨a, ha⟩ := (h.complete_iff _).1 hmore
  rw [List.append_assoc, List.singleton_append, hread] at ha
  cases ha

theorem firstOffence_of_read (hts : ∃ rest, ts = before ++ token :: rest)
    (hwaits : read before = (.error .unexpectedEnd, [])) {e : LiteralError}
    (hread : ∀ more, read (before ++ token :: more) = (.error e, more)) :
    FirstOffence complete ts before token := by
  have hunfinished := h.waits_iff_unfinished.1 hwaits
  refine ⟨hts, fun front hfront => ?_, hunfinished, h.not_viable_of_read hread⟩
  obtain ⟨more, rfl⟩ := hfront
  exact hunfinished.viable.of_append

/-- The reader can stop neither in front of the first offence nor behind it. -/
theorem read_of_firstOffence (hoffence : FirstOffence complete ts before token) :
    ∃ rest, read ts = (.error (rejection before token), rest) := by
  cases h.stops ts with
  | done used rest a hused hread =>
    have hviable : Viable complete used :=
      ⟨[], (List.append_nil used).symm ▸ h.complete_of_read hread⟩
    rcases List.prefix_or_prefix_of_prefix ⟨rest, hused.symm⟩ hoffence.concat_prefix with hle | hge
    · rcases List.prefix_concat_iff.1 hle with heq | ⟨more, hmore⟩
      · exact absurd (heq ▸ hviable) hoffence.not_viable
      · -- a complete literal in front of the offence leaves nothing to wait for
        have hwaits := h.waits_iff_unfinished.2 hoffence.unfinished
        rw [← hmore, hread] at hwaits
        cases hwaits
    · exact absurd hviable (hoffence.not_viable_of_prefix hge)
  | waits completion a hwaits _ =>
    exact absurd (h.waits_iff_unfinished.1 hwaits).viable
      (hoffence.not_viable_of_prefix hoffence.concat_prefix)
  | rejects used offending rest hused hwaits hread =>
    obtain ⟨rfl, rfl⟩ := (h.firstOffence_of_read ⟨rest, hused⟩ hwaits hread).unique hoffence
    exact ⟨rest, by rw [hused, hread, List.nil_append]⟩

theorem whole_eq_rejection_iff {e : LiteralError} (hend : e ≠ .unexpectedEnd)
    (htrailing : ∀ token, e ≠ .trailingInput token) :
    whole (read ts) = .error e ↔
      ∃ before token, FirstOffence complete ts before token ∧ rejection before token = e := by
  constructor
  · intro hwhole
    cases h.stops ts with
    | done used rest a hts hused =>
      rw [hts, hused] at hwhole
      cases rest with
      | nil => cases hwhole
      | cons token rest => exact absurd (Except.error.inj hwhole).symm (htrailing token)
    | waits completion a hwaits _ =>
      rw [hwaits] at hwhole
      exact absurd (Except.error.inj hwhole).symm hend
    | rejects used token rest hts hwaits hused =>
      refine ⟨used, token, h.firstOffence_of_read ⟨rest, hts⟩ hwaits hused, ?_⟩
      rw [hts, hused] at hwhole
      exact Except.error.inj hwhole
  · rintro ⟨before, token, hoffence, rfl⟩
    obtain ⟨rest, hread⟩ := h.read_of_firstOffence hoffence
    rw [hread, whole]

theorem whole_eq_unexpectedEnd_iff :
    whole (read ts) = .error .unexpectedEnd ↔ Unfinished complete ts := by
  rw [← h.waits_iff_unfinished]
  constructor
  · intro hwhole
    cases h.stops ts with
    | done used rest a hts hused =>
      rw [hts, hused] at hwhole
      cases rest <;> cases hwhole
    | waits completion a hwaits _ => exact hwaits
    | rejects used token rest hts _ hused =>
      rw [hts, hused] at hwhole
      exact absurd (Except.error.inj hwhole) (rejection_ne used token).1
  · intro hwaits
    rw [hwaits, whole]

theorem whole_eq_trailingInput_iff :
    whole (read ts) = .error (.trailingInput token) ↔
      ∃ before rest, ts = before ++ token :: rest ∧ complete before := by
  constructor
  · intro hwhole
    cases h.stops ts with
    | done used rest a hts hused =>
      rw [hts, hused] at hwhole
      cases rest with
      | nil => cases hwhole
      | cons next rest =>
        obtain rfl := LiteralError.trailingInput.inj (Except.error.inj hwhole)
        exact ⟨used, rest, hts, h.complete_of_read hused⟩
    | waits completion a hwaits _ =>
      rw [hwaits] at hwhole
      cases hwhole
    | rejects used offending rest hts _ hused =>
      rw [hts, hused] at hwhole
      exact absurd (Except.error.inj hwhole) ((rejection_ne used offending).2 token)
  · rintro ⟨before, rest, rfl, hcomplete⟩
    obtain ⟨a, hread⟩ := h.read_append hcomplete
    rw [hread]
    rfl

/-- A reader that stops as it should and accepts the complete literals reports offences. -/
theorem reportsOffences : ReportsOffences complete read where
  accepted_iff ts := by
    rw [h.complete_iff]
    exact exists_congr fun a => whole_eq_ok_iff
  unexpectedEnd_iff _ := h.whole_eq_unexpectedEnd_iff
  trailingInput_iff _ _ := h.whole_eq_trailingInput_iff
  nestedObject_iff ts token := by
    rw [h.whole_eq_rejection_iff (e := .nestedObject token) nofun nofun]
    simp only [rejection_eq_nestedObject_iff]
    constructor
    · rintro ⟨before, _, hoffence, rfl, hplace⟩
      exact ⟨before, hoffence, hplace⟩
    · rintro ⟨before, hoffence, hplace⟩
      exact ⟨before, token, hoffence, rfl, hplace⟩
  unexpectedToken_iff ts token := by
    rw [h.whole_eq_rejection_iff (e := .unexpectedToken token) nofun nofun]
    simp only [rejection_eq_unexpectedToken_iff]
    constructor
    · rintro ⟨before, _, hoffence, rfl, hplace⟩
      exact ⟨before, hoffence, hplace⟩
    · rintro ⟨before, hoffence, hplace⟩
      exact ⟨before, token, hoffence, rfl, hplace⟩

end Recognizes

theorem recognizes_readArray : Recognizes IsArray readArray where
  stops := stops_readArray
  complete_iff ts := by
    simp only [readArray_eq_ok_iff, List.append_nil, IsArray]
    exact ⟨fun ⟨a, ha⟩ => ⟨a.items, a, ha, rfl⟩, fun ⟨_, a, ha, _⟩ => ⟨a, ha⟩⟩

theorem recognizes_readObject : Recognizes IsObject readObject where
  stops := stops_readObject
  complete_iff ts := by
    simp only [readObject_eq_ok_iff, List.append_nil, IsObject]
    exact ⟨fun ⟨o, ho⟩ => ⟨_, o, ho, rfl⟩, fun ⟨_, o, ho, _⟩ => ⟨o, ho⟩⟩

end Whole

section Steps

/-- Steps of one reader, each of which goes on where the one before has stopped. -/
inductive Step where
  | array
  | object
  | finish
  deriving DecidableEq, Repr

namespace Step

/-- What the step reports and leaves, without the literal that it reads. -/
def read : Step → List Token → Reading Unit
  | array => andThen readArray fun _ rest => (.ok (), rest)
  | object => andThen readObject fun _ rest => (.ok (), rest)
  | finish => Literal.finish

def tokensLeft (steps : List Step) (ts : List Token) : List Token :=
  steps.foldl (fun ts step => (step.read ts).2) ts

/-- The step takes some tokens without objection and fails at the one behind them, whatever
follows. -/
structure FailsAt (step : Step) (used : List Token) (token : Token) (e : LiteralError) : Prop where
  no_objection : ∀ e', (step.read used).1 = .error e' → e' = .unexpectedEnd
  fails : ∀ more, step.read (used ++ token :: more) = (.error e, more)

structure UsesUp (step : Step) (ts : List Token) : Prop where
  left_suffix : (step.read ts).2 <:+ ts
  up_to_token : ∀ e token, (step.read ts).1 = .error e → e.token? = some token →
    ∃ used, ts = used ++ token :: (step.read ts).2 ∧ step.FailsAt used token e
  all : (step.read ts).1 = .error .unexpectedEnd → (step.read ts).2 = []

theorem token?_rejection (before : List Token) (token : Token) :
    (rejection before token).token? = some token := by
  unfold rejection
  split <;> rfl

theorem usesUp_of_stops {step : Step} {ts : List Token} (h : Stops [] step.read ts) :
    step.UsesUp ts := by
  cases h with
  | done used rest a hts hused =>
    have hread : step.read ts = (.ok a, rest) := hts ▸ hused rest
    refine ⟨⟨used, by rw [hread, hts]⟩, ?_, ?_⟩
    · intro e token he
      rw [hread] at he
      cases he
    · intro he
      rw [hread] at he
      cases he
  | waits completion a hwaits _ =>
    refine ⟨⟨ts, by rw [hwaits, List.append_nil]⟩, ?_, fun _ => by rw [hwaits]⟩
    intro e token he htoken
    rw [hwaits] at he
    obtain rfl := Except.error.inj he
    cases htoken
  | rejects used offending rest hts hwaits hused =>
    have hread : step.read ts = (.error (rejection used offending), rest) := hts ▸ hused rest
    refine ⟨⟨used ++ [offending], by rw [hread, hts, List.append_assoc]; rfl⟩, ?_, ?_⟩
    · intro e token he htoken
      rw [hread] at he ⊢
      obtain rfl := Except.error.inj he
      rw [token?_rejection] at htoken
      obtain rfl := Option.some.inj htoken
      refine ⟨used, hts, fun e' he' => ?_, hused⟩
      rw [hwaits] at he'
      exact (Except.error.inj he').symm
    · intro he
      rw [hread] at he
      exact absurd (Except.error.inj he) (rejection_ne used offending).1

theorem usesUp_finish (ts : List Token) : finish.UsesUp ts := by
  cases ts with
  | nil => exact ⟨List.suffix_rfl, nofun, nofun⟩
  | cons token ts =>
    refine ⟨List.suffix_cons token ts, ?_, nofun⟩
    intro e offending he hoffending
    obtain rfl := Except.error.inj he
    obtain rfl := Option.some.inj hoffending
    exact ⟨[], rfl, nofun, fun _ => rfl⟩

theorem usesUp (step : Step) (ts : List Token) : step.UsesUp ts := by
  cases step with
  | array =>
    exact usesUp_of_stops ((stops_readArray ts).andThen
      (fun _ _ rest _ _ => .done [] rest () rfl fun _ => rfl) fun _ => ⟨[], (), fun _ => rfl⟩)
  | object =>
    exact usesUp_of_stops ((stops_readObject ts).andThen
      (fun _ _ rest _ _ => .done [] rest () rfl fun _ => rfl) fun _ => ⟨[], (), fun _ => rfl⟩)
  | finish => exact usesUp_finish ts

theorem tokensLeft_suffix (steps : List Step) (ts : List Token) : tokensLeft steps ts <:+ ts := by
  induction steps generalizing ts with
  | nil => exact List.suffix_rfl
  | cons step steps ih => exact (ih _).trans (step.usesUp ts).left_suffix

end Step

/-- Reading a whole array or object reports the end of the tokens just if they are the beginning of
a longer literal, a token behind a complete literal as trailing, and otherwise the first token with
which the tokens are not viable: an opening brace where an item may start as a nested object, any
other token as unexpected. In a sequence of steps every failing step has used up the tokens up to
the one that it reports, or all tokens if it reports their end. -/
theorem errors_report_first_offence :
    ReportsOffences IsArray readArray ∧ ReportsOffences IsObject readObject ∧
      ∀ (steps : List Step) (ts : List Token), Step.tokensLeft steps ts <:+ ts ∧
        ∀ step : Step, step.UsesUp (Step.tokensLeft steps ts) :=
  ⟨recognizes_readArray.reportsOffences, recognizes_readObject.reportsOffences, fun steps ts =>
    ⟨Step.tokensLeft_suffix steps ts, fun step => step.usesUp (Step.tokensLeft steps ts)⟩⟩

/-- A brace is a nested object behind a trailing comma of an array, and unexpected where a key has
to come. -/
example : whole (readArray (tokens "[1, \x7b".toList)) = .error (.nestedObject ⟨.openBrace, 4⟩) ∧
    whole (readObject (tokens "\x7ba: 1, \x7b".toList)) = .error (.unexpectedToken ⟨.openBrace, 7⟩) := by
  decide +kernel

end Steps

end Literal

end CellCheck
