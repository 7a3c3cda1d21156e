import CellCheck.Proofs.Program.Blocks

/-!
# The first rejected line

Whether a source reads as a program is decided by its lines one by one. Where some line does not
read, the error is that of the first such line, in whatever blocks the lines stand.
-/

namespace CellCheck.Program

def HasCode (source : Text) (number : Nat) (code : Text) : Prop :=
  code ≠ [] ∧ ∃ raw, source.lines[number]? = some raw ∧ stripComment raw = code

def Accepted (code : Text) : Prop := ∃ reading, Line.ofCode code = .ok reading

/-- The numbered line is rejected and every line of code in front of it is accepted. -/
structure FirstRejected (source : Text) (number : Nat) (e : SyntaxError) : Prop where
  rejected : ∃ code, HasCode source number code ∧ Line.ofCode code = .error e
  earlier : ∀ i < number, ∀ code, HasCode source i code → Accepted code

theorem mem_codeLines_iff {source : Text} {number : Nat} {code : Text} :
    (number, code) ∈ codeLines source ↔ HasCode source number code := by
  have hmem : (number, code) ∈ numbered 0 (source.lines.map stripComment) ↔
      ∃ raw, source.lines[number]? = some raw ∧ stripComment raw = code := by
    simp [numbered, List.mem_zipIdx_iff_getElem?]
  rw [codeLines, ← numbered, List.mem_filter, hmem, HasCode, and_comm]
  simp

theorem codeLines_ascending (source : Text) :
    (codeLines source).Pairwise fun a b => a.1 < b.1 :=
  (pairwise_numbered 0 _).filter _

theorem readLine_eq_error_iff {line : Nat × Text} {e : ParseError} :
    readLine line = .error e ↔ e.line = line.1 + 1 ∧ Line.ofCode line.2 = .error e.error := by
  obtain ⟨number, error⟩ := e
  unfold readLine
  cases Line.ofCode line.2 <;> simp [eq_comm]

theorem exists_readLine_eq_ok_iff {line : Nat × Text} :
    (∃ l, readLine line = .ok l) ↔ Accepted line.2 := by
  constructor
  · rintro ⟨l, hl⟩
    exact ⟨l.2, (readLine_eq_ok_iff.1 hl).2⟩
  · rintro ⟨reading, hreading⟩
    exact ⟨(line.1, reading), readLine_eq_ok_iff.2 ⟨rfl, hreading⟩⟩

theorem exists_ofText_eq_ok_iff {source : Text} :
    (∃ p, ofText source = .ok p) ↔ ∃ readings, (codeLines source).mapM readLine = .ok readings := by
  constructor
  · rintro ⟨p, hp⟩
    obtain ⟨readings, hreadings, -⟩ := map_eq_ok.1 hp
    exact ⟨readings, hreadings⟩
  · rintro ⟨readings, hreadings⟩
    exact ⟨⟨group readings⟩, map_eq_ok.2 ⟨readings, hreadings, rfl⟩⟩

theorem ofText_eq_error_iff {source : Text} {e : ParseError} :
    ofText source = .error e ↔ (codeLines source).mapM readLine = .error e := by
  rw [ofText]
  cases (codeLines source).mapM readLine <;> simp [Except.map]

theorem ofText_eq_error_iff_firstRejected {source : Text} {n : Nat} {e : SyntaxError} :
    ofText source = .error ⟨n, e⟩ ↔ 1 ≤ n ∧ FirstRejected source (n - 1) e := by
  rw [ofText_eq_error_iff, mapM_eq_error_iff_of_ascending Prod.fst (codeLines_ascending source)]
  constructor
  · rintro ⟨⟨number, code⟩, hcode, herror, hearlier⟩
    obtain ⟨rfl, hrejected⟩ : n = number + 1 ∧ Line.ofCode code = .error e :=
      readLine_eq_error_iff.1 herror
    refine ⟨Nat.le_add_left 1 number, ⟨code, mem_codeLines_iff.1 hcode, hrejected⟩, ?_⟩
    intro i hi code' hcode'
    exact exists_readLine_eq_ok_iff.1 (hearlier (i, code') (mem_codeLines_iff.2 hcode') hi)
  · rintro ⟨hn, ⟨code, hcode, hrejected⟩, hearlier⟩
    refine ⟨(n - 1, code), mem_codeLines_iff.2 hcode, readLine_eq_error_iff.2 ⟨?_, hrejected⟩, ?_⟩
    · change n = n - 1 + 1
      omega
    · rintro ⟨i, code'⟩ hcode' hi
      exact exists_readLine_eq_ok_iff.2 (hearlier i hi code' (mem_codeLines_iff.1 hcode'))

/-- A source is rejected with the first of its lines that does not read by itself, counted from one,
and it is accepted just if all of its lines of code read by themselves. -/
theorem error_iff_firstRejected (source : Text) :
    (∀ n e, ofText source = .error ⟨n, e⟩ ↔ 1 ≤ n ∧ FirstRejected source (n - 1) e) ∧
    ((∃ p, ofText source = .ok p) ↔ ∀ i code, HasCode source i code → Accepted code) := by
  constructor
  · exact fun n e => ofText_eq_error_iff_firstRejected
  · rw [exists_ofText_eq_ok_iff, exists_mapM_eq_ok_iff]
    constructor
    · intro h i code hcode
      exact exists_readLine_eq_ok_iff.1 (h (i, code) (mem_codeLines_iff.2 hcode))
    · rintro h ⟨i, code⟩ hcode
      exact exists_readLine_eq_ok_iff.2 (h i code (mem_codeLines_iff.1 hcode))

/-- The fault stands in a loop that nothing ends, behind a line that starts no statement. -/
example : ofText "while:\nMOV C1 C2 # fine\nignored\nMOV C1\nSET".toList =
    .error ⟨4, .invalidMove⟩ := by
  decide +kernel

end CellCheck.Program
