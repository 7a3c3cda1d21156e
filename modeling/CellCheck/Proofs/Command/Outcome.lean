import CellCheck.Command.Run
import Mathlib.Algebra.GroupWithZero.Nat
import Mathlib.Data.List.Basic

/-!
# What comes of a run

However settings files are read, whether a run passes is decided by the reports on its files and by
whether warnings are denied. So neither the order of the files nor what is printed has a part in it.
In text format a run prints one block for each file and then one line with the numbers of all errors
and warnings.
-/

namespace CellCheck

def Holds (files : Files) (path : String) (source : Text) : Prop :=
  files path = .content (List.utf8Encode source)

def Readable (files : Files) (path : String) : Prop := ∃ source, Holds files path source

def sourceOf (files : Files) (path : String) : Text := (files path).text?.getD []

def reportOf (files : Files) (path : String) : Report := Report.check path (sourceOf files path)

def Report.Passes (r : Report) (denied : Bool) : Prop :=
  ∀ d ∈ r.diagnostics, d.severity ≠ .error ∧ (denied = true → d.severity ≠ .warning)

/-- The settings before the options are added, from a file if there is one. -/
def Settings.base (read : Reader) (files : Files) (config : Option String) :
    Except RunError Settings :=
  match config with
  | none => .ok {}
  | some path => load read files path

/-- Both runs end in the same way, though maybe at different files that cannot be read. -/
structure Outcome.EndsLike (o o' : Outcome) : Prop where
  ok_iff : ∀ passed, o.result = .ok passed ↔ o'.result = .ok passed
  fileOpen_iff : (∃ path, o.result = .error (.fileOpen path)) ↔
    ∃ path, o'.result = .error (.fileOpen path)

/-- The invocations differ at most in their files and in what is printed. -/
structure Invocation.Agrees (inv inv' : Invocation) : Prop where
  config : inv.config = inv'.config
  denyWarnings : inv.denyWarnings = inv'.denyWarnings

namespace Run

def block (settings : Settings) (quiet : Bool) (path : String) (source : Text) : Text :=
  announcement settings quiet path ++
    findingsText settings quiet source (Report.check path source)

def summary (passed : Bool) (errors warnings : Nat) : Text :=
  (if passed then Style.apply [.green, .bold] "ok".toList
    else Style.apply [.red, .bold] "failed".toList) ++
    ": ".toList ++ Numeral.decimal errors ++ " error(s), ".toList ++
    Numeral.decimal warnings ++ " warning(s)".toList ++ ['\n']

/-- With these settings under its options, the run ends and prints as the reports on its files
tell. -/
structure DecidedByReports (read : Settings.Reader) (files : Files) (inv : Invocation)
    (base : Settings) : Prop where
  fileOpen_iff : (∃ path, (run files inv read).result = .error (.fileOpen path)) ↔
    ∃ path ∈ inv.files, ¬ Readable files path
  first_unreadable : ∀ path, (run files inv read).result = .error (.fileOpen path) →
    ∃ front rest, inv.files = front ++ path :: rest ∧ ¬ Readable files path ∧
      ∀ earlier ∈ front, Readable files earlier
  otherwise : (∀ path ∈ inv.files, Readable files path) →
    ∃ passed, (run files inv read).result = .ok passed ∧ (passed = true ↔
      ∀ path ∈ inv.files, (reportOf files path).Passes (base.denyWarnings || inv.denyWarnings))
  printing_irrelevant : ∀ inv', inv.Agrees inv' → inv.files = inv'.files →
    (run files inv' read).result = (run files inv read).result
  order_irrelevant : ∀ inv', inv.Agrees inv' → inv.files.Perm inv'.files →
    (run files inv' read).EndsLike (run files inv read)
  denying : (run files { inv with denyWarnings := true } read).result = .ok true →
    (run files inv read).result = .ok true
  text_output : inv.format.getD base.format = .text → (∀ path ∈ inv.files, Readable files path) →
    ∃ passed, (run files inv read).result = .ok passed ∧
      (run files inv read).standardOutput =
        (inv.files.flatMap fun path =>
          block (base.withOptions inv) inv.quiet path (sourceOf files path)) ++
        summary passed (inv.files.map fun path => (reportOf files path).errors).sum
          (inv.files.map fun path => (reportOf files path).warnings).sum

end Run

section Reading

theorem FileState.text?_eq_some_iff {file : FileState} {source : Text} :
    file.text? = some source ↔ file = .content (List.utf8Encode source) := by
  cases file with
  | content bytes =>
    rw [text?, Option.map_eq_some_iff, content.injEq]
    constructor
    · rintro ⟨s, hs, rfl⟩
      unfold String.fromUTF8? at hs
      split_ifs at hs with hvalid
      obtain rfl := Option.some.inj hs
      exact (String.utf8Encode_toList (b := String.fromUTF8 bytes hvalid)).symm
    · rintro rfl
      exact ⟨String.ofList source, dif_pos ByteArray.isValidUTF8_utf8Encode, String.toList_ofList⟩
  | missing => exact ⟨nofun, nofun⟩
  | unreadable => exact ⟨nofun, nofun⟩

variable {files : Files} {path : String}

theorem text?_of_readable (h : Readable files path) :
    (files path).text? = some (sourceOf files path) := by
  obtain ⟨source, hsource⟩ := h
  rw [sourceOf, FileState.text?_eq_some_iff.2 hsource, Option.getD_some]

theorem text?_eq_none_iff : (files path).text? = none ↔ ¬ Readable files path := by
  rw [Option.eq_none_iff_forall_ne_some, Readable, not_exists]
  exact forall_congr' fun source => not_congr FileState.text?_eq_some_iff

instance (files : Files) (path : String) : Decidable (Readable files path) :=
  decidable_of_iff ((files path).text? ≠ none) (by rw [ne_eq, text?_eq_none_iff, not_not])

def firstUnreadable? (files : Files) (paths : List String) : Option String :=
  paths.find? fun path => ¬ Readable files path

theorem firstUnreadable?_cons (files : Files) (path : String) (rest : List String) :
    firstUnreadable? files (path :: rest) =
      if Readable files path then firstUnreadable? files rest else some path := by
  by_cases h : Readable files path <;> simp [firstUnreadable?, h]

theorem firstUnreadable?_eq_none_iff {paths : List String} :
    firstUnreadable? files paths = none ↔ ∀ path ∈ paths, Readable files path := by
  simp [firstUnreadable?]

theorem exists_of_firstUnreadable? {paths : List String}
    (h : firstUnreadable? files paths = some path) :
    ∃ front rest, paths = front ++ path :: rest ∧ ¬ Readable files path ∧
      ∀ earlier ∈ front, Readable files earlier := by
  obtain ⟨hpath, front, rest, hpaths, hfront⟩ := List.find?_eq_some_iff_append.1 h
  refine ⟨front, rest, hpaths, of_decide_eq_true hpath, fun earlier hmem => ?_⟩
  simpa using hfront earlier hmem

end Reading

theorem Report.failed_eq_false_iff {r : Report} {denied : Bool} :
    r.failed denied = false ↔ r.Passes denied := by
  have herror : hasError r.diagnostics = false ↔ ∀ d ∈ r.diagnostics, d.severity ≠ .error := by
    simp [hasError, Diagnostic.isError]
  have hwarning : (denied && r.warnings > 0) = false ↔
      ∀ d ∈ r.diagnostics, denied = true → d.severity ≠ .warning := by
    cases denied <;> simp [warnings, count]
  rw [failed, Bool.or_eq_false_iff, herror, hwarning, Passes]
  exact forall₂_and.symm

namespace Run

def verdict (files : Files) (denied : Bool) (paths : List String) : Except RunError Bool :=
  match firstUnreadable? files paths with
  | some path => .error (.fileOpen path)
  | none => .ok (paths.all fun path => !(reportOf files path).failed denied)

section Files

variable (files : Files) (settings : Settings) (quiet : Bool)

/-- The reports do not depend on what is printed. -/
theorem checkFiles_snd (paths : List String) :
    (checkFiles files settings quiet paths).2 =
      match firstUnreadable? files paths with
      | some path => .error (.fileOpen path)
      | none => .ok (paths.map (reportOf files)) := by
  induction paths with
  | nil => rfl
  | cons path rest ih =>
    rw [firstUnreadable?_cons]
    unfold checkFiles
    by_cases h : Readable files path
    · rw [text?_of_readable h, if_pos h]
      dsimp only
      rw [ih]
      cases firstUnreadable? files rest <;> rfl
    · rw [text?_eq_none_iff.2 h, if_neg h]

theorem checkFiles_fst {paths : List String} (h : ∀ path ∈ paths, Readable files path) :
    (checkFiles files settings quiet paths).1 =
      paths.flatMap fun path => block settings quiet path (sourceOf files path) := by
  induction paths with
  | nil => rfl
  | cons path rest ih =>
    unfold checkFiles
    rw [text?_of_readable (h path List.mem_cons_self)]
    dsimp only
    rw [ih fun path hpath => h path (List.mem_cons_of_mem _ hpath)]
    rfl

end Files

section Verdict

variable {files : Files} {denied : Bool} {paths : List String}

theorem all_passes_iff : (paths.all fun path => !(reportOf files path).failed denied) = true ↔
    ∀ path ∈ paths, (reportOf files path).Passes denied := by
  simp only [List.all_eq_true, Bool.not_eq_true', Report.failed_eq_false_iff]

theorem verdict_eq_ok_iff {passed : Bool} :
    verdict files denied paths = .ok passed ↔ (∀ path ∈ paths, Readable files path) ∧
      (passed = true ↔ ∀ path ∈ paths, (reportOf files path).Passes denied) := by
  rw [← firstUnreadable?_eq_none_iff, verdict]
  cases firstUnreadable? files paths with
  | some path => exact ⟨nofun, fun h => nomatch h.1⟩
  | none =>
    rw [Except.ok.injEq, Bool.eq_iff_iff, all_passes_iff]
    exact ⟨fun h => ⟨rfl, h.symm⟩, fun h => h.2.symm⟩

theorem verdict_eq_error_iff {path : String} :
    verdict files denied paths = .error (.fileOpen path) ↔
      firstUnreadable? files paths = some path := by
  rw [verdict]
  cases firstUnreadable? files paths <;> simp

theorem exists_verdict_eq_error_iff :
    (∃ path, verdict files denied paths = .error (.fileOpen path)) ↔
      ∃ path ∈ paths, ¬ Readable files path := by
  have hnone : (∃ path ∈ paths, ¬ Readable files path) ↔ firstUnreadable? files paths ≠ none := by
    rw [ne_eq, firstUnreadable?_eq_none_iff]
    simp
  rw [hnone, Option.ne_none_iff_exists']
  exact exists_congr fun path => verdict_eq_error_iff

end Verdict

theorem result_withSettings (files : Files) (inv : Invocation) (settings : Settings) :
    (withSettings files inv settings).result =
      verdict files settings.denyWarnings inv.files := by
  have hresult : (withSettings files inv settings).result =
      (checkFiles files settings inv.quiet inv.files).2.map (passed settings) := by
    unfold withSettings
    rcases checkFiles files settings inv.quiet inv.files with ⟨output, e | reports⟩ <;> rfl
  rw [hresult, checkFiles_snd, verdict]
  cases firstUnreadable? files inv.files with
  | some path => rfl
  | none =>
    have hpassed : passed settings (inv.files.map (reportOf files)) =
        inv.files.all fun path => !(reportOf files path).failed settings.denyWarnings := by
      rw [passed, List.not_any_eq_all_not, List.all_map]
      rfl
    exact congrArg Except.ok hpassed

theorem summaryLine_eq (passed : Bool) (reports : List Report) :
    summaryLine passed reports ++ ['\n'] =
      summary passed (reports.map Report.errors).sum (reports.map Report.warnings).sum := by
  have htotal (count : Report → Nat) :
      reports.foldr (fun r n => count r + n) 0 = (reports.map count).sum := by
    rw [List.sum_eq_foldr, List.foldr_map]
  rw [summary, ← htotal, ← htotal]
  rfl

end Run

theorem Settings.ofInvocation_eq (read : Reader) (files : Files) (inv : Invocation) :
    ofInvocation read files inv = (base read files inv.config).map (·.withOptions inv) := by
  unfold ofInvocation base
  cases inv.config with
  | none => rfl
  | some path => rfl

section Runs

variable {read : Settings.Reader} {files : Files} {inv inv' : Invocation} {base : Settings}

theorem run_eq_withSettings (hload : Settings.base read files inv.config = .ok base) :
    run files inv read = Run.withSettings files inv (base.withOptions inv) := by
  rw [run, Settings.ofInvocation_eq, hload]
  rfl

theorem result_run (hload : Settings.base read files inv.config = .ok base) :
    (run files inv read).result =
      Run.verdict files (base.denyWarnings || inv.denyWarnings) inv.files := by
  rw [run_eq_withSettings hload, Run.result_withSettings]
  rfl

theorem standardOutput_run (hload : Settings.base read files inv.config = .ok base)
    (htext : inv.format.getD base.format = .text) (h : ∀ path ∈ inv.files, Readable files path) :
    ∃ passed, (run files inv read).result = .ok passed ∧
      (run files inv read).standardOutput =
        (inv.files.flatMap fun path =>
          Run.block (base.withOptions inv) inv.quiet path (sourceOf files path)) ++
        Run.summary passed (inv.files.map fun path => (reportOf files path).errors).sum
          (inv.files.map fun path => (reportOf files path).warnings).sum := by
  have hchecked : Run.checkFiles files (base.withOptions inv) inv.quiet inv.files =
      (inv.files.flatMap fun path =>
        Run.block (base.withOptions inv) inv.quiet path (sourceOf files path),
        .ok (inv.files.map (reportOf files))) := by
    refine Prod.ext (Run.checkFiles_fst files _ inv.quiet h) ?_
    rw [Run.checkFiles_snd, firstUnreadable?_eq_none_iff.2 h]
  have hformat : (base.withOptions inv).format = .text := htext
  have hrun : run files inv read = _ := run_eq_withSettings hload
  rw [Run.withSettings, hchecked] at hrun
  dsimp only at hrun
  rw [Run.conclusion, hformat] at hrun
  dsimp only at hrun
  rw [Run.summaryLine_eq, List.map_map, List.map_map] at hrun
  rw [hrun]
  exact ⟨_, rfl, rfl⟩

/-- Runs on the same files in the same order, with the same settings file and the same demand on
warnings, end alike. -/
theorem Invocation.Agrees.result_eq (h : inv.Agrees inv')
    (hload : Settings.base read files inv.config = .ok base) (hfiles : inv.files = inv'.files) :
    (run files inv' read).result = (run files inv read).result := by
  rw [result_run hload, result_run (h.config ▸ hload), h.denyWarnings, hfiles]

theorem Invocation.Agrees.endsLike (h : inv.Agrees inv')
    (hload : Settings.base read files inv.config = .ok base) (hfiles : inv.files.Perm inv'.files) :
    (run files inv' read).EndsLike (run files inv read) where
  ok_iff passed := by
    rw [result_run hload, result_run (h.config ▸ hload), h.denyWarnings, Run.verdict_eq_ok_iff,
      Run.verdict_eq_ok_iff]
    simp only [hfiles.mem_iff]
  fileOpen_iff := by
    rw [result_run hload, result_run (h.config ▸ hload), Run.exists_verdict_eq_error_iff,
      Run.exists_verdict_eq_error_iff]
    simp only [hfiles.mem_iff]

/-- A report that passes where warnings are denied passes anyhow. -/
theorem Report.Passes.mono {r : Report} (h : r.Passes true) (denied : Bool) : r.Passes denied :=
  fun d hd => ⟨(h d hd).1, fun _ => (h d hd).2 rfl⟩

theorem passed_of_denied (hload : Settings.base read files inv.config = .ok base)
    (h : (run files { inv with denyWarnings := true } read).result = .ok true) :
    (run files inv read).result = .ok true := by
  have hdenied : (run files { inv with denyWarnings := true } read).result =
      Run.verdict files (base.denyWarnings || true) inv.files := result_run hload
  rw [hdenied, Bool.or_true, Run.verdict_eq_ok_iff] at h
  obtain ⟨hreadable, hpasses⟩ := h
  rw [result_run hload, Run.verdict_eq_ok_iff]
  exact ⟨hreadable, iff_of_true rfl fun path hpath => (hpasses.1 rfl path hpath).mono _⟩

end Runs

def sampleFiles : Files
  | "deny.yaml" => .content "deny_warnings: true".toUTF8
  | "shared.pseudo" => .content "a (C1) = 1\nb (C1) = 2".toUTF8
  | "wrong.pseudo" => .content "SET C1\n".toUTF8
  | _ => .missing

end CellCheck
