import Dbgen3.Generator.Failures

/-!
# The headers at the end of a run

The name of a header is made of the stem of the listed file, and whether the
stream could be opened is not looked at. The header is emptied before its text
is generated.
-/

namespace Dbgen3.Generator

open Act
open Runs (newEntries newEntries_eq)
open Dbgen3.Runtime (Cli)

variable {σ : Type} {outFolder : Str} {files : Str → Option Str} {listed : List Str}
  {r : Except Exc Unit} {events : List FileEvent}

/-! ## Successful runs -/

theorem Processed.exists_jobs (h : Processed outFolder files listed r events)
    (hr : r = .ok ⟨⟩) :
    ∃ jobs : List Job, jobs.map Job.file = listed ∧
      events = jobs.flatMap (Job.events outFolder) := by
  induction h with
  | done => exact ⟨[], rfl, rfl⟩
  | loadFailed _ => cases hr
  | generationFailed _ _ _ => cases hr
  | next j _ _ ih =>
      obtain ⟨jobs, rfl, rfl⟩ := ih hr
      exact ⟨j :: jobs, rfl, rfl⟩

/-- The texts that reached their headers, in order. -/
def writtenTexts (outFolder : Str) (jobs : List Job) : List (Str × Str) :=
  (jobs.filter Job.opened).map fun j => (j.path outFolder, j.text)

theorem filesAfter_job (files : Str → Option Str) (j : Job) :
    filesAfter files (j.events outFolder) =
      Store.replay files (writtenTexts outFolder [j]) := by
  unfold filesAfter Job.events writtenTexts
  cases h : j.opened with
  | true =>
      rw [List.filter_cons_of_pos h]
      exact Store.replay_overwritten files (j.path outFolder) [] j.text []
  | false =>
      rw [List.filter_cons_of_neg (by simp [h])]
      rfl

theorem filesAfter_jobs (files : Str → Option Str) (jobs : List Job) :
    filesAfter files (jobs.flatMap (Job.events outFolder)) =
      Store.replay files (writtenTexts outFolder jobs) := by
  induction jobs generalizing files with
  | nil => rfl
  | cons j jobs ih =>
      have hsplit : writtenTexts outFolder (j :: jobs) =
          writtenTexts outFolder [j] ++ writtenTexts outFolder jobs := by
        unfold writtenTexts
        rw [← List.map_append, ← List.filter_append]
        rfl
      calc filesAfter files (j.events outFolder ++ jobs.flatMap (Job.events outFolder))
          = filesAfter (filesAfter files (j.events outFolder))
              (jobs.flatMap (Job.events outFolder)) := filesAfter_append _ _ _
        _ = Store.replay (Store.replay files (writtenTexts outFolder [j]))
              (writtenTexts outFolder jobs) := by rw [ih, filesAfter_job]
        _ = Store.replay files (writtenTexts outFolder (j :: jobs)) := by
            rw [← Store.replay_append, hsplit]

theorem hppPath_eq_iff {file file' : Str} :
    hppPath outFolder file = hppPath outFolder file' ↔ Path.stem file = Path.stem file' := by
  have hslash : ∀ f, '/' ∉ Path.stem f ++ ".hpp".toList := by
    intro f h
    rcases List.mem_append.mp h with h | h
    · exact Path.slash_notMem_stem f h
    · revert h
      decide
  constructor
  · intro h
    exact List.append_cancel_right (Path.join_injective (hslash _) (hslash _) h)
  · intro h
    rw [hppPath, hppPath, h]

/-- The last file with the stem of `j` whose header could be opened. -/
def lastWriter (jobs : List Job) (j : Job) : Option Job :=
  (jobs.filter fun k => k.opened && Path.stem k.file == Path.stem j.file).getLast?

/-- The last file that could open the header of `j` has the text of `j`. Where none could,
the header had it before. -/
def Kept (before : Option Str) (jobs : List Job) (j : Job) : Prop :=
  match lastWriter jobs j with
  | some k => k.text = j.text
  | none => before = some j.text

theorem lastValue_writtenTexts (outFolder : Str) (jobs : List Job) (j : Job) :
    Store.lastValue (j.path outFolder) (writtenTexts outFolder jobs) =
      (lastWriter jobs j).map Job.text := by
  have hpath : ∀ k : Job, decide (k.path outFolder = j.path outFolder) =
      (Path.stem k.file == Path.stem j.file) := by
    intro k
    rw [Job.path, Job.path, beq_eq_decide]
    exact decide_eq_decide.mpr hppPath_eq_iff
  unfold Store.lastValue writtenTexts lastWriter
  rw [List.filter_map, List.filter_filter, List.getLast?_map, Option.map_map]
  simp only [Function.comp_def, hpath, Bool.and_comm]

theorem kept_iff (files : Str → Option Str) (outFolder : Str) (jobs : List Job) (j : Job) :
    filesAfter files (jobs.flatMap (Job.events outFolder)) (j.path outFolder) = some j.text ↔
      Kept (files (j.path outFolder)) jobs j := by
  rw [filesAfter_jobs, Store.replay_apply, lastValue_writtenTexts, Kept]
  cases lastWriter jobs j with
  | none => exact Iff.rfl
  | some k => exact Option.some_inj

/-- After a run that succeeds every listed file has its text in its header exactly where the
last file with that stem whose header could be opened generated the same text. -/
theorem outputs_kept_iff (env : Env) (cli : Cli σ) (p : CmdlineParameters) (t : ExecState σ)
    (hok : (runOn (processFiles env cli p) t).1 = .ok PSts.success.code) :
    let t' := (runOn (processFiles env cli p) t).2
    ∃ jobs : List Job, jobs.map Job.file = p.qsqlList ∧
      newEntries ExecState.events t t' = jobs.flatMap (Job.events p.outFolder) ∧
      ((∀ j ∈ jobs, t'.files (hppPath p.outFolder j.file) = some j.text) ↔
        ∀ j ∈ jobs, Kept (t.files (hppPath p.outFolder j.file)) jobs j) := by
  intro t'
  obtain ⟨events, hrun⟩ := processFiles_fileRun env cli p t
  rcases hrun.ends with ⟨-, hend⟩ | ⟨r, hloop, hend⟩
  · exact absurd hok hend
  · rw [hok] at hend
    cases r with
    | error e => cases hend
    | ok u =>
        obtain ⟨jobs, hlisted, rfl⟩ := hloop.exists_jobs rfl
        refine ⟨jobs, hlisted, newEntries_eq hrun.events_eq, ?_⟩
        have hfiles : t'.files = filesAfter t.files (jobs.flatMap (Job.events p.outFolder)) :=
          hrun.files_eq
        rw [hfiles]
        exact forall₂_congr fun j _ => kept_iff t.files p.outFolder jobs j

/-- The parameters of a run for two files with different stems. -/
def twoFiles : CmdlineParameters :=
  { oneFile with qsqlList := ["x/a.xml".toList, "y/b.xml".toList] }

theorem outputs_kept_two_files :
    let env := Env.ofRoot (oneQuery "q" "select c from t")
    let t := ExecState.start fun _ => none
    let t' := (runOn (processFiles env Cli.silent twoFiles) t).2
    ∃ jobs : List Job, jobs.map Job.file = twoFiles.qsqlList ∧
      newEntries ExecState.events t t' = jobs.flatMap (Job.events twoFiles.outFolder) ∧
      ((∀ j ∈ jobs, t'.files (hppPath twoFiles.outFolder j.file) = some j.text) ↔
        ∀ j ∈ jobs, Kept (t.files (hppPath twoFiles.outFolder j.file)) jobs j) :=
  outputs_kept_iff (Env.ofRoot (oneQuery "q" "select c from t")) Cli.silent twoFiles
    (ExecState.start fun _ => none) (by decide +kernel)

/-- The parameters of a run for two files with one stem. -/
def sameStem : CmdlineParameters :=
  { oneFile with qsqlList := ["x/a.xml".toList, "y/a.xml".toList] }

/-- The surroundings where the first document has the id `one` and the others have `two`. -/
def Env.twoIds : Env where
  parseURI n _ :=
    ([], .ok (some { attrs := [("id", if n = 1 then "one" else "two")], children := [] }))
  ctime _ := "Thu Jan  1 00:00:00 1970\n"

/-- A run succeeds although no header could be opened, and a run succeeds although the second
file replaced the header of the first. -/
theorem outputs_lost :
    (let env : Env := { Env.twoIds with openFile := fun _ _ => false }
      let run := runOn (processFiles env Cli.silent oneFile) (ExecState.start fun _ => none)
      run.1 = .ok PSts.success.code ∧ run.2.files "out/a.hpp" = none) ∧
    (let text := genFile { id := "one" } (Env.twoIds.ctime 1) 0
      let run := runOn (processFiles Env.twoIds Cli.silent sameStem) (ExecState.start fun _ => none)
      run.1 = .ok PSts.success.code ∧ .generated "out/a.hpp" text ∈ run.2.events ∧
        run.2.files "out/a.hpp" ≠ text.toOption) := by
  refine ⟨⟨?_, ?_⟩, ?_, ?_, ?_⟩
  · decide +kernel
  · decide +kernel
  · decide +kernel
  · decide +kernel
  · decide +kernel

/-! ## Generation that fails -/

theorem hppEvents_error (path : Str) (before : Option Str) (ok : Bool) (e : Exc) :
    hppEvents path before ok (.error e) =
      [.opened path before ok, .generated path (.error e)] := by
  cases ok with
  | true => rfl
  | false => rfl

theorem failed_notMem_job (j : Job) (path : Str) (e : Exc) :
    .generated path (.error e) ∉ j.events outFolder := by
  unfold Job.events
  cases h : j.opened with
  | true => simp [hppEvents]
  | false => simp [hppEvents]

/-- A failure of `gen_file` ends the loop right after the header was opened. -/
theorem Processed.generationFailed_ends (h : Processed outFolder files listed r events)
    {path : Str} {e : Exc} (hmem : .generated path (.error e) ∈ events) :
    r = .error e ∧ ∃ pre ok,
      events = pre ++ [.opened path (filesAfter files pre path) ok, .generated path (.error e)] := by
  induction h with
  | done => cases hmem
  | loadFailed _ => simp at hmem
  | @generationFailed _ file _ loaded _ _ e' ok _ _ =>
      rw [hppEvents_error] at hmem ⊢
      obtain ⟨rfl, rfl⟩ : path = hppPath outFolder file ∧ e = e' := by simpa using hmem
      exact ⟨rfl, [.parsed file loaded], ok, rfl⟩
  | next j before _ ih =>
      rcases List.mem_append.mp hmem with hjob | hrest
      · exact absurd hjob (failed_notMem_job j path e)
      · obtain ⟨hr, pre, ok, hevents⟩ := ih hrest
        refine ⟨hr, j.events outFolder ++ pre, ok, ?_⟩
        rw [hevents, filesAfter_append, List.append_assoc]

/-- When `gen_file` fails the run ends with its exception. A header that could be opened is
left empty, and no other file changes after that. -/
theorem header_of_failed_generation (env : Env) (cli : Cli σ) (p : CmdlineParameters)
    (t : ExecState σ) (path : Str) (e : Exc)
    (hmem : .generated path (.error e) ∈
      newEntries ExecState.events t (runOn (processFiles env cli p) t).2) :
    let run := runOn (processFiles env cli p) t
    run.1 = .error e ∧ ∃ pre before ok,
      newEntries ExecState.events t run.2 =
        pre ++ [.opened path before ok, .generated path (.error e)] ∧
      before = filesAfter t.files pre path ∧
      run.2.files path = (if ok then some [] else before) ∧
      ∀ q, q ≠ path → run.2.files q = filesAfter t.files pre q := by
  intro run
  obtain ⟨events, hrun⟩ := processFiles_fileRun env cli p t
  have hnew : newEntries ExecState.events t run.2 = events := newEntries_eq hrun.events_eq
  rw [hnew] at hmem ⊢
  rcases hrun.ends with ⟨hnil, -⟩ | ⟨r, hloop, hend⟩
  · rw [hnil] at hmem
    cases hmem
  · obtain ⟨rfl, pre, ok, hevents⟩ := hloop.generationFailed_ends hmem
    have hfiles : run.2.files = filesAfter (filesAfter t.files pre)
        [.opened path (filesAfter t.files pre path) ok, .generated path (.error e)] := by
      rw [← filesAfter_append, ← hevents]
      exact hrun.files_eq
    refine ⟨hend, pre, _, ok, hevents, rfl, ?_, ?_⟩
    · rw [hfiles]
      cases ok with
      | true => exact Function.update_self path _ _
      | false => rfl
    · intro q hq
      rw [hfiles]
      cases ok with
      | true => exact Function.update_of_ne hq _ _
      | false => rfl

/-- An id of 32 characters. -/
def longId : Str := List.replicate 32 'a'

theorem header_of_long_id :
    let env := Env.ofRoot (oneQuery longId " ")
    let t := ExecState.start fun _ => some "old"
    let run := runOn (processFiles env Cli.silent oneFile) t
    let e : Exc := .stdExc .lengthError
    run.1 = .error e ∧ ∃ pre before ok,
      newEntries ExecState.events t run.2 =
        pre ++ [.opened "out/a.hpp" before ok, .generated "out/a.hpp" (.error e)] ∧
      before = filesAfter t.files pre "out/a.hpp" ∧
      run.2.files "out/a.hpp" = (if ok then some [] else before) ∧
      ∀ q, q ≠ "out/a.hpp".toList → run.2.files q = filesAfter t.files pre q :=
  header_of_failed_generation (Env.ofRoot (oneQuery longId " ")) Cli.silent oneFile
    (ExecState.start fun _ => some "old") "out/a.hpp" (.stdExc .lengthError) (by decide +kernel)

/-- The old contents of the header are gone. -/
theorem header_truncated :
    let run := runOn (processFiles (Env.ofRoot (oneQuery longId " ")) Cli.silent oneFile)
      (ExecState.start fun _ => some "old")
    run.1 = .error (.stdExc .lengthError) ∧ run.2.files "out/a.hpp" = some [] := by
  constructor
  · decide +kernel
  · decide +kernel

end Dbgen3.Generator
