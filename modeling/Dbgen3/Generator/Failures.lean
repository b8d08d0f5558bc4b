import Dbgen3.Generator.FileRuns

/-!
# Failures while a file is loaded

`parse_file` lets an exception pass where a clause rethrows it. The others leave
an empty query set, for which a header is written like for any other.
-/

namespace Dbgen3.Generator

open Act
open Runs (newEntries newEntries_eq)
open Dbgen3.Runtime (Cli World Handle)

variable {σ : Type} {outFolder : Str} {files : Str → Option Str} {listed : List Str}
  {r : Except Exc Unit} {events : List FileEvent}

/-- The files whose query set was loaded. -/
def loadedFiles (events : List FileEvent) : List Str :=
  events.filterMap fun
    | .parsed file (.ok _) => some file
    | _ => none

theorem loadedFiles_append (events events' : List FileEvent) :
    loadedFiles (events ++ events') = loadedFiles events ++ loadedFiles events' :=
  List.filterMap_append

theorem loadedFiles_hppEvents (path : Str) (before : Option Str) (ok : Bool)
    (text : Except Exc Str) : loadedFiles (hppEvents path before ok text) = [] := by
  cases text with
  | error e => rfl
  | ok text =>
      cases ok with
      | true => rfl
      | false => rfl

/-- A run succeeds only if every listed file was loaded, and nothing is opened or written
after a load that failed. -/
structure ReportsFailures (listed : List Str) (r : Except Exc Nat) (events : List FileEvent) :
    Prop where
  loaded : r = .ok PSts.success.code → loadedFiles events = listed
  last : ∀ pre file e post, events = pre ++ .parsed file (.error e) :: post → post = []

/-! ## One file -/

theorem parseFile_fails_iff (env : Env) (cli : Cli σ) (filename : Str) (db : Handle)
    (dbType : Rdbms) (t : ExecState σ) :
    (∃ e, (runOn (parseFile env cli filename db dbType) t).1 = .error e) ↔
      ∃ e, (runOn (parseFileBody env cli filename db dbType) t).1 = .error e ∧ Rethrown e := by
  rw [runOn_parseFile]
  exact exists_congr fun e => parseFileResult_error_iff

theorem not_rethrown_of_returned {set : GsqlQSet} {e : Exc}
    (h : parseFileResult (.error e) = .ok set) : ¬ Rethrown e := by
  intro he
  rw [parseFileResult_error_iff.mpr ⟨rfl, he⟩] at h
  cases h

/-! ## The loop -/

theorem parsed_notMem_hppEvents {path : Str} {before : Option Str} {ok : Bool}
    {text : Except Exc Str} {file : Str} {loaded : Except Exc GsqlQSet} :
    .parsed file loaded ∉ hppEvents path before ok text := by
  cases text with
  | error e => simp [hppEvents]
  | ok text =>
      cases ok with
      | true => simp [hppEvents]
      | false => simp [hppEvents]

/-- An event that does not occur in the first part of a log stands in the second. -/
theorem split_of_notMem {l l' pre post : List FileEvent} {x : FileEvent} (hx : x ∉ l)
    (h : l ++ l' = pre ++ x :: post) : ∃ pre', l' = pre' ++ x :: post := by
  rcases List.append_eq_append_iff.mp h with ⟨mid, -, hl'⟩ | ⟨mid, hl, hpost⟩
  · exact ⟨mid, hl'⟩
  · cases mid with
    | nil => exact ⟨[], hpost.symm⟩
    | cons y mid =>
        obtain ⟨rfl, -⟩ := List.cons.inj hpost
        exact absurd (by simp [hl]) hx

/-- A load that failed is the last event exactly where its exception passes. -/
theorem Processed.last_iff (h : Processed outFolder files listed r events) :
    ∀ pre file e post, events = pre ++ .parsed file (.error e) :: post →
      (post = [] ↔ Rethrown e) := by
  induction h with
  | done =>
      intro pre file e post hsplit
      simp at hsplit
  | loadFailed he =>
      intro pre file e post hsplit
      cases pre with
      | nil =>
          obtain ⟨heq, hpost⟩ := List.cons.inj hsplit
          cases heq
          exact iff_of_true hpost.symm he
      | cons x pre =>
          obtain ⟨-, hsplit⟩ := List.cons.inj hsplit
          simp at hsplit
  | generationFailed ok returned failed =>
      intro pre file e post hsplit
      cases pre with
      | nil =>
          obtain ⟨heq, hpost⟩ := List.cons.inj hsplit
          cases heq
          refine iff_of_false ?_ (not_rethrown_of_returned returned)
          rw [← hpost]
          exact List.cons_ne_nil _ _
      | cons x pre =>
          obtain ⟨-, hsplit⟩ := List.cons.inj hsplit
          have hmem : .parsed file (.error e) ∈ pre.append (.parsed file (.error e) :: post) :=
            List.mem_append_right pre List.mem_cons_self
          rw [← hsplit] at hmem
          exact absurd hmem parsed_notMem_hppEvents
  | next j before _ ih =>
      intro pre file e post hsplit
      cases pre with
      | nil =>
          obtain ⟨heq, hpost⟩ := List.cons.inj hsplit
          refine iff_of_false ?_ ?_
          · rw [← hpost]
            exact List.cons_ne_nil _ _
          · injection heq with _ hloaded
            exact not_rethrown_of_returned (hloaded ▸ j.returned)
      | cons x pre =>
          obtain ⟨-, hsplit⟩ := List.cons.inj hsplit
          obtain ⟨pre', hrest⟩ := split_of_notMem parsed_notMem_hppEvents hsplit
          exact ih pre' file e post hrest

theorem Processed.loadedFiles_eq (h : Processed outFolder files listed r events)
    (hr : r = .ok ⟨⟩)
    (hall : ∀ file e, .parsed file (.error e) ∈ events → Rethrown e) :
    loadedFiles events = listed := by
  induction h with
  | done => rfl
  | loadFailed _ => cases hr
  | generationFailed _ _ _ => cases hr
  | @next _ rest _ events j before _ ih =>
      cases hloaded : j.loaded with
      | error e =>
          refine absurd (hall j.file e ?_) (not_rethrown_of_returned (hloaded ▸ j.returned))
          simp [Job.events, hloaded]
      | ok set =>
          have htail := ih hr fun file e he => hall file e (List.mem_append_right _ he)
          calc loadedFiles (j.events outFolder ++ events)
              = loadedFiles (j.events outFolder) ++ loadedFiles events := loadedFiles_append _ _
            _ = (j.file :: []) ++ rest := by
                rw [htail, Job.events, hloaded]
                exact congrArg (j.file :: · ++ rest) (loadedFiles_hppEvents _ _ _ _)
            _ = j.file :: rest := rfl

/-! ## Whole runs -/

/-- `parse_file` ends in an exception for every failure, and `process_files` goes no further
than the first, exactly where the failures are runtime errors or end the program. -/
theorem failures_reported_iff (env : Env) (cli : Cli σ) (p : CmdlineParameters)
    (filename : Str) (db : Handle) (dbType : Rdbms) (t : ExecState σ) :
    let body := runOn (parseFileBody env cli filename db dbType) t
    let run := runOn (processFiles env cli p) t
    let events := newEntries ExecState.events t run.2
    ((∀ e, body.1 = .error e →
          ∃ e', (runOn (parseFile env cli filename db dbType) t).1 = .error e') ↔
        ∀ e, body.1 = .error e → Rethrown e) ∧
      (ReportsFailures p.qsqlList run.1 events ↔
        ∀ file e, .parsed file (.error e) ∈ events → Rethrown e) := by
  intro body run events
  constructor
  · constructor
    · intro h e he
      obtain ⟨e', he', hre⟩ := (parseFile_fails_iff env cli filename db dbType t).mp (h e he)
      obtain rfl : e = e' := Except.error.inj (he.symm.trans he')
      exact hre
    · intro h e he
      exact (parseFile_fails_iff env cli filename db dbType t).mpr ⟨e, he, h e he⟩
  · obtain ⟨new, hrun⟩ := processFiles_fileRun env cli p t
    obtain rfl : events = new := newEntries_eq hrun.events_eq
    rcases hrun.ends with ⟨hnil, hend⟩ | ⟨r, hloop, hend⟩
    · rw [hnil]
      refine iff_of_true ⟨fun h => absurd h hend, ?_⟩ (by simp)
      intro pre file e post hsplit
      simp at hsplit
    · constructor
      · intro h file e he
        obtain ⟨pre, post, hsplit⟩ := List.append_of_mem he
        exact (hloop.last_iff pre file e post hsplit).mp (h.last pre file e post hsplit)
      · intro hall
        refine ⟨fun hsuccess => ?_, ?_⟩
        · cases r with
          | error e =>
              rw [hsuccess] at hend
              cases hend
          | ok u => exact hloop.loadedFiles_eq rfl hall
        · intro pre file e post hsplit
          exact (hloop.last_iff pre file e post hsplit).mpr (hall file e (by simp [hsplit]))

/-- A driver that describes one column of a type without a place in the type table. -/
def xmlColumn : Cli Unit where
  call _ c := (match c with
    | .numResultCols _ => { rc := 0, count := 1 }
    | .describeCol _ _ => { rc := 0, dscr := { name := "C", type := -370, nullable := 1 } }
    | _ => { rc := 0, handle := 1 }, ())
  diag _ _ _ := []

/-- The surroundings with one document for every file. -/
def Env.ofRoot (root : DomRoot) : Env where
  parseURI _ _ := ([], .ok (some root))
  ctime _ := "Thu Jan  1 00:00:00 1970\n"

/-- A document with one query. -/
def oneQuery (id sql : Str) : DomRoot where
  attrs := []
  children := [.element "q" [("id".toList, id)] [.element "sql" [] [.text (.ok sql)]]]

/-- A program before its first run, with the given files. -/
def ExecState.start (files : Str → Option Str) : ExecState Unit where
  conn := { world := World.start () }
  files

/-- The parameters of a run for one file. -/
def oneFile : CmdlineParameters where
  dbName := "db"
  outFolder := "out"
  qsqlList := ["a.xml".toList]
  databaseType := .db2

/-- The type name that is missing ends the loading in an exception that `parse_file` does not
let pass. The run succeeds and a header is written for the empty query set. -/
theorem failure_swallowed :
    let env := Env.ofRoot (oneQuery "q" "select c from t")
    let t := ExecState.start fun _ => none
    let run := runOn (processFiles env xmlColumn oneFile) t
    let events := newEntries ExecState.events t run.2
    (runOn (parseFileBody env xmlColumn "a.xml" 1 .db2) t).1 = .error (.stdExc .logicError) ∧
      (runOn (parseFile env xmlColumn "a.xml" 1 .db2) t).1 = .ok {} ∧
      (run.2.files "out/a.hpp").isSome ∧ ¬ ReportsFailures oneFile.qsqlList run.1 events := by
  intro env t run events
  have hsuccess : run.1 = .ok PSts.success.code := by decide +kernel
  have hnone : loadedFiles events = [] := by decide +kernel
  refine ⟨by decide +kernel, by decide +kernel, by decide +kernel, ?_⟩
  intro h
  have hall := h.loaded hsuccess
  rw [hnone] at hall
  cases hall

end Dbgen3.Generator
