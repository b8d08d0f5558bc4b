import Dbgen3.Generator.Executor
import Dbgen3.Lib.Runs
import Dbgen3.Lib.Store

/-!
# Runs over the listed files

`Processed` says which events the loop of `process_files` can leave and how it
ends. The files at the end are those at the start after the writes of the events.
-/

namespace Dbgen3.Generator

open Act
open Dbgen3.Runtime (Cli Handle ConnWorld)

variable {σ α : Type} (env : Env) (cli : Cli σ)

/-! ## The end of `parse_file` -/

/-- The exceptions that `parse_file` lets pass. -/
def Rethrown (e : Exc) : Prop := e.isRuntimeError ∨ e = .terminated

instance : DecidablePred Rethrown := fun _ => inferInstanceAs (Decidable (_ ∨ _))

/-- What `parse_file` makes of the end of its `try` block. -/
def parseFileResult : Except Exc GsqlQSet → Except Exc GsqlQSet
  | .ok set => .ok set
  | .error e => if Rethrown e then .error e else .ok {}

theorem parseFileHandler_eq (e : Exc) :
    (parseFileHandler e : Act (ExecState σ) Exc GsqlQSet) =
      fromResult (parseFileResult (.error e)) := by
  cases e with
  | errorException what => rfl
  | runtimeError what => rfl
  | dbgen3Exc status what => rfl
  | xmlException what => rfl
  | domException what => rfl
  | stdExc kind => rfl
  | foreign => rfl
  | terminated => rfl

theorem parseFileResult_error_iff {result : Except Exc GsqlQSet} {e : Exc} :
    parseFileResult result = .error e ↔ result = .error e ∧ Rethrown e := by
  cases result with
  | ok set => simp [parseFileResult]
  | error e' =>
      by_cases h : Rethrown e'
      · simp only [parseFileResult, if_pos h, Except.error.injEq]
        constructor
        · rintro rfl
          exact ⟨rfl, h⟩
        · exact And.left
      · simp only [parseFileResult, if_neg h, reduceCtorEq, Except.error.injEq, false_iff]
        rintro ⟨rfl, h'⟩
        exact h h'

/-! ## What parsing leaves alone -/

/-- The files, the stream of the header and the log. -/
def ExecState.output (t : ExecState σ) : (Str → Option Str) × OFStream × List FileEvent :=
  (t.files, t.hppFile, t.events)

/-- A computation that writes no file and notes no event. -/
def KeepsOutput (m : Act (ExecState σ) Exc α) : Prop :=
  Within (fun t t' => t'.output = t.output) m

theorem keepsOutput_onConn (m : Act (ConnWorld σ) Exc α) : KeepsOutput (onConn m) := by
  intro t
  rw [onConn, runOn_zoom]
  exact .single rfl

theorem keepsOutput_parseURI (fn : Str) :
    KeepsOutput (parseURI env fn : Act (ExecState σ) Exc (Option DomRoot)) := by
  apply within_get.bind
  intro t
  refine (within_modify fun _ => ?_).bind fun _ => within_fromResult _
  rfl

theorem keepsOutput_parseFileBody (filename : Str) (db : Handle) (dbType : Rdbms) :
    KeepsOutput (parseFileBody env cli filename db dbType) := by
  refine (within_modify fun _ => ?_).bind fun _ => within_get.bind fun t => Within.ite ?_ ?_
  · rfl
  · refine (keepsOutput_parseURI env _).bind fun doc => within_get.bind fun t => Within.ite ?_ ?_
    · cases doc with
      | none => exact within_throw _
      | some root => exact keepsOutput_onConn _
    · exact within_throw _
  · exact within_throw _

theorem KeepsOutput.output_eq {m : Act (ExecState σ) Exc α} (h : KeepsOutput m)
    (t : ExecState σ) : (runOn m t).2.output = t.output :=
  h.view_eq (fun _ _ heq => heq) t

theorem runOn_parseFile (filename : Str) (db : Handle) (dbType : Rdbms) (t : ExecState σ) :
    let r := runOn (parseFileBody env cli filename db dbType) t
    runOn (parseFile env cli filename db dbType) t =
      (parseFileResult r.1, { r.2 with events := r.2.events ++ [.parsed filename r.1] }) := by
  simp only [parseFile, runOn_orElse, runOn_bind]
  rcases runOn (parseFileBody env cli filename db dbType) t with ⟨e | set, u⟩
  · simp [note, parseFileHandler_eq]
  · simp [note, parseFileResult]

/-- One call of `parse_file`: its result and its event follow from the end of the `try`
block, and no file is written. -/
theorem parseFile_spec (filename : Str) (db : Handle) (dbType : Rdbms) (t : ExecState σ) :
    let loaded := (runOn (parseFileBody env cli filename db dbType) t).1
    ∃ u, runOn (parseFile env cli filename db dbType) t = (parseFileResult loaded, u) ∧
      u.files = t.files ∧ u.events = t.events ++ [.parsed filename loaded] := by
  intro loaded
  have hkeep := (keepsOutput_parseFileBody env cli filename db dbType).output_eq t
  refine ⟨_, runOn_parseFile env cli filename db dbType t, ?_, ?_⟩
  · exact congrArg Prod.fst hkeep
  · exact congrArg (· ++ _) (congrArg (fun out => out.2.2) hkeep)

/-! ## Writing a header -/

/-- The writes an event stands for: opening a file for output empties it. -/
def FileEvent.writes : FileEvent → List (Str × Str)
  | .opened path _ true => [(path, [])]
  | .written path text => [(path, text)]
  | _ => []

/-- The contents of the files after the events. -/
def filesAfter (files : Str → Option Str) (events : List FileEvent) : Str → Option Str :=
  Store.replay files (events.flatMap FileEvent.writes)

theorem filesAfter_append (files : Str → Option Str) (events events' : List FileEvent) :
    filesAfter files (events ++ events') = filesAfter (filesAfter files events) events' := by
  simp only [filesAfter, List.flatMap_append, Store.replay_append]

/-- The events of one header: `text` is what `gen_file` ended with. -/
def hppEvents (path : Str) (before : Option Str) (ok : Bool) (text : Except Exc Str) :
    List FileEvent :=
  .opened path before ok :: .generated path text ::
    match text, ok with
    | .ok text, true => [.written path text]
    | _, _ => []

/-- The state after `open`. -/
def ExecState.afterOpen (t : ExecState σ) (fn : Str) (ok : Bool) : ExecState σ :=
  { t with
    files := if ok then Function.update t.files fn (some []) else t.files
    hppFile := if ok then { file := some fn, fail := false } else { t.hppFile with fail := true }
    events := t.events ++ [.opened fn (t.files fn) ok] }

theorem runOn_openHpp (fn : Str) (t : ExecState σ) :
    runOn (openHpp env fn) t =
      (.ok ⟨⟩, t.afterOpen fn (t.hppFile.file.isNone && env.openFile t.parseCnt fn)) := by
  simp only [openHpp, runOn_bind, runOn_get, note, runOn_modify]
  cases t.hppFile.file.isNone && env.openFile t.parseCnt fn with
  | true => rfl
  | false => rfl

theorem runOn_generate (fn : Str) (set : GsqlQSet) (t : ExecState σ) :
    runOn (generate env fn set) t =
      (genFile set (env.ctime t.parseCnt) 0,
        { t with events := t.events ++ [.generated fn (genFile set (env.ctime t.parseCnt) 0)] }) := by
  simp only [generate, runOn_bind, runOn_get, note, runOn_modify, runOn_fromResult]

theorem runOn_insertText_of_open {fn text : Str} {t : ExecState σ}
    (hfile : t.hppFile = { file := some fn }) (hempty : t.files fn = some []) :
    runOn (insertText text) t =
      (.ok ⟨⟩, { t with
        files := Function.update t.files fn (some text)
        events := t.events ++ [.written fn text] }) := by
  simp only [insertText, runOn_bind, runOn_get, hfile, note, runOn_modify, hempty]
  rfl

theorem runOn_insertText_of_fail {text : Str} {t : ExecState σ} (hfail : t.hppFile.fail = true) :
    runOn (insertText text) t =
      (.ok ⟨⟩, { t with hppFile := { t.hppFile with fail := true } }) := by
  simp only [insertText, runOn_bind, runOn_get]
  split
  · rename_i hok
    rw [hfail] at hok
    cases hok
  · exact runOn_modify _ _

/-- The text goes to the file that is open, and nowhere when opening it failed. -/
theorem insertText_closeHpp_spec {fn text : Str} {ok : Bool} {t : ExecState σ}
    (hopen : ok = true → t.hppFile = { file := some fn } ∧ t.files fn = some [])
    (hfail : ok = false → t.hppFile.fail = true) :
    ∃ u, runOn (do insertText text; closeHpp) t = (.ok ⟨⟩, u) ∧
      u.events = t.events ++ (if ok then [.written fn text] else []) ∧
      u.files = if ok then Function.update t.files fn (some text) else t.files := by
  cases ok with
  | true =>
      obtain ⟨hfile, hempty⟩ := hopen rfl
      exact ⟨_, runOn_bind_ok (runOn_insertText_of_open hfile hempty) _, rfl, rfl⟩
  | false =>
      refine ⟨_, runOn_bind_ok (runOn_insertText_of_fail (hfail rfl)) _, ?_, rfl⟩
      exact (List.append_nil _).symm

/-- One header: nothing is written to it when `gen_file` fails or the file is not open. -/
theorem writeHpp_spec (outFolder file : Str) (set : GsqlQSet) (t : ExecState σ) :
    let path := hppPath outFolder file
    let ok := t.hppFile.file.isNone && env.openFile t.parseCnt path
    let text := genFile set (env.ctime t.parseCnt) 0
    ∃ u, runOn (writeHpp env outFolder file set) t = (text.map (fun _ => ⟨⟩), u) ∧
      u.events = t.events ++ hppEvents path (t.files path) ok text ∧
      u.files = filesAfter t.files (hppEvents path (t.files path) ok text) := by
  intro path ok text
  have hgen := runOn_generate env path set (t.afterOpen path ok)
  rw [show genFile set (env.ctime (t.afterOpen path ok).parseCnt) 0 = text from rfl] at hgen
  rw [writeHpp, runOn_bind_ok (runOn_openHpp env path t)]
  clear_value text
  cases text with
  | error e =>
      refine ⟨_, runOn_bind_error hgen _, ?_, ?_⟩
      · simp [ExecState.afterOpen, hppEvents, ok]
      · cases ok with
        | true => rfl
        | false => rfl
  | ok text =>
      rw [runOn_bind_ok hgen]
      have hopened : ok = true →
          (t.afterOpen path ok).hppFile = { file := some path } ∧
            (t.afterOpen path ok).files path = some [] := by
        intro h
        rw [h]
        exact ⟨rfl, Function.update_self path _ _⟩
      have hfailed : ok = false → (t.afterOpen path ok).hppFile.fail = true := by
        intro h
        rw [h]
        rfl
      obtain ⟨u, hrun, hevents, hfiles⟩ := insertText_closeHpp_spec (t := { t.afterOpen path ok with
          events := (t.afterOpen path ok).events ++ [.generated path (.ok text)] }) hopened hfailed
      refine ⟨u, hrun, ?_, ?_⟩
      · rw [hevents]
        cases ok with
        | true => simp [ExecState.afterOpen, hppEvents]
        | false => simp [ExecState.afterOpen, hppEvents]
      · rw [hfiles]
        cases ok with
        | true => simp [ExecState.afterOpen, hppEvents, filesAfter, FileEvent.writes, Store.write]
        | false => rfl

/-! ## The loop -/

/-- A listed file that was processed to its end: how its loading ended, the query set that
was returned, and the text of the header. -/
structure Job where
  file : Str
  loaded : Except Exc GsqlQSet
  set : GsqlQSet
  before : Option Str
  opened : Bool
  time : Str
  text : Str
  returned : parseFileResult loaded = .ok set
  generated : genFile set time 0 = .ok text

/-- The header of the file. -/
def Job.path (outFolder : Str) (j : Job) : Str := hppPath outFolder j.file

def Job.events (outFolder : Str) (j : Job) : List FileEvent :=
  .parsed j.file j.loaded :: hppEvents (j.path outFolder) j.before j.opened (.ok j.text)

/-- What the loop can do with the listed files: the files it starts with, the end of the
loop and its events. A failure ends the loop. -/
inductive Processed (outFolder : Str) :
    (Str → Option Str) → List Str → Except Exc Unit → List FileEvent → Prop
  | done {files} : Processed outFolder files [] (.ok ⟨⟩) []
  | loadFailed {files file rest e} (h : Rethrown e) :
      Processed outFolder files (file :: rest) (.error e) [.parsed file (.error e)]
  | generationFailed {files file rest loaded set time e} (ok : Bool)
      (returned : parseFileResult loaded = .ok set) (failed : genFile set time 0 = .error e) :
      Processed outFolder files (file :: rest) (.error e)
        (.parsed file loaded ::
          hppEvents (hppPath outFolder file) (files (hppPath outFolder file)) ok (.error e))
  | next {files rest r events} (j : Job) (before : j.before = files (j.path outFolder))
      (h : Processed outFolder (filesAfter files (j.events outFolder)) rest r events) :
      Processed outFolder files (j.file :: rest) r (j.events outFolder ++ events)

theorem runOn_processList (p : CmdlineParameters) (db : Handle) (listed : List Str)
    (t : ExecState σ) :
    let r := runOn (processList env cli p db listed) t
    ∃ events, r.2.events = t.events ++ events ∧ r.2.files = filesAfter t.files events ∧
      Processed p.outFolder t.files listed r.1 events := by
  induction listed generalizing t with
  | nil => exact ⟨[], by simp [processList], rfl, .done⟩
  | cons file rest ih =>
      obtain ⟨u, hparse, hfiles, hevents⟩ :=
        parseFile_spec env cli file db p.databaseType t
      generalize (runOn (parseFileBody env cli file db p.databaseType) t).1 = loaded
        at hparse hevents
      cases hset : parseFileResult loaded with
      | error e =>
          rw [hset] at hparse
          obtain ⟨rfl, he⟩ := parseFileResult_error_iff.mp hset
          refine ⟨[.parsed file (.error e)], ?_⟩
          rw [processList, runOn_bind_error hparse]
          exact ⟨hevents, hfiles, .loadFailed he⟩
      | ok set =>
          rw [hset] at hparse
          obtain ⟨v, hwrite, hvevents, hvfiles⟩ := writeHpp_spec env p.outFolder file set u
          rw [hfiles] at hvevents hvfiles
          rw [processList, runOn_bind_ok hparse]
          generalize (u.hppFile.file.isNone && env.openFile u.parseCnt (hppPath p.outFolder file))
            = ok at hvevents hvfiles
          cases htext : genFile set (env.ctime u.parseCnt) 0 with
          | error e =>
              rw [htext] at hwrite hvevents hvfiles
              rw [runOn_bind_error hwrite]
              refine ⟨_, ?_, ?_, .generationFailed ok hset htext⟩
              · exact hvevents.trans (by rw [hevents, List.append_assoc]; rfl)
              · exact hvfiles
          | ok text =>
              rw [htext] at hwrite hvevents hvfiles
              rw [runOn_bind_ok hwrite]
              let j : Job := {
                file, loaded, set, text
                before := t.files (hppPath p.outFolder file)
                opened := ok
                time := env.ctime u.parseCnt
                returned := hset
                generated := htext }
              obtain ⟨events, hevents', hfiles', hrest⟩ := ih v
              refine ⟨j.events p.outFolder ++ events, ?_, ?_, .next j rfl ?_⟩
              · rw [hevents', hvevents, hevents]
                simp [j, Job.events, Job.path]
              · rw [hfiles', hvfiles, filesAfter_append]
                rfl
              · have hv : v.files = filesAfter t.files (j.events p.outFolder) := hvfiles
                rw [← hv]
                exact hrest

/-! ## Whole runs -/

theorem raises_closeConnection (db : Handle) :
    Raises (fun _ => False) (Runtime.Connection.closeConnection cli db) := by
  have hcall : ∀ c, Raises (fun _ => False) (Runtime.onWorld (Runtime.cliCall cli c)) :=
    fun c => (raises_of_ok fun w => ⟨_, rfl⟩ : Raises _ (Runtime.cliCall cli c)).zoom
  have hmodify : ∀ f, Raises (fun _ => False) (modify f : Act (ConnWorld σ) Exc PUnit) :=
    fun f => raises_of_ok fun c => ⟨_, rfl⟩
  have hget : Raises (fun _ => False) (get : Act (ConnWorld σ) Exc (ConnWorld σ)) :=
    raises_of_ok fun c => ⟨_, rfl⟩
  have hfree : Raises (fun _ => False) (do
      let t ← get
      let reply ← Runtime.onWorld (Runtime.cliCall cli (.freeHandle .env t.henv))
      pure reply.rc : Act (ConnWorld σ) Exc Runtime.Ret) :=
    hget.bind fun t => (hcall _).bind fun _ => raises_of_ok fun c => ⟨_, rfl⟩
  unfold Runtime.Connection.closeConnection
  apply Raises.ite
  · exact (hcall _).bind fun _ => (hmodify _).bind fun _ => (hcall _).bind fun _ => hfree
  · exact hfree

theorem keepsOutput_disconnect (db : Handle) :
    KeepsOutput (disconnect cli db : Act (ExecState σ) Exc PUnit) :=
  (keepsOutput_onConn _).bind fun _ => within_pure _

theorem raises_disconnect (db : Handle) :
    Raises (fun _ => False) (disconnect cli db : Act (ExecState σ) Exc PUnit) :=
  (raises_closeConnection cli db).zoom.bind fun _ => raises_of_ok fun _ => ⟨_, rfl⟩

/-- Closing the connection changes neither the end of the loop nor the files. -/
theorem runOn_withConnection (m : Act (ExecState σ) Exc α) (db : Handle) (t : ExecState σ) :
    (runOn (withCleanup m (disconnect cli db)) t).1 = (runOn m t).1 ∧
      (runOn (withCleanup m (disconnect cli db)) t).2.output = (runOn m t).2.output := by
  obtain ⟨_, hok⟩ := ends_of_raises_nothing (raises_disconnect cli db) (runOn m t).2
  have hkeep := (keepsOutput_disconnect cli db).output_eq (runOn m t).2
  rw [runOn_withCleanup]
  rcases hd : runOn (disconnect cli db) (runOn m t).2 with ⟨_ | _, u⟩
  · rw [hd] at hok
    cases hok
  · rw [hd] at hkeep
    exact ⟨rfl, hkeep⟩

/-- A run of `process_files`: the files at the end are those at the start after the writes of
its events. It ended before the loop, which is no success, or as the loop did. -/
structure FileRun (p : CmdlineParameters) (t : ExecState σ) (r : Except Exc Nat × ExecState σ)
    (events : List FileEvent) : Prop where
  events_eq : r.2.events = t.events ++ events
  files_eq : r.2.files = filesAfter t.files events
  ends : (events = [] ∧ r.1 ≠ .ok PSts.success.code) ∨
    ∃ e, Processed p.outFolder t.files p.qsqlList e events ∧
      r.1 = e.map fun _ => PSts.success.code

section

variable {p : CmdlineParameters} {t u : ExecState σ} {r : Except Exc Nat × ExecState σ}

theorem FileRun.of_output_eq {events : List FileEvent} (houtput : u.output = t.output)
    (h : FileRun p u r events) : FileRun p t r events := by
  have hfiles : u.files = t.files := congrArg Prod.fst houtput
  have hevents : u.events = t.events := congrArg (fun out => out.2.2) houtput
  refine ⟨?_, ?_, ?_⟩
  · rw [← hevents]
    exact h.events_eq
  · rw [← hfiles]
    exact h.files_eq
  · rw [← hfiles]
    exact h.ends

theorem fileRun_of_output_eq (houtput : r.2.output = t.output)
    (h : r.1 ≠ .ok PSts.success.code) : FileRun p t r [] where
  events_eq := (congrArg (fun out => out.2.2) houtput).trans (List.append_nil _).symm
  files_eq := congrArg Prod.fst houtput
  ends := .inl ⟨rfl, h⟩

/-- A first part that touches no file: the run ends there or goes on from the same files. -/
theorem exists_fileRun_bind {m : Act (ExecState σ) Exc α} {f : α → Act (ExecState σ) Exc Nat}
    (hm : KeepsOutput m) (hf : ∀ a u, ∃ events, FileRun p u (runOn (f a) u) events) :
    ∃ events, FileRun p t (runOn (m >>= f) t) events := by
  have houtput := hm.output_eq t
  rcases hr : runOn m t with ⟨e | a, u⟩
  · rw [hr] at houtput
    rw [runOn_bind_error hr]
    exact ⟨[], fileRun_of_output_eq houtput (by simp)⟩
  · rw [hr] at houtput
    rw [runOn_bind_ok hr]
    obtain ⟨events, h⟩ := hf a u
    exact ⟨events, h.of_output_eq houtput⟩

end

theorem processConnected_fileRun (p : CmdlineParameters) (db : Handle) (t : ExecState σ) :
    ∃ events, FileRun p t (runOn (processConnected env cli p db) t) events := by
  unfold processConnected
  split
  · exact ⟨[], fileRun_of_output_eq rfl (by simp)⟩
  · obtain ⟨events, hevents, hfiles, h⟩ := runOn_processList env cli p db p.qsqlList t
    rcases hr : runOn (processList env cli p db p.qsqlList) t with ⟨e | _, u⟩
    · rw [hr] at hevents hfiles h
      rw [runOn_bind_error hr]
      exact ⟨events, hevents, hfiles, .inr ⟨_, h, rfl⟩⟩
    · rw [hr] at hevents hfiles h
      rw [runOn_bind_ok hr]
      exact ⟨events, hevents, hfiles, .inr ⟨_, h, rfl⟩⟩

/-- Every run of `process_files` is a run over the listed files. -/
theorem processFiles_fileRun (p : CmdlineParameters) (t : ExecState σ) :
    ∃ events, FileRun p t (runOn (processFiles env cli p) t) events := by
  refine exists_fileRun_bind (within_fromResult _) fun gram u => ?_
  cases gram with
  | false => exact ⟨[], fileRun_of_output_eq rfl (by simp [PSts.code])⟩
  | true =>
      refine exists_fileRun_bind (within_fromResult _) fun parser v => ?_
      refine exists_fileRun_bind (within_modify fun _ => rfl) fun _ w => ?_
      refine exists_fileRun_bind (keepsOutput_onConn _) fun db x => ?_
      obtain ⟨events, h⟩ := processConnected_fileRun env cli p db x
      obtain ⟨hend, houtput⟩ := runOn_withConnection cli (processConnected env cli p db) db x
      refine ⟨events, ?_, ?_, ?_⟩
      · exact (congrArg (fun out => out.2.2) houtput).trans h.events_eq
      · exact (congrArg Prod.fst houtput).trans h.files_eq
      · rw [hend]
        exact h.ends

end Dbgen3.Generator
