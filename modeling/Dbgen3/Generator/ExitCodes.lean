import Dbgen3.Generator.Main

/-!
# Exit codes

The exit code says where a run of the program ended: with the flags, in front of
the loop over the files, or at the file whose loading raised a status. The files
that were processed before it have their headers in any case.
-/

namespace Dbgen3.Generator

open Act
open Runs (newEntries newEntries_eq)
open Dbgen3.Runtime (Cli Handle World CoversRuntime)

/-! ## Texts that cannot be generated -/

theorem error_mem_of_concat {parts : List (Except Exc Str)} {e : Exc}
    (h : concat parts = .error e) : .error e ∈ parts := by
  induction parts with
  | nil => cases h
  | cons part parts ih =>
      rcases except_bind_eq_error h with hpart | ⟨text, -, h⟩
      · rw [hpart]
        exact List.mem_cons_self
      · rcases except_bind_eq_error h with hrest | ⟨texts, -, h⟩
        · exact List.mem_cons_of_mem _ (ih hrest)
        · cases h

theorem exists_of_fieldsFrom {line : Nat → FldDscr → Except Exc Str} {flds : List FldDscr}
    {ndx : Nat} {e : Exc} (h : fieldsFrom line ndx flds = .error e) :
    ∃ n el, line n el = .error e := by
  induction flds generalizing ndx with
  | nil => cases h
  | cons el rest ih =>
      rcases except_bind_eq_error h with hline | ⟨text, -, h⟩
      · exact ⟨ndx, el, hline⟩
      · rcases except_bind_eq_error h with hrest | ⟨texts, -, h⟩
        · exact ih hrest
        · cases h

/-- A family of accessors fails with a field of which it prints the type. -/
theorem exists_of_accessors {title : Str} {line : FldDscr → Except Exc Str} {flds : List FldDscr}
    {offs : Nat} {e : Exc} (h : accessors title line flds offs = .error e) :
    ∃ el, line el = .error e := by
  unfold accessors at h
  split at h
  · have hmem := error_mem_of_concat h
    simp only [List.mem_cons, reduceCtorEq, List.not_mem_nil, or_false, false_or] at hmem
    obtain ⟨el, -, hel⟩ := List.mem_map.mp (error_mem_of_concat hmem.symm)
    rcases except_bind_eq_error hel with hline | ⟨text, -, h⟩
    · exact ⟨el, hline⟩
    · cases h
  · cases h

theorem noStatus_lineText {msg : Str} {offs : Nat} {ch : Char} {e : Exc}
    (h : lineText msg offs ch = .error e) : NoStatus e := by
  rintro status msg rfl
  unfold lineText at h
  dsimp only at h
  split at h
  · cases h
  · cases h

theorem noStatus_formattedTypeName {el : FldDscr} {e : Exc} (h : formattedTypeName el = .error e) :
    NoStatus e := by
  rintro status msg rfl
  unfold formattedTypeName at h
  split at h
  · cases h
  · cases h

theorem noStatus_assignedTypeName {el : FldDscr} {e : Exc} (h : assignedTypeName el = .error e) :
    NoStatus e := by
  rintro status msg rfl
  unfold assignedTypeName at h
  split at h
  · cases h
  · cases h

/-- A line that needs the name of a type fails as finding the name does. -/
theorem noStatus_bind {x : Except Exc Str} {f : Str → Str} {e : Exc}
    (hx : ∀ e, x = .error e → NoStatus e) (h : (do let a ← x; pure (f a)) = .error e) :
    NoStatus e := by
  rcases except_bind_eq_error h with hx' | ⟨a, -, h⟩
  · exact hx e hx'
  · cases h

theorem noStatus_defineAttributesConst {flds : List FldDscr} {offs : Nat} {e : Exc}
    (h : defineAttributesConst flds offs = .error e) : NoStatus e := by
  obtain ⟨n, el, h⟩ := exists_of_fieldsFrom h
  rintro status msg rfl
  split at h
  · cases h
  · cases h
  · cases h
  · cases h

theorem noStatus_defineAttrTypes {flds : List FldDscr} {offs : Nat} {e : Exc}
    (h : defineAttrTypes flds offs = .error e) : NoStatus e := by
  obtain ⟨n, el, h⟩ := exists_of_fieldsFrom h
  refine noStatus_bind (fun e h => ?_) h
  rintro status msg rfl
  unfold aliasedType at h
  split at h
  · cases h
  · split at h
    · cases h
    · cases h
    · cases h
    · cases h

theorem noStatus_defineAttributes {flds : List FldDscr} {offs : Nat} {e : Exc}
    (h : defineAttributes flds offs = .error e) : NoStatus e := by
  obtain ⟨n, el, h⟩ := exists_of_fieldsFrom h
  refine noStatus_bind (fun e h => ?_) h
  rintro status msg rfl
  unfold attributeDecl at h
  split at h
  · cases h
  · cases h
  · cases h
  · cases h

theorem noStatus_genBufClass {q : GsqlQ} {bt : Runtime.BufType} {offs : Nat} {e : Exc}
    (h : genBufClass q bt offs = .error e) : NoStatus e := by
  have hmem := error_mem_of_concat h
  simp only [List.mem_cons, reduceCtorEq, List.not_mem_nil, or_false, false_or] at hmem
  rcases hmem with h | h | h | h | h | h | h | h | h | h | h | h
  · exact noStatus_lineText h.symm
  · obtain ⟨el, h⟩ := exists_of_accessors h.symm
    cases h
  · obtain ⟨el, h⟩ := exists_of_accessors h.symm
    cases h
  · obtain ⟨el, h⟩ := exists_of_accessors h.symm
    exact noStatus_bind (fun e h => noStatus_assignedTypeName h) h
  · obtain ⟨el, h⟩ := exists_of_accessors h.symm
    exact noStatus_bind (fun e h => noStatus_assignedTypeName h) h
  · obtain ⟨el, h⟩ := exists_of_accessors h.symm
    exact noStatus_bind (fun e h => noStatus_formattedTypeName h) h
  · obtain ⟨el, h⟩ := exists_of_accessors h.symm
    exact noStatus_bind (fun e h => noStatus_formattedTypeName h) h
  · obtain ⟨el, h⟩ := exists_of_accessors h.symm
    exact noStatus_bind (fun e h => noStatus_assignedTypeName h) h
  · obtain ⟨el, h⟩ := exists_of_accessors h.symm
    exact noStatus_bind (fun e h => noStatus_assignedTypeName h) h
  · exact noStatus_defineAttributesConst h.symm
  · exact noStatus_defineAttrTypes h.symm
  · exact noStatus_defineAttributes h.symm

theorem noStatus_genBuf {q : GsqlQ} {bt : Runtime.BufType} {offs : Nat} {e : Exc}
    (h : genBuf q bt offs = .error e) : NoStatus e := by
  unfold genBuf at h
  dsimp only at h
  split at h
  · exact noStatus_lineText h
  · split at h
    · exact noStatus_lineText h
    · exact noStatus_genBufClass h

theorem noStatus_genQuery {q : GsqlQ} {offs : Nat} {e : Exc} (h : genQuery q offs = .error e) :
    NoStatus e := by
  unfold genQuery at h
  dsimp only at h
  split at h
  · have hmem := error_mem_of_concat h
    simp only [List.mem_cons, reduceCtorEq, List.not_mem_nil, or_false, false_or] at hmem
    rcases hmem with h | h | h | h
    · exact noStatus_lineText h.symm
    · exact noStatus_genBuf h.symm
    · exact noStatus_genBuf h.symm
    · have hutl := error_mem_of_concat h.symm
      simp only [List.mem_cons, reduceCtorEq, List.not_mem_nil, or_false] at hutl
      exact noStatus_lineText hutl.symm
  · exact noStatus_lineText h

/-- Generating a header ends in no status of this program. -/
theorem noStatus_genFile {set : GsqlQSet} {timeStr : Str} {offs : Nat} {e : Exc}
    (h : genFile set timeStr offs = .error e) : NoStatus e := by
  have hmem := error_mem_of_concat h
  simp only [List.mem_cons, reduceCtorEq, List.not_mem_nil, or_false, false_or] at hmem
  obtain ⟨q, -, hq⟩ := List.mem_map.mp (error_mem_of_concat hmem.symm)
  exact noStatus_genQuery hq

/-! ## Statuses of the loading -/

/-- The statuses that the loading of a file can raise. -/
def loadStatuses : List PSts :=
  [.gsqlFileNotExists, .duplicateSqlBufDef, .duplicateSqlDscrDef, .sqlStatTooLong, .invGsqlSyntax]

/-- They differ from the statuses of the flags, of the grammar and of other exceptions. -/
theorem loadStatus_ne : ∀ status ∈ loadStatuses, status.code ∉ [0, 1, 2, 3, 4, 5] ∧
    status ≠ .invGrammarSyntax ∧ status ≠ .unkException ∧ status ≠ .unknownError := by
  decide

/-- An exception whose status, if it has one, is in the list. -/
def StatusIn (statuses : List PSts) (e : Exc) : Prop :=
  ∀ status msg, e = .dbgen3Exc status msg → status ∈ statuses

theorem NoStatus.statusIn {statuses : List PSts} {e : Exc} (h : NoStatus e) :
    StatusIn statuses e := fun status msg he => absurd he (h status msg)

theorem statusIn_of_mem {statuses : List PSts} {status : PSts} (h : status ∈ statuses)
    (msg : Str) : StatusIn statuses (.dbgen3Exc status msg) := by
  intro status' msg' he
  rw [(Exc.dbgen3Exc.inj he).1] at h
  exact h

/-- What comes from outside raises no status of this program. -/
structure ProgramEnv.RaisesNoStatus (env : ProgramEnv) : Prop where
  initializeXml : ∀ e, env.initializeXml = .error e → NoStatus e
  createParser : ∀ e, env.createParser = .error e → NoStatus e
  setErrorHandler : ∀ e, env.setErrorHandler = .error e → NoStatus e
  loadGrammar : ∀ e, env.loadGrammar.2 = .error e → NoStatus e
  parseURI : ∀ n fn e, (env.parseURI n fn).2 = .error e → NoStatus e
  texts : env.toEnv.TextsHaveNoStatus

section

variable {σ : Type} {env : ProgramEnv} {cli : Cli σ} {db : Handle} {dbType : Rdbms}

theorem raises_loadQSet_statusIn (attrs : Attrs) {children : List Dom} (filename : Str)
    (hdata : ∀ e, HasData children (.error e) → NoStatus e) :
    Raises (StatusIn loadStatuses) (loadQSet cli attrs children filename db dbType) := by
  rintro w e w' h status msg rfl
  have hdb : ∀ r, Raises FromDatabase (loadQSqlsetFromDb cli r db) := fun r =>
    raises_loadQSqlsetFromDb r db
  obtain he | ⟨msg', he⟩ | he := raises_loadQSetFrom_of hdb children 0 _ w _ w' h
  · cases he with
    | hdr hmem he =>
        rw [he.status_eq fun e' he' => hdata e' (.element hmem he')]
        decide
    | child hmem he =>
        rw [he.status_eq fun e' he' => hdata e' (.element (mem_qElements hmem) he')]
        decide
    | secondText hmem he hkeys =>
        obtain ⟨msg', he⟩ := he
        rw [(Exc.dbgen3Exc.inj he).1]
        decide
  · rw [(Exc.dbgen3Exc.inj he).1]
    decide
  · exact absurd rfl (he.noStatus _ _)

/-- The `try` block of `parse_file` raises the statuses of the loading. -/
theorem raises_parseFileBody (henv : env.RaisesNoStatus) (file : Str) :
    Raises (StatusIn loadStatuses) (parseFileBody env.toEnv cli file db dbType) := by
  intro t e t' h
  cases hexists : env.toEnv.exists (t.nextCall file) with
  | false =>
      obtain ⟨msg, hbody⟩ := parseFileBody_missing env.toEnv cli db dbType hexists
      rw [hbody] at h
      obtain rfl := Except.error.inj (Prod.mk.inj h).1
      exact statusIn_of_mem (by decide) msg
  | true =>
      rw [parseFileBody_exists env.toEnv cli db dbType hexists] at h
      cases hdoc : (env.toEnv.parsed (t.nextCall file)).2 with
      | error e' =>
          rw [hdoc] at h
          obtain rfl := Except.error.inj (Prod.mk.inj h).1
          exact (henv.parseURI _ _ _ hdoc).statusIn
      | ok doc =>
          rw [hdoc] at h
          dsimp only at h
          unfold parseFileRest at h
          split at h
          · obtain rfl := Except.error.inj (Prod.mk.inj h).1
            exact statusIn_of_mem (by decide) _
          · cases doc with
            | none =>
                obtain rfl := Except.error.inj (Prod.mk.inj h).1
                exact fun status msg he => nomatch he
            | some root =>
                exact (raises_loadQSet_statusIn root.attrs _
                  (henv.texts _ root hdoc)).zoom.zoom _ e t' h

theorem raises_processList (henv : env.RaisesNoStatus) (p : CmdlineParameters)
    (listed : List Str) :
    Raises (StatusIn loadStatuses) (processList env.toEnv cli p db listed) := by
  induction listed with
  | nil => exact raises_of_ok fun t => ⟨⟨⟩, rfl⟩
  | cons file rest ih =>
      have hparse : Raises (StatusIn loadStatuses)
          (parseFile env.toEnv cli file db p.databaseType) := by
        intro t e t' h
        rw [runOn_parseFile] at h
        obtain ⟨hbody, -⟩ := parseFileResult_error_iff.mp (Prod.mk.inj h).1
        exact raises_parseFileBody henv file t e _ (Prod.ext hbody rfl)
      have hwrite : ∀ set, Raises (StatusIn loadStatuses)
          (writeHpp env.toEnv p.outFolder file set : Act (ExecState σ) Exc PUnit) := by
        intro set t e t' h
        obtain ⟨u, hrun, -⟩ := writeHpp_spec env.toEnv p.outFolder file set t
        rw [hrun] at h
        have hend := (Prod.mk.inj h).1
        cases htext : genFile set (env.ctime t.parseCnt) 0 with
        | error e' =>
            rw [htext] at hend
            obtain rfl := Except.error.inj hend
            exact (noStatus_genFile htext).statusIn
        | ok text =>
            rw [htext] at hend
            cases hend
      exact hparse.bind fun set => (hwrite set).bind fun _ => ih

theorem noStatus_coversRuntime : CoversRuntime NoStatus where
  errorException _ := fun _ _ he => nomatch he
  diagnostics he := FromDatabase.noStatus (.diagnostics he)

theorem raises_openConnection (database user password : Str) :
    Raises NoStatus (Runtime.Connection.openConnection cli database user password) := by
  have hcall : ∀ c, Raises NoStatus (Runtime.onWorld (Runtime.cliCall cli c)) := fun c =>
    (raises_of_ok fun w => ⟨_, rfl⟩ : Raises _ (Runtime.cliCall cli c)).zoom
  have hthrow : ∀ rc h type msg,
      Raises NoStatus (Runtime.onWorld (Runtime.throwOnError cli rc h type msg)) := fun _ _ _ _ =>
    (Runtime.raises_throwOnError noStatus_coversRuntime _ _ _ _).zoom
  have hchecked : ∀ c h type msg,
      Raises NoStatus (Runtime.onWorld (Runtime.Connection.checked cli c h type msg)) :=
    fun _ _ _ _ => (Runtime.raises_cliCall_bind fun _ =>
      (Runtime.raises_throwOnError noStatus_coversRuntime _ _ _ _).bind fun _ =>
        Runtime.raises_pure _).zoom
  have hmodify : ∀ f, Raises NoStatus (modify f : Act (Runtime.ConnWorld σ) Exc PUnit) :=
    fun f => raises_of_ok fun c => ⟨_, rfl⟩
  have hget : Raises NoStatus (get : Act (Runtime.ConnWorld σ) Exc (Runtime.ConnWorld σ)) :=
    raises_of_ok fun c => ⟨_, rfl⟩
  have hallocEnv : Raises NoStatus (Runtime.onWorld (Runtime.Connection.allocateEnvHandle cli)) :=
    (Runtime.raises_cliCall_bind fun _ =>
      (Runtime.raises_throwOnError noStatus_coversRuntime _ _ _ _).bind fun _ =>
        Runtime.raises_pure _).zoom
  have halloc : Raises NoStatus (Runtime.Connection.allocateDbHandle cli) := by
    have hrest : Raises NoStatus (do
        let t ← get
        let _ ← Runtime.onWorld (Runtime.Connection.checked cli (.setEnvAttr t.henv) t.henv .env
          "ERROR enabling ODBC 3.8.")
        Runtime.onWorld (Runtime.cliCall cli (.allocHandle .dbc t.henv))) :=
      hget.bind fun t => (hchecked _ _ _ _).bind fun _ => hcall _
    unfold Runtime.Connection.allocateDbHandle
    refine hget.bind fun t => Raises.ite ?_ hrest
    exact hallocEnv.bind fun henv => (hmodify _).bind fun _ => hrest
  have hconnect : ∀ allocated, Raises NoStatus
      (Runtime.Connection.connectTo cli allocated database user password) := by
    intro allocated
    refine hget.bind fun t => (hthrow _ _ _ _).bind fun _ => (hmodify _).bind fun _ => ?_
    exact (hchecked _ _ _ _).bind fun _ => (hchecked _ _ _ _).bind fun _ =>
      raises_of_ok fun c => ⟨_, rfl⟩
  have hrethrow : ∀ {α : Type} (h : Handle) (e : Exc), NoStatus e →
      Raises NoStatus (Runtime.Connection.closeAndRethrow cli h e :
        Act (Runtime.ConnWorld σ) Exc α) := by
    intro α h e he
    unfold Runtime.Connection.closeAndRethrow
    split
    · intro c e' c' hrun
      obtain ⟨rc, hok⟩ := ends_of_raises_nothing (raises_closeConnection cli h) c
      rw [runOn_bind_ok (Prod.ext hok rfl)] at hrun
      obtain rfl := Except.error.inj (Prod.mk.inj hrun).1
      exact he
    · exact raises_throw he
  exact (halloc.orElse fun e he => hrethrow _ _ he).bind fun allocated =>
    (hconnect allocated).orElse fun e he => hrethrow _ _ he

end

/-! ## Where the loop ended -/

/-- The events of the file that ended the loop. -/
inductive FailedFile (outFolder file : Str) (e : Exc) : List FileEvent → Prop
  | load : FailedFile outFolder file e [.parsed file (.error e)]
  | generation {set : GsqlQSet} {time : Str} (loaded : Except Exc GsqlQSet) (before : Option Str)
      (ok : Bool) (failed : genFile set time 0 = .error e) :
      FailedFile outFolder file e
        (.parsed file loaded :: hppEvents (hppPath outFolder file) before ok (.error e))

section

variable {outFolder : Str} {files : Str → Option Str} {listed : List Str}
  {r : Except Exc Unit} {events : List FileEvent}

/-- The loop processes every file, or those in front of one that fails. -/
theorem Processed.split_jobs (h : Processed outFolder files listed r events) :
    ∃ jobs : List Job,
      (r = .ok ⟨⟩ ∧ listed = jobs.map Job.file ∧ events = jobs.flatMap (Job.events outFolder)) ∨
      ∃ file rest e tail, r = .error e ∧ listed = jobs.map Job.file ++ file :: rest ∧
        events = jobs.flatMap (Job.events outFolder) ++ tail ∧
        FailedFile outFolder file e tail := by
  induction h with
  | done => exact ⟨[], .inl ⟨rfl, rfl, rfl⟩⟩
  | loadFailed _ => exact ⟨[], .inr ⟨_, _, _, _, rfl, rfl, rfl, .load⟩⟩
  | generationFailed ok _ failed =>
      exact ⟨[], .inr ⟨_, _, _, _, rfl, rfl, rfl, .generation _ _ ok failed⟩⟩
  | next j _ _ ih =>
      obtain ⟨jobs, ⟨hr, rfl, rfl⟩ | ⟨file, rest, e, tail, hr, rfl, rfl, hfailed⟩⟩ := ih
      · exact ⟨j :: jobs, .inl ⟨hr, rfl, rfl⟩⟩
      · refine ⟨j :: jobs, .inr ⟨file, rest, e, tail, hr, rfl, ?_, hfailed⟩⟩
        rw [List.flatMap_cons, List.append_assoc]

/-- A file that fails leaves its header as it was or empties it. -/
theorem FailedFile.filesAfter_eq {file : Str} {e : Exc} (h : FailedFile outFolder file e events)
    (files : Str → Option Str) :
    filesAfter files events = files ∨
      filesAfter files events = Function.update files (hppPath outFolder file) (some []) := by
  cases h with
  | load => exact .inl rfl
  | generation loaded before ok failed =>
      rw [hppEvents_error]
      cases ok with
      | true => exact .inr rfl
      | false => exact .inl rfl

/-- The log ends with the exception of a status exactly where that ended the loop. -/
theorem FailedFile.status_iff {file : Str} {e : Exc} (h : FailedFile outFolder file e events)
    (status : PSts) :
    (∃ msg, e = .dbgen3Exc status msg) ↔
      ∃ f msg, events.getLast? = some (.parsed f (.error (.dbgen3Exc status msg))) := by
  cases h with
  | load =>
      constructor
      · rintro ⟨msg, rfl⟩
        exact ⟨file, msg, rfl⟩
      · rintro ⟨f, msg, hlast⟩
        injection Option.some.inj hlast with _ he
        exact ⟨msg, Except.error.inj he⟩
  | generation loaded before ok failed =>
      rw [hppEvents_error]
      refine iff_of_false ?_ ?_
      · rintro ⟨msg, rfl⟩
        exact noStatus_genFile failed _ _ rfl
      · rintro ⟨f, msg, hlast⟩
        cases Option.some.inj hlast

theorem FailedFile.ne_nil {file : Str} {e : Exc} (h : FailedFile outFolder file e events) :
    events ≠ [] := by
  cases h with
  | load => exact List.cons_ne_nil _ _
  | generation loaded before ok failed => exact List.cons_ne_nil _ _

/-- A file that was processed was not ended by a status. -/
theorem status_notMem_jobs {jobs : List Job} {file : Str} {status : PSts} {msg : Str} :
    .parsed file (.error (.dbgen3Exc status msg)) ∉ jobs.flatMap (Job.events outFolder) := by
  intro h
  obtain ⟨j, -, hj⟩ := List.mem_flatMap.mp h
  rcases List.mem_cons.mp hj with hj | hj
  · injection hj with _ hloaded
    exact not_rethrown_of_returned (hloaded ▸ j.returned) (.inl rfl)
  · exact parsed_notMem_hppEvents hj

end

/-! ## Runs of the executor -/

/-- A run of `process_files`: it ends in front of the loop, with no status but that of the
grammar, or as the loop does. -/
inductive LoopRun {σ : Type} (p : CmdlineParameters) (t : ExecState σ)
    (r : Except Exc Nat × ExecState σ) : Prop
  | before (files_eq : r.2.files = t.files) (events_eq : r.2.events = t.events)
      (ends : r.1 = .ok PSts.invGrammarSyntax.code ∨
        ∃ e, r.1 = .error e ∧ StatusIn [.invGrammarSyntax] e)
  | loop {x : Except Exc Unit} {events : List FileEvent}
      (files_eq : r.2.files = filesAfter t.files events)
      (events_eq : r.2.events = t.events ++ events)
      (processed : Processed p.outFolder t.files p.qsqlList x events)
      (ends : r.1 = x.map fun _ => PSts.success.code)
      (status : ∀ e, x = .error e → StatusIn loadStatuses e)

section

variable {σ : Type} {env : ProgramEnv} {cli : Cli σ} {p : CmdlineParameters}
  {t u : ExecState σ} {r : Except Exc Nat × ExecState σ}

/-- Neither the files nor the log differ where the run starts. -/
theorem LoopRun.of_eq (hfiles : u.files = t.files) (hevents : u.events = t.events)
    (h : LoopRun p u r) : LoopRun p t r := by
  cases h with
  | before files_eq events_eq ends =>
      exact .before (files_eq.trans hfiles) (events_eq.trans hevents) ends
  | loop files_eq events_eq processed ends status =>
      rw [hfiles] at files_eq processed
      rw [hevents] at events_eq
      exact .loop files_eq events_eq processed ends status

/-- A first part that touches no file: the run ends there or goes on from the same files. -/
theorem loopRun_bind {α : Type} {m : Act (ExecState σ) Exc α}
    {f : α → Act (ExecState σ) Exc Nat} (hm : KeepsOutput m)
    (hraises : Raises (StatusIn [.invGrammarSyntax]) m)
    (hf : ∀ a u, LoopRun p u (runOn (f a) u)) : LoopRun p t (runOn (m >>= f) t) := by
  have houtput := hm.output_eq t
  rcases hr : runOn m t with ⟨e | a, u⟩
  · rw [hr] at houtput
    rw [runOn_bind_error hr]
    exact .before (congrArg Prod.fst houtput) (congrArg (fun out => out.2.2) houtput)
      (.inr ⟨e, rfl, hraises t e u hr⟩)
  · rw [hr] at houtput
    rw [runOn_bind_ok hr]
    exact (hf a u).of_eq (congrArg Prod.fst houtput) (congrArg (fun out => out.2.2) houtput)

theorem processConnected_loopRun (henv : env.RaisesNoStatus) (con : Handle) (t : ExecState σ) :
    LoopRun p t
      (runOn (withCleanup (processConnected env.toEnv cli p con) (disconnect cli con)) t) := by
  obtain ⟨hend, houtput⟩ := runOn_withConnection cli (processConnected env.toEnv cli p con) con t
  have hfiles := congrArg Prod.fst houtput
  have hevents := congrArg (fun out => out.2.2) houtput
  unfold processConnected at hend hfiles hevents
  unfold processConnected
  split at hend
  · next hlang =>
    rw [if_pos hlang] at hfiles hevents ⊢
    exact .before hfiles hevents (.inr ⟨_, hend, fun status msg he => nomatch he⟩)
  · next hlang =>
    rw [if_neg hlang] at hfiles hevents ⊢
    obtain ⟨events, hlog, hwritten, hprocessed⟩ :=
      runOn_processList env.toEnv cli p con p.qsqlList t
    rcases hlist : runOn (processList env.toEnv cli p con p.qsqlList) t with ⟨e | _, u⟩
    · rw [hlist] at hlog hwritten hprocessed
      rw [runOn_bind_error hlist] at hend hfiles hevents
      refine .loop (hfiles.trans hwritten) (hevents.trans hlog) hprocessed hend ?_
      rintro e' he
      obtain rfl := Except.error.inj he
      exact raises_processList henv p p.qsqlList t e u hlist
    · rw [hlist] at hlog hwritten hprocessed
      rw [runOn_bind_ok hlist] at hend hfiles hevents
      exact .loop (hfiles.trans hwritten) (hevents.trans hlog) hprocessed hend nofun

/-- `load_grammar` raises no status but that of the grammar. -/
theorem statusIn_loadGrammar (henv : env.RaisesNoStatus) {e : Exc}
    (h : loadGrammar env.toEnv = .error e) : StatusIn [.invGrammarSyntax] e := by
  rcases except_bind_eq_error h with hcreate | ⟨_, -, h⟩
  · exact (henv.createParser e hcreate).statusIn
  · rcases except_bind_eq_error h with hload | ⟨gram, -, h⟩
    · exact (henv.loadGrammar e hload).statusIn
    · split at h
      · obtain rfl := Except.error.inj h
        exact statusIn_of_mem List.mem_cons_self _
      · cases h

theorem noStatus_newParser (henv : env.RaisesNoStatus) {e : Exc}
    (h : newParser env.toEnv = .error e) : NoStatus e := by
  rcases except_bind_eq_error h with hcreate | ⟨_, -, h⟩
  · exact henv.createParser e hcreate
  · split at h
    · cases h
    · cases h
    · next hset =>
      obtain rfl := Except.error.inj h
      exact henv.setErrorHandler _ hset

theorem processFiles_loopRun (henv : env.RaisesNoStatus) (cli : Cli σ)
    (p : CmdlineParameters) (t : ExecState σ) :
    LoopRun p t (runOn (processFiles env.toEnv cli p) t) := by
  refine loopRun_bind (within_fromResult _)
    (raises_fromResult fun e he => statusIn_loadGrammar henv he) fun gram u => ?_
  cases gram with
  | false => exact .before rfl rfl (.inl rfl)
  | true =>
      refine loopRun_bind (within_fromResult _)
        (raises_fromResult fun e he => (noStatus_newParser henv he).statusIn) fun parser v => ?_
      refine loopRun_bind (within_modify fun _ => rfl) (raises_of_ok fun t => ⟨_, rfl⟩)
        fun _ w => ?_
      refine loopRun_bind (keepsOutput_onConn _) (fun t e t' h => ?_) fun con x => ?_
      · exact ((raises_openConnection p.dbName [] []).zoom t e t' h).statusIn
      · exact processConnected_loopRun henv con x

theorem runExecutor_loopRun (henv : env.RaisesNoStatus) (cli : Cli σ)
    (p : CmdlineParameters) (t : ExecState σ) : LoopRun p t (runOn (runExecutor env cli p) t) := by
  unfold runExecutor
  cases hinit : env.initializeXml with
  | error e =>
      rw [runOn_bind_error (runOn_fromResult _ t)]
      exact .before rfl rfl (.inr ⟨e, rfl, (henv.initializeXml e hinit).statusIn⟩)
  | ok u =>
      rw [runOn_bind_ok (runOn_fromResult _ t), runOn_bind_ok (runOn_modify _ t),
        runOn_withCleanup]
      have h := processFiles_loopRun henv cli p { t with hppFile := {} }
      generalize runOn (processFiles env.toEnv cli p) { t with hppFile := {} } = r at h ⊢
      obtain ⟨v, hclose, hfiles, hevents, -⟩ := runOn_closeExecutor r.2
      rw [hclose]
      cases h with
      | before files_eq events_eq ends =>
          exact .before (hfiles.trans files_eq) (hevents.trans events_eq) ends
      | loop files_eq events_eq processed ends status =>
          exact .loop (hfiles.trans files_eq) (hevents.trans events_eq) processed ends status

end

/-! ## Runs of the program -/

theorem PSts.code_injective : Function.Injective PSts.code := by
  intro a b h
  cases a <;> cases b <;> first | rfl | cases h

theorem CommandLine.checkParameters_mem (folderExists : Str → Bool) (c : CommandLine) :
    c.checkParameters folderExists ∈ [PSts.success, .noDbName, .unknownDbType, .unknownLang,
      .outFolderNotExist, .noGsqlFiles] := by
  unfold checkParameters
  split_ifs <;> decide

/-- Without a display some file is listed when the parameters are in order. -/
theorem CommandLine.qsqlList_ne_nil {folderExists : Str → Bool} {c : CommandLine}
    (hgrammar : c.grammar = false) (htypes : c.types = false)
    (h : c.checkParameters folderExists = .success) : c.qsqlList ≠ [] := by
  intro hnil
  revert h
  simp only [checkParameters, hgrammar, htypes, hnil, Bool.false_eq_true, if_false, if_true]
  split_ifs <;> decide

/-- An exception that is handled gives the code of its status, or one of two others. -/
theorem code_of_handled {e : Exc} {exit : Exit} (h : handled e = .ok exit) :
    (∃ status msg, e = .dbgen3Exc status msg ∧ exit.code = status.code) ∨
      NoStatus e ∧ (exit.code = PSts.unkException.code ∨ exit.code = PSts.unknownError.code) := by
  cases e with
  | dbgen3Exc status msg => exact .inl ⟨status, msg, rfl, (Except.ok.inj h) ▸ rfl⟩
  | errorException what => exact .inr ⟨nofun, .inl ((Except.ok.inj h) ▸ rfl)⟩
  | runtimeError what => exact .inr ⟨nofun, .inl ((Except.ok.inj h) ▸ rfl)⟩
  | xmlException what => exact .inr ⟨nofun, .inr ((Except.ok.inj h) ▸ rfl)⟩
  | domException what => exact .inr ⟨nofun, .inr ((Except.ok.inj h) ▸ rfl)⟩
  | stdExc kind => exact .inr ⟨nofun, .inr ((Except.ok.inj h) ▸ rfl)⟩
  | foreign => exact .inr ⟨nofun, .inr ((Except.ok.inj h) ▸ rfl)⟩
  | terminated => cases h

theorem code_mem_of_handled {statuses : List PSts} {e : Exc} {exit : Exit}
    (he : StatusIn statuses e) (h : handled e = .ok exit) :
    exit.code ∈ (.unkException :: .unknownError :: statuses).map PSts.code := by
  rcases code_of_handled h with ⟨status, msg, rfl, hcode⟩ | ⟨-, hcode | hcode⟩
  · rw [hcode]
    exact List.mem_map_of_mem (List.mem_cons_of_mem _ (List.mem_cons_of_mem _ (he status msg rfl)))
  · rw [hcode]
    exact List.mem_cons_self
  · rw [hcode]
    exact List.mem_cons_of_mem _ List.mem_cons_self

theorem code_of_handled_iff {status : PSts} {e : Exc} {exit : Exit} (h : handled e = .ok exit)
    (h₁ : status ≠ .unkException) (h₂ : status ≠ .unknownError) :
    exit.code = status.code ↔ ∃ msg, e = .dbgen3Exc status msg := by
  rcases code_of_handled h with ⟨status', msg, rfl, hcode⟩ | ⟨hno, hcode⟩
  · rw [hcode]
    constructor
    · intro heq
      exact ⟨msg, congrArg (Exc.dbgen3Exc · msg) (PSts.code_injective heq)⟩
    · rintro ⟨msg', heq⟩
      rw [(Exc.dbgen3Exc.inj heq).1]
  · refine iff_of_false (fun heq => ?_) fun ⟨msg, he⟩ => hno _ _ he
    rcases hcode with hcode | hcode
    · exact h₁ (PSts.code_injective (heq.symm.trans hcode))
    · exact h₂ (PSts.code_injective (heq.symm.trans hcode))

/-- The exit code of a run that was not terminated. -/
def exitCode (r : Except Exc Exit) : Option Nat := r.toOption.map Exit.code

theorem exitCode_handled_ne_success {statuses : List PSts} {e : Exc} (he : StatusIn statuses e)
    (h : .success ∉ statuses) : exitCode (exitOf (.error e)) ≠ some PSts.success.code := by
  intro hcode
  obtain ⟨exit, hexit, hzero⟩ := Option.map_eq_some_iff.mp hcode
  have hhandled : handled e = .ok exit := by
    rw [show handled e = exitOf (.error e) from rfl]
    cases hx : exitOf (.error e) with
    | error e' =>
        rw [hx] at hexit
        cases hexit
    | ok x =>
        rw [hx] at hexit
        exact congrArg Except.ok (Option.some.inj hexit)
  obtain ⟨msg, rfl⟩ := (code_of_handled_iff hhandled (by decide) (by decide)).mp hzero
  exact h (he _ _ rfl)

section

variable {σ : Type} {env : ProgramEnv} {cli : Cli σ} {t : ExecState σ}

/-- A run of the program stops at the flags, with nothing changed, or it is one of the executor. -/
theorem runOn_main_cases (henv : env.RaisesNoStatus) (cli : Cli σ) (flags : Flags)
    (argv : List Str) (t : ExecState σ) :
    let par := CommandLine.new flags argv
    (∃ exit, runOn (main env cli flags argv) t = (.ok exit, t) ∧
        exit.code ∈ [0, 1, 2, 3, 4, 5] ∧
        (exit.code = 0 → flags.grammar = true ∨ flags.types = true)) ∨
      par.qsqlList ≠ [] ∧ ∃ r : Except Exc Nat × ExecState σ,
        runOn (main env cli flags argv) t = (exitOf r.1, r.2) ∧
        LoopRun par.toCmdlineParameters t r := by
  intro par
  by_cases hcheck : par.checkParameters env.folderExists = .success
  · cases hgrammar : flags.grammar with
    | true =>
        exact .inl ⟨_, runOn_main_of_display env cli flags argv t (.inl hgrammar),
          List.mem_cons_self, fun _ => .inl rfl⟩
    | false =>
        cases htypes : flags.types with
        | true =>
            exact .inl ⟨_, runOn_main_of_display env cli flags argv t (.inr htypes),
              List.mem_cons_self, fun _ => .inr rfl⟩
        | false =>
            exact .inr ⟨CommandLine.qsqlList_ne_nil hgrammar htypes hcheck, _,
              runOn_main_of_checked env cli flags argv t hgrammar htypes hcheck,
              runExecutor_loopRun henv cli _ t⟩
  · refine .inl ⟨_, runOn_main_of_refused env cli flags argv t hcheck, ?_, fun hzero => ?_⟩
    · exact List.mem_map_of_mem (f := PSts.code)
        (CommandLine.checkParameters_mem env.folderExists par)
    · have hcode : (par.checkParameters env.folderExists).code = PSts.success.code := hzero
      exact absurd (PSts.code_injective hcode) hcheck

/-- The surroundings with one document, where only the first of two files exists. -/
def ProgramEnv.oneMissing : ProgramEnv where
  parseURI _ _ := ([], .ok (some (oneQuery "q" "select 1")))
  ctime _ := "Thu Jan  1 00:00:00 1970\n"
  fileExists _ fn := fn == "a.xml"

theorem ProgramEnv.oneMissing_raisesNoStatus : oneMissing.RaisesNoStatus where
  initializeXml _ he := by cases he
  createParser _ he := by cases he
  setErrorHandler _ he := by cases he
  loadGrammar _ he := by cases he
  parseURI _ _ _ he := by cases he
  texts := by
    intro c root hroot e he
    obtain rfl := Option.some.inj (Except.ok.inj hroot)
    have hdata : HasData (textQueries [("q", "select 1")]) (.error e) := he
    obtain ⟨q, -, h⟩ := mem_of_hasData_textQueries hdata
    cases h

/-- The flags of a run on a database. -/
def Flags.forDatabase : Flags where
  dbName := "db"
  outFolder := "out"

/-- The command line of a run for two files. -/
def argvOfTwo : List Str := ["dbgen3", "a.xml", "b.xml"]

/-- Without the flags that only print, the exit code is zero exactly when there are listed files and
each of them was processed. The files are then what the headers that could be opened leave when
they are written in order: a later one replaces an earlier one of its path. The header of the file
that ended a run can be empty. -/
theorem main_outputs (henv : env.RaisesNoStatus) (flags : Flags) (argv : List Str)
    (t : ExecState σ) (hgrammar : flags.grammar = false) (htypes : flags.types = false) :
    let par := CommandLine.new flags argv
    let run := runOn (main env cli flags argv) t
    ∃ jobs : List Job,
      jobs.map Job.file <+: par.qsqlList ∧
      jobs.flatMap (Job.events par.outFolder) <+: newEntries ExecState.events t run.2 ∧
      (exitCode run.1 = some PSts.success.code ↔
        par.qsqlList ≠ [] ∧ jobs.map Job.file = par.qsqlList) ∧
      (run.2.files = Store.replay t.files (writtenTexts par.outFolder jobs) ∨
        exitCode run.1 ≠ some PSts.success.code ∧ ∃ file,
          jobs.map Job.file ++ [file] <+: par.qsqlList ∧
          run.2.files = Function.update (Store.replay t.files (writtenTexts par.outFolder jobs))
            (hppPath par.outFolder file) (some [])) := by
  intro par run
  rcases runOn_main_cases henv cli flags argv t with
    ⟨exit, hrun, -, hzero⟩ | ⟨hlisted, r, hrun, hloop⟩
  · have hcode : exit.code ≠ 0 := by
      intro h
      rcases hzero h with h | h
      · exact Bool.false_ne_true (hgrammar.symm.trans h)
      · exact Bool.false_ne_true (htypes.symm.trans h)
    have hfails : exitCode run.1 ≠ some PSts.success.code := by
      rw [show run = _ from hrun]
      exact fun h => hcode (Option.some.inj h)
    refine ⟨[], List.nil_prefix, List.nil_prefix, iff_of_false hfails ?_, .inl ?_⟩
    · rintro ⟨hne, hnil⟩
      exact hne hnil.symm
    · rw [show run = _ from hrun]
      rfl
  · rw [show run = _ from hrun]
    cases hloop with
    | before files_eq events_eq ends =>
        refine ⟨[], List.nil_prefix, List.nil_prefix, iff_of_false ?_ ?_, .inl files_eq⟩
        · rcases ends with hend | ⟨e, hend, hstatus⟩
          · rw [hend]
            exact fun h => absurd (Option.some.inj h) (by decide)
          · rw [hend]
            exact exitCode_handled_ne_success hstatus (by decide)
        · rintro ⟨hne, hnil⟩
          exact hne hnil.symm
    | loop files_eq events_eq processed ends status =>
        rw [newEntries_eq events_eq, files_eq, ends]
        obtain ⟨jobs, ⟨rfl, hall, rfl⟩ | ⟨file, rest, e, tail, rfl, hall, rfl, hfailed⟩⟩ :=
          processed.split_jobs
        · refine ⟨jobs, hall ▸ List.prefix_rfl, List.prefix_rfl, ?_, .inl (filesAfter_jobs _ _)⟩
          exact iff_of_true rfl ⟨hlisted, hall.symm⟩
        · have hfails : exitCode (exitOf (.error e)) ≠ some PSts.success.code :=
            exitCode_handled_ne_success (status e rfl) (by decide)
          refine ⟨jobs, ⟨file :: rest, hall.symm⟩, List.prefix_append _ _,
            iff_of_false hfails ?_, ?_⟩
          · rintro ⟨-, hmap⟩
            rw [← hmap] at hall
            simp at hall
          · rw [filesAfter_append, filesAfter_jobs]
            refine (hfailed.filesAfter_eq _).imp_right fun h => ⟨hfails, file, ⟨rest, ?_⟩, h⟩
            rw [List.append_assoc]
            exact hall.symm

/-- The first of two files is processed. -/
theorem main_outputs_missing :
    let par := CommandLine.new Flags.forDatabase argvOfTwo
    let run := runOn (main ProgramEnv.oneMissing Cli.silent Flags.forDatabase argvOfTwo)
      (ExecState.start fun _ => none)
    ∃ jobs : List Job,
      jobs.map Job.file <+: par.qsqlList ∧
      jobs.flatMap (Job.events par.outFolder) <+:
        newEntries ExecState.events (ExecState.start fun _ => none) run.2 ∧
      (exitCode run.1 = some PSts.success.code ↔
        par.qsqlList ≠ [] ∧ jobs.map Job.file = par.qsqlList) ∧
      (run.2.files = Store.replay (ExecState.start fun _ => none).files
          (writtenTexts par.outFolder jobs) ∨
        exitCode run.1 ≠ some PSts.success.code ∧ ∃ file,
          jobs.map Job.file ++ [file] <+: par.qsqlList ∧
          run.2.files = Function.update (Store.replay (ExecState.start fun _ => none).files
            (writtenTexts par.outFolder jobs)) (hppPath par.outFolder file) (some [])) :=
  main_outputs ProgramEnv.oneMissing_raisesNoStatus Flags.forDatabase argvOfTwo
    (ExecState.start fun _ => none) rfl rfl

/-- The exit code tells where a run ended. With the code of the flags or of the grammar nothing
has changed, and with that of a status of the loading the last event is the load that raised
it. No run ends with the codes for an unknown database or a header that cannot be opened. -/
theorem main_exit_code (henv : env.RaisesNoStatus) (flags : Flags) (argv : List Str)
    {exit : Exit} (hrun : (runOn (main env cli flags argv) t).1 = .ok exit) :
    let u := (runOn (main env cli flags argv) t).2
    let events := newEntries ExecState.events t u
    exit.code ∈ [0, 1, 2, 3, 4, 5, 7, 8, 9, 10, 11, 13, 14, 255] ∧
    (exit.code ∈ [1, 2, 3, 4, 5, 14] → events = [] ∧ u.files = t.files) ∧
    ∀ status ∈ loadStatuses, exit.code = status.code ↔
      ∃ file msg, events.getLast? = some (.parsed file (.error (.dbgen3Exc status msg))) := by
  intro u events
  have hnone : events = [] → ∀ status : PSts, ¬ ∃ file msg,
      events.getLast? = some (.parsed file (.error (.dbgen3Exc status msg))) := by
    rintro h status ⟨file, msg, hlast⟩
    rw [h] at hlast
    cases hlast
  rcases runOn_main_cases henv cli flags argv t with
    ⟨exit', hmain, hcode, -⟩ | ⟨-, r, hmain, hloop⟩
  · obtain rfl := Except.ok.inj ((congrArg Prod.fst hmain).symm.trans hrun)
    have hu : u = t := congrArg Prod.snd hmain
    have hevents : events = [] :=
      newEntries_eq ((congrArg ExecState.events hu).trans (List.append_nil _).symm)
    refine ⟨?_, fun _ => ⟨hevents, congrArg ExecState.files hu⟩, fun status hstatus => ?_⟩
    · revert hcode
      simp only [List.mem_cons, List.not_mem_nil, or_false]
      omega
    · refine iff_of_false (fun h => ?_) (hnone hevents status)
      rw [h] at hcode
      exact (loadStatus_ne status hstatus).1 hcode
  · have hexit := (congrArg Prod.fst hmain).symm.trans hrun
    have hu : r.2 = u := (congrArg Prod.snd hmain).symm
    cases hloop with
    | before files_eq events_eq ends =>
        rw [hu] at files_eq events_eq
        have hevents : events = [] := newEntries_eq (events_eq.trans (List.append_nil _).symm)
        refine ⟨?_, fun _ => ⟨hevents, files_eq⟩, fun status hstatus =>
          iff_of_false (fun h => ?_) (hnone hevents status)⟩
        · rcases ends with hend | ⟨e, hend, he⟩
          · rw [hend] at hexit
            rw [← Except.ok.inj hexit]
            decide
          · rw [hend] at hexit
            have hmem := code_mem_of_handled he hexit
            revert hmem
            simp only [List.map_cons, List.map_nil, PSts.code, List.mem_cons, List.not_mem_nil,
              or_false]
            omega
        · obtain ⟨-, hgrammar, hexc, herr⟩ := loadStatus_ne status hstatus
          rcases ends with hend | ⟨e, hend, he⟩
          · rw [hend] at hexit
            rw [← Except.ok.inj hexit] at h
            exact hgrammar (PSts.code_injective h.symm)
          · rw [hend] at hexit
            obtain ⟨msg, rfl⟩ := (code_of_handled_iff hexit hexc herr).mp h
            exact hgrammar (List.mem_singleton.mp (he _ _ rfl))
    | loop files_eq events_eq processed ends status =>
        rw [hu] at files_eq events_eq
        have hevents := newEntries_eq events_eq
        rw [ends] at hexit
        obtain ⟨jobs, ⟨rfl, -, rfl⟩ | ⟨file, rest, e, tail, rfl, -, rfl, hfailed⟩⟩ :=
          processed.split_jobs
        · obtain rfl := Except.ok.inj hexit
          refine ⟨by decide, fun h => absurd h (by decide), fun st hst =>
            iff_of_false (fun h => ?_) ?_⟩
          · exact (loadStatus_ne st hst).1 (h ▸ List.mem_cons_self)
          · rintro ⟨file, msg, hlast⟩
            rw [show events = _ from hevents] at hlast
            exact status_notMem_jobs (List.mem_of_getLast? hlast)
        · have hmem := code_mem_of_handled (status e rfl) hexit
          simp only [loadStatuses, List.map_cons, List.map_nil, PSts.code, List.mem_cons,
            List.not_mem_nil, or_false] at hmem
          refine ⟨?_, fun h => ?_, fun st hst => ?_⟩
          · simp only [List.mem_cons, List.not_mem_nil, or_false]
            omega
          · simp only [List.mem_cons, List.not_mem_nil, or_false] at h
            omega
          · obtain ⟨-, -, hexc, herr⟩ := loadStatus_ne st hst
            rw [show events = _ from hevents, List.getLast?_append_of_ne_nil _ hfailed.ne_nil,
              code_of_handled_iff hexit hexc herr]
            exact hfailed.status_iff st

/-- The run ends with the code for a file that does not exist. -/
theorem main_exit_code_missing :
    let exit : Exit := { message := some (sl (message .gsqlFileNotExists ["b.xml"])), code := 8 }
    let u := (runOn (main ProgramEnv.oneMissing Cli.silent Flags.forDatabase argvOfTwo)
      (ExecState.start fun _ => none)).2
    let events := newEntries ExecState.events (ExecState.start fun _ => none) u
    exit.code ∈ [0, 1, 2, 3, 4, 5, 7, 8, 9, 10, 11, 13, 14, 255] ∧
    (exit.code ∈ [1, 2, 3, 4, 5, 14] →
      events = [] ∧ u.files = (ExecState.start fun _ => none).files) ∧
    ∀ status ∈ loadStatuses, exit.code = status.code ↔
      ∃ file msg, events.getLast? = some (.parsed file (.error (.dbgen3Exc status msg))) :=
  main_exit_code ProgramEnv.oneMissing_raisesNoStatus Flags.forDatabase argvOfTwo
    (by decide +kernel)

end

end Dbgen3.Generator
