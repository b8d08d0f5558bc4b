import Dbgen3.Generator.Failures
import Dbgen3.Generator.Namespaces

/-!
# Reports of syntax errors

A `core_parser` has one error handler for all files. An error sets `failed_` of
the handler and nothing resets it, while position and message are those of the
last report. The first file with an error decides how every later file without
one is reported.
-/

namespace Dbgen3.Generator

open Act Text
open Dbgen3.Runtime (Cli Handle ConnWorld World)

/-! ## The handler -/

/-- Some reported error is no warning. -/
def hasError (errors : List DomError) : Bool := errors.any fun e => ! e.warning

theorem failed_handleErrors (errors : List DomError) (eh : DomErrorHandler) :
    (errors.foldl DomErrorHandler.handleError eh).failed = (eh.failed || hasError errors) := by
  induction errors generalizing eh with
  | nil => exact (Bool.or_false _).symm
  | cons e errors ih =>
      rw [List.foldl_cons, ih]
      exact Bool.or_assoc _ _ _

/-- After an error nothing is left of the earlier state of the handler. -/
theorem handleErrors_eq_of_hasError {errors : List DomError} (h : hasError errors = true)
    (eh eh' : DomErrorHandler) :
    errors.foldl DomErrorHandler.handleError eh = errors.foldl DomErrorHandler.handleError eh' := by
  obtain ⟨e, hmem, he⟩ := List.any_eq_true.mp h
  obtain ⟨pre, post, rfl⟩ := List.append_of_mem hmem
  have hreset : ∀ eh : DomErrorHandler,
      eh.handleError e = ({} : DomErrorHandler).handleError e := by
    intro eh
    simp only [DomErrorHandler.handleError, he, Bool.or_true]
  rw [List.foldl_append, List.foldl_append, List.foldl_cons, List.foldl_cons, hreset,
    hreset (pre.foldl _ eh')]

/-! ## One call -/

/-- A call of `parse_file`: the name of the file and the number of the call. -/
abbrev ParseCall := Str × Nat

/-- The file of the call exists. -/
def Env.exists (env : Env) (c : ParseCall) : Bool :=
  env.fileExists c.2 (env.weaklyCanonical c.2 c.1)

/-- What the XML parser says about the file of the call. -/
def Env.parsed (env : Env) (c : ParseCall) : List DomError × Except Exc (Option DomRoot) :=
  env.parseURI c.2 (env.weaklyCanonical c.2 c.1)

/-- The file of the call has an error. -/
def Env.Invalid (env : Env) (c : ParseCall) : Prop :=
  env.exists c = true ∧ hasError (env.parsed c).1 = true

/-- The parser comes to the end of the file of the call without an error. -/
def Env.Valid (env : Env) (c : ParseCall) : Prop :=
  env.exists c = true ∧ hasError (env.parsed c).1 = false ∧ ∃ doc, (env.parsed c).2 = .ok doc

/-- What `parse_file` reports of a file that is not well-formed or not valid. -/
def syntaxReport : Except Exc GsqlQSet → Option Str
  | .error (.dbgen3Exc .invGsqlSyntax msg) => some msg
  | _ => none

theorem syntaxReport_parseFileResult (r : Except Exc GsqlQSet) :
    syntaxReport (parseFileResult r) = syntaxReport r := by
  cases r with
  | ok set => rfl
  | error e =>
      cases e with
      | dbgen3Exc status what => rfl
      | errorException what => rfl
      | runtimeError what => rfl
      | xmlException what => rfl
      | domException what => rfl
      | stdExc kind => rfl
      | foreign => rfl
      | terminated => rfl

section

variable {σ : Type} (env : Env) (cli : Cli σ) (db : Handle) (dbType : Rdbms)

/-- The report of the next call of `parse_file`. -/
def report (t : ExecState σ) (file : Str) : Option Str :=
  syntaxReport (runOn (parseFile env cli file db dbType) t).1

/-- The state behind the next call of `parse_file`, also when it throws. -/
def afterParseFile (t : ExecState σ) (file : Str) : ExecState σ :=
  (runOn (parseFile env cli file db dbType) t).2

/-- The next call. -/
def ExecState.nextCall (t : ExecState σ) (file : Str) : ParseCall := (file, t.parseCnt + 1)

/-- The same surroundings with a handler that has heard of no file. -/
def ExecState.unreported (t : ExecState σ) : ExecState σ :=
  { t with parser := { t.parser with eh := {} } }

/-- The `try` block for a file that does not exist. -/
theorem parseFileBody_missing {t : ExecState σ} {file : Str}
    (h : env.exists (t.nextCall file) = false) :
    ∃ msg, runOn (parseFileBody env cli file db dbType) t =
      (.error (.dbgen3Exc .gsqlFileNotExists msg), { t with parseCnt := t.parseCnt + 1 }) := by
  have hfile : env.fileExists (t.parseCnt + 1) (env.weaklyCanonical (t.parseCnt + 1) file) =
      false := h
  simp [parseFileBody, runOn_bind, hfile]

/-- The state when the file of the next call has been parsed. -/
def ExecState.parsed (t : ExecState σ) (file : Str) : ExecState σ :=
  { t with
    parseCnt := t.parseCnt + 1
    parser := t.parser.report (env.parsed (t.nextCall file)).1 }

theorem runOn_parseURI (t : ExecState σ) (file : Str) :
    runOn (parseURI env (env.weaklyCanonical (t.parseCnt + 1) file))
        { t with parseCnt := t.parseCnt + 1 } =
      ((env.parsed (t.nextCall file)).2, t.parsed env file) := by
  simp only [parseURI, runOn_bind, runOn_get, runOn_modify, runOn_fromResult]
  rfl

/-- The rest of the `try` block, with the answer of the parser. -/
def parseFileRest (file : Str) (t : ExecState σ) (doc : Option DomRoot) :
    Except Exc GsqlQSet × ExecState σ :=
  if t.parser.eh.failed then
    (.error (.dbgen3Exc .invGsqlSyntax (syntaxMessage t.parser.eh)), t)
  else match doc with
    | none => (.error .terminated, t)
    | some root =>
        runOn (onConn (Runtime.onWorld (loadQSet cli root.attrs root.children
          (env.weaklyCanonical t.parseCnt file) db dbType))) t

/-- The `try` block for a file that exists. -/
theorem parseFileBody_exists {t : ExecState σ} {file : Str}
    (h : env.exists (t.nextCall file) = true) :
    runOn (parseFileBody env cli file db dbType) t =
      match (env.parsed (t.nextCall file)).2 with
      | .error e => (.error e, t.parsed env file)
      | .ok doc => parseFileRest env cli db dbType file (t.parsed env file) doc := by
  have hfile : env.fileExists (t.parseCnt + 1) (env.weaklyCanonical (t.parseCnt + 1) file) =
      true := h
  simp only [parseFileBody, runOn_bind, runOn_modify, runOn_get, hfile, if_true, runOn_parseURI]
  cases (env.parsed (t.nextCall file)).2 with
  | error e => rfl
  | ok doc =>
      unfold parseFileRest
      cases hfailed : (t.parsed env file).parser.eh.failed with
      | true => simp [hfailed]
      | false =>
          cases doc with
          | none => simp [hfailed]
          | some root =>
              have hcnt : (t.parsed env file).parseCnt = t.parseCnt + 1 := rfl
              simp [hfailed, hcnt]

/-- Loading a document never ends in the exception for a syntax error. -/
theorem raises_loadQSet_not_syntax (attrs : Attrs) {children : List Dom} (filename : Str)
    (hdata : ∀ e, HasData children (.error e) → NoStatus e) :
    Raises (fun e => ∀ msg, e ≠ .dbgen3Exc .invGsqlSyntax msg)
      (loadQSet cli attrs children filename db dbType) := by
  rintro w e w' h msg rfl
  have hdb : ∀ r, Raises FromDatabase (loadQSqlsetFromDb cli r db) := fun r =>
    raises_loadQSqlsetFromDb r db
  obtain he | ⟨msg', he⟩ | he := raises_loadQSetFrom_of hdb children 0 _ w _ w' h
  · cases he with
    | hdr hmem he =>
        have hstatus := he.status_eq fun e' he' => hdata e' (.element hmem he')
        cases hstatus
    | child hmem he =>
        have hstatus := he.status_eq fun e' he' => hdata e' (.element (mem_qElements hmem) he')
        cases hstatus
    | secondText hmem he hkeys =>
        obtain ⟨msg', he⟩ := he
        cases he
  · cases he
  · exact he.noStatus _ _ rfl

theorem syntaxReport_parseFileRest {file : Str} {t : ExecState σ} {doc : Option DomRoot}
    (hdata : ∀ root, doc = some root → ∀ e, HasData root.children (.error e) → NoStatus e) :
    syntaxReport (parseFileRest env cli db dbType file t doc).1 =
      if t.parser.eh.failed then some (syntaxMessage t.parser.eh) else none := by
  unfold parseFileRest
  split
  · rfl
  · cases doc with
    | none => rfl
    | some root =>
        change syntaxReport (runOn (onConn _) t).1 = none
        rw [onConn, runOn_zoom, Runtime.onWorld, runOn_zoom]
        have hraises := raises_loadQSet_not_syntax cli db dbType root.attrs
          (env.weaklyCanonical t.parseCnt file) (hdata root rfl)
        rcases hload : runOn (loadQSet cli root.attrs root.children
          (env.weaklyCanonical t.parseCnt file) db dbType) t.conn.world with ⟨e | set, w⟩
        · have hne := hraises _ e w hload
          unfold syntaxReport
          split
          · next msg heq =>
            obtain rfl := Except.error.inj heq
            exact absurd rfl (hne msg)
          · rfl
        · rfl

theorem parser_parseFileRest (file : Str) (t : ExecState σ) (doc : Option DomRoot) :
    (parseFileRest env cli db dbType file t doc).2.parser = t.parser ∧
      (parseFileRest env cli db dbType file t doc).2.parseCnt = t.parseCnt := by
  unfold parseFileRest
  split
  · exact ⟨rfl, rfl⟩
  · cases doc with
    | none => exact ⟨rfl, rfl⟩
    | some root =>
        change (runOn (onConn _) t).2.parser = _ ∧ (runOn (onConn _) t).2.parseCnt = _
        rw [onConn, runOn_zoom]
        exact ⟨rfl, rfl⟩

/-- Reading the text of a document that was parsed ends in no status of this program. -/
def Env.TextsHaveNoStatus (env : Env) : Prop :=
  ∀ c root, (env.parsed c).2 = .ok (some root) →
    ∀ e, HasData root.children (.error e) → NoStatus e

/-- The report follows from the answer of the parser and from the handler behind it. -/
theorem report_eq (hdata : env.TextsHaveNoStatus) (t : ExecState σ) (file : Str) :
    report env cli db dbType t file =
      if env.exists (t.nextCall file) then
        match (env.parsed (t.nextCall file)).2 with
        | .error e => syntaxReport (.error e)
        | .ok _ =>
            if (t.parsed env file).parser.eh.failed then
              some (syntaxMessage (t.parsed env file).parser.eh)
            else none
      else none := by
  unfold report
  rw [runOn_parseFile, syntaxReport_parseFileResult]
  cases h : env.exists (t.nextCall file) with
  | false =>
      obtain ⟨msg, hbody⟩ := parseFileBody_missing env cli db dbType h
      rw [hbody]
      rfl
  | true =>
      rw [parseFileBody_exists env cli db dbType h, if_pos rfl]
      cases hparsed : (env.parsed (t.nextCall file)).2 with
      | error e => rfl
      | ok doc =>
          apply syntaxReport_parseFileRest
          rintro root rfl
          exact hdata _ root hparsed

/-- The handler behind a call heard of the errors of the file. -/
theorem parser_afterParseFile (t : ExecState σ) (file : Str) :
    (afterParseFile env cli db dbType t file).parser =
        (if env.exists (t.nextCall file) then
          t.parser.report (env.parsed (t.nextCall file)).1 else t.parser) ∧
      (afterParseFile env cli db dbType t file).parseCnt = t.parseCnt + 1 := by
  unfold afterParseFile
  rw [runOn_parseFile]
  cases h : env.exists (t.nextCall file) with
  | false =>
      obtain ⟨msg, hbody⟩ := parseFileBody_missing env cli db dbType h
      rw [hbody]
      exact ⟨rfl, rfl⟩
  | true =>
      rw [parseFileBody_exists env cli db dbType h, if_pos rfl]
      cases (env.parsed (t.nextCall file)).2 with
      | error e => exact ⟨rfl, rfl⟩
      | ok doc => exact parser_parseFileRest env cli db dbType file (t.parsed env file) doc

/-- A call is reported as if it was the first one, unless an error was reported before and the
file has none. -/
theorem report_eq_unreported_iff (hdata : env.TextsHaveNoStatus) {t : ExecState σ}
    (hreg : t.parser.registered = true) (file : Str) :
    report env cli db dbType t file = report env cli db dbType t.unreported file ↔
      (t.parser.eh.failed = true → ¬ env.Valid (t.nextCall file)) := by
  have hcall : t.unreported.nextCall file = t.nextCall file := rfl
  rw [report_eq env cli db dbType hdata, report_eq env cli db dbType hdata, hcall]
  cases hexists : env.exists (t.nextCall file) with
  | false => exact iff_of_true rfl fun _ hvalid => by simp [Env.Valid, hexists] at hvalid
  | true =>
      rw [if_pos rfl, if_pos rfl]
      cases hparsed : (env.parsed (t.nextCall file)).2 with
      | error e => exact iff_of_true rfl fun _ ⟨_, _, doc, hdoc⟩ => by simp [hparsed] at hdoc
      | ok doc =>
          have heh : (t.parsed env file).parser.eh =
              (env.parsed (t.nextCall file)).1.foldl DomErrorHandler.handleError t.parser.eh := by
            simp only [ExecState.parsed, CoreParser.report, hreg, if_true]
          have heh' : (t.unreported.parsed env file).parser.eh =
              (env.parsed (t.nextCall file)).1.foldl DomErrorHandler.handleError {} := by
            simp only [ExecState.parsed, CoreParser.report, ExecState.unreported, hreg, if_true]
            rfl
          dsimp only
          rw [heh, heh']
          cases herror : hasError (env.parsed (t.nextCall file)).1 with
          | true =>
              rw [handleErrors_eq_of_hasError herror t.parser.eh {}]
              exact iff_of_true rfl fun _ hvalid => by simp [Env.Valid, herror] at hvalid
          | false =>
              have hvalid : env.Valid (t.nextCall file) := ⟨hexists, herror, doc, hparsed⟩
              rw [failed_handleErrors, failed_handleErrors, herror, Bool.or_false]
              cases t.parser.eh.failed with
              | true => simp [hvalid]
              | false => simp

/-- The call is reported as by a `core_parser` that has parsed no file, and a file without an
error is not reported. -/
structure ReportedAlone (t : ExecState σ) (file : Str) : Prop where
  independent : report env cli db dbType t file = report env cli db dbType t.unreported file
  accepted : env.Valid (t.nextCall file) → report env cli db dbType t file = none

theorem reportedAlone_iff (hdata : env.TextsHaveNoStatus) {t : ExecState σ}
    (hreg : t.parser.registered = true) (file : Str) :
    ReportedAlone env cli db dbType t file ↔
      (t.parser.eh.failed = true → ¬ env.Valid (t.nextCall file)) := by
  rw [← report_eq_unreported_iff env cli db dbType hdata hreg]
  refine ⟨fun h => h.independent, fun h => ⟨h, ?_⟩⟩
  rintro ⟨hexists, herror, doc, hparsed⟩
  have hcall : t.unreported.nextCall file = t.nextCall file := rfl
  have heh : (t.unreported.parsed env file).parser.eh =
      (env.parsed (t.nextCall file)).1.foldl DomErrorHandler.handleError {} := by
    simp only [ExecState.parsed, CoreParser.report, ExecState.unreported, hreg, if_true]
    rfl
  rw [h, report_eq env cli db dbType hdata, hcall, hexists, if_pos rfl, hparsed]
  dsimp only
  rw [heh, failed_handleErrors, herror]
  rfl

/-! ## A run over many files -/

theorem afterParseFile_registered (t : ExecState σ) (file : Str) :
    (afterParseFile env cli db dbType t file).parser.registered = t.parser.registered := by
  rw [(parser_afterParseFile env cli db dbType t file).1]
  unfold CoreParser.report
  split
  · split
    · rfl
    · rfl
  · rfl

/-- The handler keeps an error for good. -/
theorem afterParseFile_failed {t : ExecState σ} (hreg : t.parser.registered = true) (file : Str) :
    (afterParseFile env cli db dbType t file).parser.eh.failed = true ↔
      t.parser.eh.failed = true ∨ env.Invalid (t.nextCall file) := by
  rw [(parser_afterParseFile env cli db dbType t file).1]
  unfold Env.Invalid
  cases hexists : env.exists (t.nextCall file) with
  | false => simp
  | true =>
      rw [if_pos rfl, CoreParser.report, if_pos hreg]
      dsimp only
      rw [failed_handleErrors, Bool.or_eq_true]
      simp

/-- No call for a file without an error comes when the handler has failed. -/
theorem allSteps_not_valid_iff {t : ExecState σ} (hreg : t.parser.registered = true)
    (files : List Str) :
    Runs.AllSteps (afterParseFile env cli db dbType)
        (fun t file => t.parser.eh.failed = true → ¬ env.Valid (t.nextCall file)) files t ↔
      (t.parser.eh.failed = true → ∀ c ∈ files.zipIdx (t.parseCnt + 1), ¬ env.Valid c) ∧
        (files.zipIdx (t.parseCnt + 1)).Pairwise fun c c' => env.Invalid c → ¬ env.Valid c' := by
  induction files generalizing t with
  | nil => simp
  | cons file files ih =>
      have hreg' : (afterParseFile env cli db dbType t file).parser.registered = true :=
        (afterParseFile_registered env cli db dbType t file).trans hreg
      have hcnt := (parser_afterParseFile env cli db dbType t file).2
      have hcall : t.nextCall file = (file, t.parseCnt + 1) := rfl
      rw [Runs.allSteps_cons, ih hreg', hcnt, afterParseFile_failed env cli db dbType hreg,
        List.zipIdx_cons, List.pairwise_cons, List.forall_mem_cons, hcall]
      constructor
      · rintro ⟨hhead, hafter, hpairs⟩
        exact ⟨fun hf => ⟨hhead hf, hafter (.inl hf)⟩,
          fun c hc hinvalid => hafter (.inr hinvalid) c hc, hpairs⟩
      · rintro ⟨hbefore, hfirst, hpairs⟩
        refine ⟨fun hf => (hbefore hf).1, ?_, hpairs⟩
        rintro (hf | hinvalid)
        · exact (hbefore hf).2
        · exact fun c hc => hfirst c hc hinvalid

/-- Over a run with a new `core_parser` every file is reported as if it was the only one exactly
when no file without an error comes after one with an error. -/
theorem reportedAlone_throughout_iff (hdata : env.TextsHaveNoStatus) (t : ExecState σ)
    (ht : t.parser = {}) (files : List Str) :
    Runs.AllSteps (afterParseFile env cli db dbType)
        (ReportedAlone env cli db dbType) files t ↔
      (files.zipIdx (t.parseCnt + 1)).Pairwise fun c c' => env.Invalid c → ¬ env.Valid c' := by
  have hreg : t.parser.registered = true := by rw [ht]
  have hstart : t.parser.eh.failed = false := by rw [ht]
  have hkeep : ∀ t file, t.parser.registered = true →
      (afterParseFile env cli db dbType t file).parser.registered = true :=
    fun t file h => (afterParseFile_registered env cli db dbType t file).trans h
  have hall := allSteps_not_valid_iff env cli db dbType hreg files
  rw [hstart] at hall
  simp only [Bool.false_eq_true, false_implies, true_and] at hall
  rw [← hall]
  have hiff : ∀ t file, t.parser.registered = true →
      (ReportedAlone env cli db dbType t file ↔
        (t.parser.eh.failed = true → ¬ env.Valid (t.nextCall file))) :=
    fun t file hreg => reportedAlone_iff env cli db dbType hdata hreg file
  constructor
  · intro h
    exact h.of_invariant (fun t file hreg _ => hkeep t file hreg)
      (fun t file hreg => (hiff t file hreg).mp) hreg
  · intro h
    exact h.of_invariant (fun t file hreg _ => hkeep t file hreg)
      (fun t file hreg => (hiff t file hreg).mpr) hreg

end

/-! ## Two files -/

/-- A parser that finds an error in the file `bad.xml` and none in any other. -/
def Env.oneBad : Env where
  parseURI _ fn :=
    if fn = "bad.xml".toList then
      ([{ uri := "bad.xml", message := "expected end of tag 'sql'", line := 3, column := 7 }],
        .ok none)
    else ([], .ok (some { attrs := [], children := [] }))
  ctime _ := "Thu Jan  1 00:00:00 1970\n"

theorem oneBad_textsHaveNoStatus : Env.oneBad.TextsHaveNoStatus := by
  intro c root hroot e he
  unfold Env.parsed Env.oneBad at hroot
  dsimp only at hroot
  split at hroot
  · cases hroot
  · obtain rfl := Option.some.inj (Except.ok.inj hroot)
    exact absurd he (hasData_nil _)

/-- With the bad file last both are reported right. -/
theorem reportedAlone_bad_last :
    Runs.AllSteps (afterParseFile Env.oneBad Cli.silent 1 .db2)
      (ReportedAlone Env.oneBad Cli.silent 1 .db2) ["good.xml", "bad.xml"]
      (ExecState.start fun _ => none) := by
  refine (reportedAlone_throughout_iff Env.oneBad Cli.silent 1 .db2 oneBad_textsHaveNoStatus
    (ExecState.start fun _ => none) rfl ["good.xml", "bad.xml"]).mpr ?_
  refine .cons ?_ (.cons (List.forall_mem_nil _) .nil)
  rintro c - ⟨-, herror⟩
  exact absurd herror (by decide +kernel)

/-- With the bad file first the good one is reported as invalid, with the position and the message
of the bad one. -/
theorem not_reportedAlone_bad_first :
    let t : ExecState Unit := ExecState.start fun _ => none
    let t' := afterParseFile Env.oneBad Cli.silent 1 .db2 t "bad.xml"
    report Env.oneBad Cli.silent 1 .db2 t' "good.xml" = some (message .invGsqlSyntax
        ["bad.xml", "3", "7", "error", "expected end of tag 'sql'"]) ∧
      report Env.oneBad Cli.silent 1 .db2 t'.unreported "good.xml" = none ∧
      ¬ Runs.AllSteps (afterParseFile Env.oneBad Cli.silent 1 .db2)
        (ReportedAlone Env.oneBad Cli.silent 1 .db2) ["bad.xml", "good.xml"] t := by
  intro t t'
  have hstale : report Env.oneBad Cli.silent 1 .db2 t' "good.xml" = some (message .invGsqlSyntax
      ["bad.xml", "3", "7", "error", "expected end of tag 'sql'"]) := by decide +kernel
  have hfresh : report Env.oneBad Cli.silent 1 .db2 t'.unreported "good.xml" = none := by
    decide +kernel
  refine ⟨hstale, hfresh, fun h => ?_⟩
  have halone := (h ["bad.xml"] "good.xml" [] rfl).independent
  change report Env.oneBad Cli.silent 1 .db2 t' "good.xml" =
    report Env.oneBad Cli.silent 1 .db2 t'.unreported "good.xml" at halone
  rw [hstale, hfresh] at halone
  cases halone

end Dbgen3.Generator
