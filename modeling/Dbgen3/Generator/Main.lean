import Dbgen3.Generator.Outputs
import Dbgen3.Generator.Reports

/-!
# The program

`main` reads the flags, checks them and hands them to the executor. Its `catch`
clauses make an exit code of what the executor was ended by; only
`std::terminate` passes them.
-/

namespace Dbgen3.Generator

open Act
open Runs (newEntries newEntries_eq)
open Dbgen3.Runtime (Cli Handle ConnWorld)

/-! ## The command line -/

/-- The flags of the program, with their defaults. -/
structure Flags where
  dbName : Str := ""
  outFolder : Str := "./"
  lang : Str := "cpp"
  dbType : Str := "db2"
  grammar : Bool := false
  types : Bool := false

namespace ProgLang

def all : List ProgLang := [invalid, cpp, java]

def name : ProgLang → Str
  | invalid => "invalid"
  | cpp => "cpp"
  | java => "java"

/-- `enum_cast<PROG_LANG>` of a name. -/
def ofName (token : Str) : Option ProgLang := all.find? fun l => l.name == token

end ProgLang

/-- `cmdline_parameters` with the switches for the two displays. -/
structure CommandLine extends CmdlineParameters where
  grammar : Bool
  types : Bool

namespace CommandLine

/-- `cmdline_parameters::filenames_from_argv`: the first entry is the program. -/
def filenamesFromArgv (argv : List Str) : List Str :=
  if argv.length > 1 then argv.drop 1 else []

/-- `cmdline_parameters::lang_code`. -/
def langCode (token : Str) : ProgLang := (ProgLang.ofName token).getD .invalid

/-- `cmdline_parameters::db_type_code`. -/
def dbTypeCode (token : Str) : Rdbms := (Rdbms.ofName token).getD .sql

/-- The constructor of `cmdline_parameters`. -/
def new (flags : Flags) (argv : List Str) : CommandLine where
  dbName := flags.dbName
  outFolder := flags.outFolder
  qsqlList := filenamesFromArgv argv
  lang := langCode flags.lang
  databaseType := dbTypeCode flags.dbType
  grammar := flags.grammar
  types := flags.types

/-- `cmdline_parameters::check_parameters`. -/
def checkParameters (folderExists : Str → Bool) (c : CommandLine) : PSts :=
  if c.grammar then .success
  else if c.types then .success
  else if c.dbName = [] then .noDbName
  else if c.databaseType = .sql then .unknownDbType
  else if c.lang = .invalid then .unknownLang
  else if ! folderExists c.outFolder then .outFolderNotExist
  else if c.qsqlList = [] then .noGsqlFiles
  else .success

end CommandLine

/-! ## The program -/

/-- The answers from outside to a run of the program. -/
structure ProgramEnv extends Env where
  initializeXml : Except Exc PUnit := .ok ⟨⟩
  folderExists : Str → Bool := fun _ => true

/-- What `main` leaves: the message it logs, if it logs one, and the exit code. -/
structure Exit where
  message : Option Str
  code : Nat
  deriving DecidableEq

variable {σ : Type} (env : ProgramEnv) (cli : Cli σ)

/-- The destructor of the executor closes a header that is still open. -/
def closeExecutor : Act (ExecState σ) Exc PUnit := do
  let t ← get
  if t.hppFile.file.isSome then closeHpp
  else pure ⟨⟩

/-- The executor of `main`: its constructor, `process_files` and its destructor. -/
def runExecutor (p : CmdlineParameters) : Act (ExecState σ) Exc Nat := do
  let _ ← fromResult env.initializeXml
  modify fun t => { t with hppFile := {} }
  withCleanup (processFiles env.toEnv cli p) closeExecutor

/-- The `try` block of `main`, with the flags read. A display only prints. -/
def mainBody (flags : Flags) (argv : List Str) : Act (ExecState σ) Exc Exit := do
  let par := CommandLine.new flags argv
  let sts := par.checkParameters env.folderExists
  if sts = .success then do
    if par.grammar then pure { message := some [], code := sts.code }
    else if par.types then pure { message := some [], code := sts.code }
    else do
      let code ← runExecutor env cli par.toCmdlineParameters
      pure { message := none, code }
  else pure { message := some (sl (dscr sts)), code := sts.code }

/-- The `catch` clauses of `main`. No object of the class of the first clause is thrown. -/
def mainHandler : Exc → Act (ExecState σ) Exc Exit
  | .dbgen3Exc status what => pure { message := some (sl what), code := status.code }
  | .errorException what | .runtimeError what =>
      pure { message := some ("internal error:'" ++ what ++ "'\n"), code := PSts.unkException.code }
  | .xmlException _ | .domException _ | .stdExc _ | .foreign =>
      pure { message := some "unknown exception\n", code := PSts.unknownError.code }
  | .terminated => throw .terminated

/-- `main`. -/
def main (flags : Flags) (argv : List Str) : Act (ExecState σ) Exc Exit :=
  orElse (mainBody env cli flags argv) mainHandler

/-! ## The end of a run -/

section

variable (flags : Flags) (argv : List Str) (t : ExecState σ)

theorem runOn_closeExecutor (t : ExecState σ) :
    ∃ u, runOn closeExecutor t = (.ok ⟨⟩, u) ∧ u.files = t.files ∧ u.events = t.events ∧
      u.conn = t.conn := by
  simp only [closeExecutor, runOn_bind, runOn_get]
  cases t.hppFile.file.isSome with
  | true => exact ⟨_, runOn_modify _ t, rfl, rfl, rfl⟩
  | false => exact ⟨t, rfl, rfl, rfl, rfl⟩

/-- What the `catch` clauses make of an exception. -/
def handled : Exc → Except Exc Exit
  | .dbgen3Exc status what => .ok { message := some (sl what), code := status.code }
  | .errorException what | .runtimeError what =>
      .ok { message := some ("internal error:'" ++ what ++ "'\n"), code := PSts.unkException.code }
  | .terminated => .error .terminated
  | _ => .ok { message := some "unknown exception\n", code := PSts.unknownError.code }

theorem runOn_mainHandler (e : Exc) (t : ExecState σ) :
    runOn (mainHandler e) t = (handled e, t) := by
  cases e with
  | errorException what => rfl
  | runtimeError what => rfl
  | dbgen3Exc status what => rfl
  | xmlException what => rfl
  | domException what => rfl
  | stdExc kind => rfl
  | foreign => rfl
  | terminated => rfl

theorem runOn_main_of_refused
    (h : (CommandLine.new flags argv).checkParameters env.folderExists ≠ .success) :
    let sts := (CommandLine.new flags argv).checkParameters env.folderExists
    runOn (main env cli flags argv) t =
      (.ok { message := some (sl (dscr sts)), code := sts.code }, t) := by
  intro sts
  have hbody : runOn (mainBody env cli flags argv) t =
      (.ok { message := some (sl (dscr sts)), code := sts.code }, t) := by
    change runOn (if sts = .success then _ else _) t = _
    rw [if_neg h]
    rfl
  rw [main, runOn_orElse, hbody]

/-- A display leaves everything as it is. -/
theorem runOn_main_of_display (h : flags.grammar = true ∨ flags.types = true) :
    runOn (main env cli flags argv) t =
      (.ok { message := some [], code := PSts.success.code }, t) := by
  have hcheck : (CommandLine.new flags argv).checkParameters env.folderExists = .success := by
    unfold CommandLine.checkParameters
    rcases h with h | h
    · exact if_pos h
    · split
      · rfl
      · exact if_pos h
  have hbody : runOn (mainBody env cli flags argv) t =
      (.ok { message := some [], code := PSts.success.code }, t) := by
    change runOn (if (CommandLine.new flags argv).checkParameters env.folderExists = .success
      then _ else _) t = _
    rw [if_pos hcheck, hcheck]
    change runOn (if flags.grammar then _ else if flags.types then _ else _) t = _
    split
    · rfl
    · next hgrammar =>
      rw [if_pos (h.resolve_left hgrammar)]
      rfl
  rw [main, runOn_orElse, hbody]

/-- The end of a run whose parameters are in order. -/
def exitOf : Except Exc Nat → Except Exc Exit
  | .ok code => .ok { message := none, code }
  | .error e => handled e

theorem runOn_main_of_checked (hgrammar : flags.grammar = false) (htypes : flags.types = false)
    (h : (CommandLine.new flags argv).checkParameters env.folderExists = .success) :
    let r := runOn (runExecutor env cli (CommandLine.new flags argv).toCmdlineParameters) t
    runOn (main env cli flags argv) t = (exitOf r.1, r.2) := by
  intro r
  have hbody : runOn (mainBody env cli flags argv) t =
      runOn (do
        let code ← runExecutor env cli (CommandLine.new flags argv).toCmdlineParameters
        pure { message := none, code }) t := by
    change runOn (if (CommandLine.new flags argv).checkParameters env.folderExists = .success
      then _ else _) t = _
    rw [if_pos h]
    change runOn (if flags.grammar then _ else if flags.types then _ else _) t = _
    simp only [hgrammar, htypes, Bool.false_eq_true, if_false]
  rw [main, runOn_orElse, hbody]
  rcases hr : r with ⟨e | code, u⟩
  · rw [runOn_bind_error hr]
    exact runOn_mainHandler e u
  · rw [runOn_bind_ok hr]
    rfl

end

end Dbgen3.Generator
