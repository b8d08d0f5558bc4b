import Dbgen3.Generator.CoreParser
import Dbgen3.Generator.GenCpp
import Dbgen3.Runtime.Connection
import Mathlib.Logic.Function.Basic

/-!
# Processing the listed files

Each listed file is parsed and its header is written. What the XML library, the
file system and the clock answer is a parameter. Every file leaves its events in
a log: how its loading ended, the opening of its header, and the text written.
-/

namespace Dbgen3.Generator

open Act Text
open Dbgen3.Runtime (Cli Handle ConnWorld)

/-! ## The surroundings -/

/-- A `DOMError` as the parser reports it. -/
structure DomError where
  warning : Bool := false
  uri : Str := []
  message : Str := []
  line : Nat := 0
  column : Nat := 0

/-- The root element of a document. -/
structure DomRoot where
  attrs : Attrs
  children : List Dom

/-- The answers from outside the program. A number is that of the call of
`parse_file`, counted from one. A document is missing when there is no root element. -/
structure Env where
  createParser : Except Exc PUnit := .ok ⟨⟩
  setErrorHandler : Except Exc PUnit := .ok ⟨⟩
  loadGrammar : List DomError × Except Exc Bool := ([], .ok true)
  weaklyCanonical : Nat → Str → Str := fun _ p => p
  fileExists : Nat → Str → Bool := fun _ _ => true
  parseURI : Nat → Str → List DomError × Except Exc (Option DomRoot)
  openFile : Nat → Str → Bool := fun _ _ => true
  ctime : Nat → Str

/-! ## State -/

/-- `dom_error_handler`. -/
structure DomErrorHandler where
  failed : Bool := false
  uri : Str := []
  eMsg : Str := []
  line : Nat := 0
  col : Nat := 0
  eType : Str := []

/-- `dom_error_handler::handleError`. -/
def DomErrorHandler.handleError (eh : DomErrorHandler) (e : DomError) : DomErrorHandler :=
  { failed := eh.failed || ! e.warning
    uri := e.uri
    eMsg := e.message
    line := e.line % 2 ^ 32
    col := e.column % 2 ^ 32
    eType := if e.warning then "warning" else "error" }

/-- `core_parser`: its error handler, and whether the XML parser knows it. -/
structure CoreParser where
  eh : DomErrorHandler := {}
  registered : Bool := true

/-- The parser after the errors of a document: only a registered handler hears of them. -/
def CoreParser.report (p : CoreParser) (errors : List DomError) : CoreParser :=
  if p.registered then { p with eh := errors.foldl DomErrorHandler.handleError p.eh } else p

/-- A `std::ofstream`: the file that is open, and whether an operation failed. -/
structure OFStream where
  file : Option Str := none
  fail : Bool := false

/-- What happened to a listed file, in order. -/
inductive FileEvent
  /-- The `try` block of `parse_file` ended with a query set or an exception. -/
  | parsed (file : Str) (result : Except Exc GsqlQSet)
  /-- `before` is what the file held. -/
  | opened (path : Str) (before : Option Str) (ok : Bool)
  | generated (path : Str) (text : Except Exc Str)
  | written (path text : Str)
  deriving DecidableEq

/-- The state of a run: the runtime, the parser, the contents of all files and the stream
of the header. `parseCnt` counts the calls of `parse_file`. -/
structure ExecState (σ : Type) where
  conn : ConnWorld σ
  parser : CoreParser := {}
  files : Str → Option Str
  hppFile : OFStream := {}
  parseCnt : Nat := 0
  events : List FileEvent := []

/-- `PROG_LANG`. -/
inductive ProgLang
  | invalid | cpp | java
  deriving DecidableEq, Repr

/-- `cmdline_parameters`: the members `process_files` reads. -/
structure CmdlineParameters where
  dbName : Str
  outFolder : Str
  qsqlList : List Str
  lang : ProgLang := .cpp
  databaseType : Rdbms

variable {σ α : Type} (env : Env) (cli : Cli σ)

/-- Run a computation on the objects of the runtime. -/
def onConn (m : Act (ConnWorld σ) Exc α) : Act (ExecState σ) Exc α :=
  zoom ExecState.conn (fun c t => { t with conn := c }) m

/-- Note an event. -/
def note (e : FileEvent) : Act (ExecState σ) Exc PUnit :=
  modify fun t => { t with events := t.events ++ [e] }

/-! ## Parsing a file -/

/-- The message for a document that is not well-formed or not valid. -/
def syntaxMessage (eh : DomErrorHandler) : Str :=
  message .invGsqlSyntax [eh.uri, decimal eh.line, decimal eh.col, eh.eType, eh.eMsg]

/-- The call of the XML parser. -/
def parseURI (fn : Str) : Act (ExecState σ) Exc (Option DomRoot) := do
  let t ← get
  let (errors, doc) := env.parseURI t.parseCnt fn
  modify fun t => { t with parser := t.parser.report errors }
  fromResult doc

/-- The `try` block of `core_parser::parse_file`. A missing document without a reported
error is a null pointer that is followed. -/
def parseFileBody (filename : Str) (db : Handle) (dbType : Rdbms) :
    Act (ExecState σ) Exc GsqlQSet := do
  modify fun t => { t with parseCnt := t.parseCnt + 1 }
  let t ← get
  let fn := env.weaklyCanonical t.parseCnt filename
  if env.fileExists t.parseCnt fn then do
    let doc ← parseURI env fn
    let t ← get
    if ! t.parser.eh.failed then
      match doc with
      | none => throw .terminated
      | some root =>
          onConn (Runtime.onWorld (loadQSet cli root.attrs root.children fn db dbType))
    else throw (.dbgen3Exc .invGsqlSyntax (syntaxMessage t.parser.eh))
  else throw (.dbgen3Exc .gsqlFileNotExists (message .gsqlFileNotExists [fn]))

/-- The `catch` clauses of `core_parser::parse_file`. The clauses for the exceptions of the
XML library and the last one only log, and the default query set is returned. -/
def parseFileHandler : Exc → Act (ExecState σ) Exc GsqlQSet
  | .xmlException _ => pure {}
  | .domException _ => pure {}
  | .dbgen3Exc status what => throw (.dbgen3Exc status what)
  | .errorException what => throw (.errorException what)
  | .runtimeError what => throw (.runtimeError what)
  | .stdExc _ => pure {}
  | .foreign => pure {}
  | .terminated => throw .terminated

/-- `core_parser::parse_file`. -/
def parseFile (filename : Str) (db : Handle) (dbType : Rdbms) :
    Act (ExecState σ) Exc GsqlQSet :=
  orElse
    (do
      let set ← parseFileBody env cli filename db dbType
      note (.parsed filename (.ok set))
      pure set)
    (fun e => do
      note (.parsed filename (.error e))
      parseFileHandler e)

/-! ## The header stream -/

/-- The file after `open` in the mode of an output stream: empty. -/
def openHpp (fn : Str) : Act (ExecState σ) Exc PUnit := do
  let t ← get
  let ok := t.hppFile.file.isNone && env.openFile t.parseCnt fn
  note (.opened fn (t.files fn) ok)
  if ok then
    modify fun t => { t with
      files := Function.update t.files fn (some [])
      hppFile := { file := some fn, fail := false } }
  else modify fun t => { t with hppFile := { t.hppFile with fail := true } }

/-- `hpp_file_ << text`: nothing is written to a stream that has failed. -/
def insertText (text : Str) : Act (ExecState σ) Exc PUnit := do
  let t ← get
  match t.hppFile.file, t.hppFile.fail with
  | some fn, false => do
      note (.written fn text)
      modify fun t => { t with
        files := Function.update t.files fn (some ((t.files fn).getD [] ++ text)) }
  | _, _ => modify fun t => { t with hppFile := { t.hppFile with fail := true } }

/-- `hpp_file_.close()`: it fails when no file is open. -/
def closeHpp : Act (ExecState σ) Exc PUnit :=
  modify fun t => { t with
    hppFile := { file := none, fail := t.hppFile.fail || t.hppFile.file.isNone } }

/-! ## The executor -/

/-- The header of a listed file. -/
def hppPath (outFolder file : Str) : Str := Path.join outFolder (Path.stem file ++ ".hpp")

/-- `gen->gen_file(0)` at the time of the call, for the header at `fn`. -/
def generate (fn : Str) (set : GsqlQSet) : Act (ExecState σ) Exc Str := do
  let t ← get
  let text := genFile set (env.ctime t.parseCnt) 0
  note (.generated fn text)
  fromResult text

/-- The steps for one file once its query set is there. -/
def writeHpp (outFolder file : Str) (set : GsqlQSet) : Act (ExecState σ) Exc PUnit := do
  openHpp env (hppPath outFolder file)
  let text ← generate env (hppPath outFolder file) set
  insertText text
  closeHpp

/-- The loop of `executor::process_files`. -/
def processList (p : CmdlineParameters) (db : Handle) :
    List Str → Act (ExecState σ) Exc PUnit
  | [] => pure ⟨⟩
  | file :: rest => do
      let set ← parseFile env cli file db p.databaseType
      writeHpp env p.outFolder file set
      processList p db rest

/-- `executor::load_grammar`: whether there is a grammar. -/
def loadGrammar : Except Exc Bool := do
  let _ ← env.createParser
  let (errors, gram) := env.loadGrammar
  let eh := errors.foldl DomErrorHandler.handleError {}
  let gram ← gram
  if eh.failed then
    throw (.dbgen3Exc .invGrammarSyntax
      (message .invGrammarSyntax [decimal eh.line, decimal eh.col, eh.eMsg]))
  else pure gram

/-- The constructor of `core_parser`. -/
def newParser : Except Exc CoreParser := do
  let _ ← env.createParser
  match env.setErrorHandler with
  | .ok _ => .ok {}
  | .error (.xmlException _) => .ok { registered := false }
  | .error e => .error e

/-- `process_files` with a connection: only the C++ generator exists. -/
def processConnected (p : CmdlineParameters) (db : Handle) : Act (ExecState σ) Exc Nat := do
  if p.lang ≠ .cpp then throw .terminated
  else do
    processList env cli p db p.qsqlList
    pure PSts.success.code

/-- The destructor of the connection. -/
def disconnect (db : Handle) : Act (ExecState σ) Exc PUnit := do
  let _ ← onConn (Runtime.Connection.closeConnection cli db)
  pure ⟨⟩

/-- `executor::process_files`. -/
def processFiles (p : CmdlineParameters) : Act (ExecState σ) Exc Nat := do
  let gram ← fromResult (loadGrammar env)
  if ! gram then pure PSts.invGrammarSyntax.code
  else do
    let parser ← fromResult (newParser env)
    modify fun t => { t with parser := parser }
    let db ← onConn (Runtime.Connection.openConnection cli p.dbName [] [])
    withCleanup (processConnected env cli p db) (disconnect cli db)

end Dbgen3.Generator
