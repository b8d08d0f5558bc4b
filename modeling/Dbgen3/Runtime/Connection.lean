import Dbgen3.Runtime.Statement

/-!
# Connections

Opening a connection allocates the environment handle shared by all connections
when nobody holds it yet. A failed step closes what was opened and goes on with
the exception.
-/

namespace Dbgen3.Runtime

open Act

variable {σ : Type} (cli : Cli σ)

/-- The world with the static members of `connection`. -/
structure ConnWorld (σ : Type) where
  world : World σ
  henv : Handle := 0
  henvRefCnt : Nat := 0

/-- Run a computation that does not touch the static members. -/
def onWorld {α : Type} (m : Act (World σ) Exc α) : Act (ConnWorld σ) Exc α :=
  zoom ConnWorld.world (fun w t => { t with world := w }) m

namespace Connection

/-- A call whose failure is raised with the diagnostics of handle `h`. -/
def checked (c : CliCall) (h : Handle) (type : HandleType) (msg : Str) :
    Act (World σ) Exc Reply := do
  let reply ← cliCall cli c
  throwOnError cli reply.rc h type msg
  pure reply

/-- `connection::allocate_env_handle`. -/
def allocateEnvHandle : Act (World σ) Exc Handle := do
  let reply ← cliCall cli (.allocHandle .env 0)
  throwOnError cli reply.rc reply.handle .env "ERROR while allocating the environment handle."
  pure reply.handle

/-- `connection::close_connection`. -/
def closeConnection (dbHandle : Handle) : Act (ConnWorld σ) Exc Ret := do
  if dbHandle ≠ 0 then do
    let _ ← onWorld (cliCall cli (.disconnect dbHandle))
    modify fun t => { t with henvRefCnt := (t.henvRefCnt + (2 ^ 32 - 1)) % 2 ^ 32 }
    let _ ← onWorld (cliCall cli (.freeHandle .dbc dbHandle))
    pure ⟨⟩
  let t ← get
  let reply ← onWorld (cliCall cli (.freeHandle .env t.henv))
  pure reply.rc

/-- The steps of `connection::open_connection` up to the call that allocates the
connection handle. -/
def allocateDbHandle : Act (ConnWorld σ) Exc Reply := do
  let t ← get
  if t.henvRefCnt = 0 then do
    let henv ← onWorld (allocateEnvHandle cli)
    modify fun t => { t with henv := henv }
  let t ← get
  let _ ← onWorld (checked cli (.setEnvAttr t.henv) t.henv .env "ERROR enabling ODBC 3.8.")
  onWorld (cliCall cli (.allocHandle .dbc t.henv))

/-- The steps after that call. An empty database name connects by null pointers. -/
def connectTo (allocated : Reply) (database user password : Str) :
    Act (ConnWorld σ) Exc Handle := do
  let t ← get
  let dbHandle := allocated.handle
  onWorld (throwOnError cli allocated.rc t.henv .env "ERROR allocating db handle.")
  modify fun t => { t with henvRefCnt := (t.henvRefCnt + 1) % 2 ^ 32 }
  let call := if database ≠ [] then
      CliCall.connect dbHandle (nts database) (nts user) (nts password)
    else CliCall.connect dbHandle [] [] []
  let _ ← onWorld (checked cli call dbHandle .dbc "ERROR connecting to the database.")
  let _ ← onWorld (checked cli (.setConnectAttr dbHandle) dbHandle .dbc
    "ERROR cannot switch off auto commit.")
  pure dbHandle

/-- The handler of `connection::open_connection`: only `error_exception` is caught. -/
def closeAndRethrow {α : Type} (dbHandle : Handle) (e : Exc) : Act (ConnWorld σ) Exc α :=
  match e with
  | .errorException _ => do
      let _ ← closeConnection cli dbHandle
      throw e
  | _ => throw e

/-- `connection::open_connection`. The connection handle is zero until the call that
allocates it. -/
def openConnection (database user password : Str) : Act (ConnWorld σ) Exc Handle := do
  let allocated ← orElse (allocateDbHandle cli) (closeAndRethrow cli 0)
  orElse (connectTo cli allocated database user password) (closeAndRethrow cli allocated.handle)

/-- `connection::commit`. -/
def commit (dbHandle : Handle) : Act (World σ) Exc Ret := do
  let reply ← cliCall cli (.endTran dbHandle .commit)
  pure reply.rc

/-- `connection::rollback`. -/
def rollback (dbHandle : Handle) : Act (World σ) Exc Ret := do
  let reply ← cliCall cli (.endTran dbHandle .rollback)
  pure reply.rc

end Connection

end Dbgen3.Runtime
