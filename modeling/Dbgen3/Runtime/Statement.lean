import Dbgen3.Runtime.World

/-!
# Diagnostics and statements

The functions of `error.cpp` read the diagnostic records of a handle. The
methods of `statement.cpp` issue one driver call each and hand its return code
on, after reading the diagnostics when it is not `SQL_SUCCESS`.
-/

namespace Dbgen3.Runtime

open Act Text

variable {σ : Type} (cli : Cli σ)

/-! ## Diagnostic records -/

/-- `error_dscr::dump`. -/
def DiagRec.dump (r : DiagRec) (msg : Str) : Str :=
  msg ++ " [code: " ++ intDecimal r.code ++ " state: '" ++ r.state ++ "' msg: '" ++ r.msg ++ "']"

/-- `error::wrap_diag_rec`: the return code of one `SQLGetDiagRec` call and the
records read so far. Only a record and the end of the records are accepted. The
build path that ends the last message is left out. -/
def wrapDiagRec (h : Handle) (errors : List DiagRec) :
    DiagReply → Except Exc (Ret × List DiagRec)
  | .success r => .ok (sqlSuccess, errors ++ [r])
  | .successWithInfo n =>
      .error (.runtimeError ("buffer for error description is to short. we need " ++ intDecimal n))
  | .invalidHandle => .error (.runtimeError ("Invalid handle " ++ intDecimal h))
  | .error =>
      .error (.runtimeError "The asynchronous operation on the handle is not completed.")
  | .noData => .ok (sqlNoData, errors)
  | .other rc => .error (.runtimeError ("Unknown error " ++ intDecimal rc))

/-- The loop of `error::load`: it goes on while the answer is `SQL_SUCCESS`. -/
def loadFrom (h : Handle) : List DiagReply → List DiagRec → Except Exc (List DiagRec)
  | [], errors => .ok errors
  | reply :: replies, errors =>
      match wrapDiagRec h errors reply with
      | .error e => .error e
      | .ok (rc, errors') =>
          if rc = sqlSuccess then loadFrom h replies errors' else .ok errors'

/-- `error::load`. -/
def load (d : σ) (type : HandleType) (h : Handle) : Except Exc (List DiagRec) :=
  loadFrom h (cli.diag d type h) []

/-- `error::dump`. -/
def errorDump (errors : List DiagRec) (msg : Str) : Str :=
  msg ++ errors.flatMap fun r => r.dump [] ++ "\n"

/-- Diagnostics that are records only, up to the end of the records, can be read. -/
theorem loadFrom_ok {h : Handle} {replies : List DiagReply} (errors : List DiagRec)
    (hr : ∀ r ∈ replies, r = .noData ∨ ∃ d, r = .success d) :
    ∃ errors', loadFrom h replies errors = .ok errors' := by
  induction replies generalizing errors with
  | nil => exact ⟨errors, rfl⟩
  | cons reply replies ih =>
      have htail : ∀ r ∈ replies, r = .noData ∨ ∃ d, r = .success d :=
        fun r hmem => hr r (List.mem_cons_of_mem _ hmem)
      rcases hr reply List.mem_cons_self with rfl | ⟨d, rfl⟩
      · exact ⟨errors, by simp [loadFrom, wrapDiagRec, sqlNoData, sqlSuccess]⟩
      · obtain ⟨errors', he⟩ := ih (errors ++ [d]) htail
        exact ⟨errors', by simpa [loadFrom, wrapDiagRec] using he⟩

/-- `connection::throw_on_error`. -/
def throwOnError (rc : Ret) (h : Handle) (type : HandleType) (msg : Str) :
    Act (World σ) Exc PUnit := do
  let w ← get
  if rc ≠ sqlSuccess then do
    let errors ← fromResult (load cli w.drv type h)
    throw (.errorException (errorDump errors msg))
  else pure ⟨⟩

/-- `connection::alloc_stmt_handle`. -/
def allocStmtHandle (db : Handle) : Act (World σ) Exc Handle := do
  let reply ← cliCall cli (.allocHandle .stmt db)
  throwOnError cli reply.rc db .stmt "Can not allocate statement handle."
  pure reply.handle

/-! ## Statements -/

namespace Statement

/-- The constructor of `statement`. -/
def new (s : StmtId) (db : Handle) (sql : Str) : Act (World σ) Exc PUnit := do
  let handle ← allocStmtHandle cli db
  modifyHeap fun hp => hp.updStmt s fun _ => { sql, handle }

/-- `statement::chk`: read the diagnostics of a failed call. -/
def chk (s : StmtId) (errCode : Ret) (shouldThrow : Bool) : Act (World σ) Exc Ret := do
  let w ← get
  let st := w.heap.stmts s
  if errCode ≠ sqlSuccess then do
    let errors ← fromResult (load cli w.drv .stmt st.handle)
    let str := errorDump errors st.sql
    if shouldThrow then throw (.errorException str) else pure errCode
  else pure errCode

/-- `statement::set_sql`: another text is not prepared yet. -/
def setSql (s : StmtId) (sql : Str) : Act (World σ) Exc PUnit :=
  modifyHeap fun hp =>
    if (hp.stmts s).sql ≠ sql then
      hp.updStmt s fun st => { st with sql := sql, isPrepared := false }
    else hp

/-- What follows `set_sql` in `exec_direct`: the text of the statement is executed. -/
def execGiven (s : StmtId) (shouldThrow : Bool) : Act (World σ) Exc Ret := do
  let hp ← getHeap
  let st := hp.stmts s
  let reply ← cliCallWriting cli (.execDirect st.handle (nts st.sql))
  chk cli s reply.rc shouldThrow

/-- `statement::exec_direct`. -/
def execDirect (s : StmtId) (sql : Str) (shouldThrow : Bool) : Act (World σ) Exc Ret := do
  if sql ≠ [] then setSql s sql
  execGiven cli s shouldThrow

/-- `statement::exec`. -/
def exec (s : StmtId) : Act (World σ) Exc Ret := do
  let hp ← getHeap
  let reply ← cliCallWriting cli (.execute (hp.stmts s).handle)
  chk cli s reply.rc false

/-- What follows `set_sql` in `prepare`: the text is prepared unless it is already. -/
def prepareGiven (s : StmtId) : Act (World σ) Exc Ret := do
  let hp ← getHeap
  let st := hp.stmts s
  if ! st.isPrepared then do
    let reply ← cliCall cli (.prepare st.handle (nts st.sql))
    let rc ← chk cli s reply.rc false
    modifyHeap fun hp => hp.updStmt s fun st => { st with isPrepared := decide (rc = sqlSuccess) }
    pure rc
  else pure sqlSuccess

/-- `statement::prepare`. -/
def prepare (s : StmtId) (sql : Str) : Act (World σ) Exc Ret := do
  if sql ≠ [] then setSql s sql
  prepareGiven cli s

theorem execDirect_eq (s : StmtId) (sql : Str) (shouldThrow : Bool) :
    execDirect cli s sql shouldThrow =
      if sql ≠ [] then setSql s sql >>= fun _ => execGiven cli s shouldThrow
      else execGiven cli s shouldThrow := rfl

theorem prepare_eq (s : StmtId) (sql : Str) :
    prepare cli s sql =
      if sql ≠ [] then setSql s sql >>= fun _ => prepareGiven cli s
      else prepareGiven cli s := rfl

/-- `statement::fetch_scroll`: the length is a 32-bit unsigned number, read as signed. -/
def fetchScroll (s : StmtId) (dir : Int) (len : Nat) (shouldThrow : Bool) :
    Act (World σ) Exc Ret := do
  let hp ← getHeap
  let reply ← cliCallWriting cli (.fetchScroll (hp.stmts s).handle dir (int32 len))
  chk cli s reply.rc shouldThrow

/-- The first diagnostic record whose code is allowed, with that code. -/
def allowedCode (errors : List DiagRec) (allowedCodes : List Int) : Option Int :=
  errors.findSome? fun ec => allowedCodes.find? fun code => ec.code == code

theorem allowedCode_eq_none_iff {errors : List DiagRec} {allowedCodes : List Int} :
    allowedCode errors allowedCodes = none ↔ ∀ ec ∈ errors, ec.code ∉ allowedCodes := by
  unfold allowedCode
  rw [List.findSome?_eq_none_iff]
  refine forall₂_congr fun ec _ => ?_
  rw [List.find?_eq_none]
  constructor
  · intro h hmem
    exact h ec.code hmem (beq_self_eq_true _)
  · intro h code hcode heq
    exact h (eq_of_beq heq ▸ hcode)

/-- `statement::handle_return_code`. -/
def handleReturnCode (s : StmtId) (rc : Ret) (allowedCodes : List Int) :
    Act (World σ) Exc Ret := do
  if rc ≠ sqlSuccess then do
    let w ← get
    let st := w.heap.stmts s
    let errors ← fromResult (load cli w.drv .stmt st.handle)
    match allowedCode errors allowedCodes with
    | some code => pure (int16 code)
    | none => throw (.errorException (errorDump errors st.sql))
  else pure (int16 rc)

/-- `statement::set_attr` for an `int` value. -/
def setAttr (s : StmtId) (attr : StmtAttr) (value : Int) : Act (World σ) Exc Ret := do
  let hp ← getHeap
  let reply ← cliCall cli (.setStmtAttr (hp.stmts s).handle attr (.int value))
  pure reply.rc

/-- `statement::set_attr_l` for an unsigned value. -/
def setAttrL (s : StmtId) (attr : StmtAttr) (value : Nat) : Act (World σ) Exc Ret := do
  let hp ← getHeap
  let reply ← cliCall cli (.setStmtAttr (hp.stmts s).handle attr (.int value))
  pure reply.rc

/-- `statement::SSA_ptr`. -/
def ssaPtr (s : StmtId) (attr : StmtAttr) (value : AttrValue) : Act (World σ) Exc Ret := do
  let hp ← getHeap
  let reply ← cliCall cli (.setStmtAttr (hp.stmts s).handle attr value)
  pure reply.rc

/-- `statement::rollback`. -/
def rollback (db : Handle) : Act (World σ) Exc Ret := do
  let reply ← cliCall cli (.endTran db .rollback)
  pure reply.rc

/-- The destructor: an exception of `dealloc_stmt_handle` ends the program. -/
def dispose (s : StmtId) : Act (World σ) Exc PUnit := do
  let hp ← getHeap
  let h := (hp.stmts s).handle
  orElse
    (do
      let reply ← cliCall cli (.freeHandle .stmt h)
      throwOnError cli reply.rc h .stmt
        ("Can't free statement handle handle=" ++ intDecimal h ++ "."))
    fun _ => throw .terminated

/-- A block with a local statement without a text. -/
def withLocal {α : Type} (s : StmtId) (db : Handle) (body : Act (World σ) Exc α) :
    Act (World σ) Exc α := do
  new cli s db []
  withCleanup body (dispose cli s)

end Statement

end Dbgen3.Runtime
