import Dbgen3.Runtime.Statement

/-!
# Buffers and query objects

The methods of `buffer_root` and `utl`. `exec` runs five guarded set-up steps
and then `SQLExecute`; all six share one return code, and the first code other
than `SQL_SUCCESS` skips the rest and goes to `handle_return_code`.
-/

namespace Dbgen3.Runtime

open Act

variable {σ : Type} (cli : Cli σ)

/-! ## Binding -/

/-- `attr_root::width_`. -/
def AttrRoot.width_ {n : Nat} (a : AttrRoot n) : Int := int32 a.width

/-- `attr_root::bind_par` and `attr_root::bind_col`: the call for the attribute at
`data`, at a 16-bit ordinal. -/
def AttrRoot.bindCall {n : Nat} (a : AttrRoot n) (bt : BufType) (h : Handle) (ndx : Int)
    (data : DataAddr) : CliCall :=
  match bt with
  | .par => .bindParameter h (int16 ndx) (cType a.dbType) a.dbType (a.width_ - 1) a.dec data
      a.width_
  | .res => .bindCol h (int16 ndx) (cType a.dbType) data a.width_

/-- The loop of `buffer_root::bind_par` and `bind_col` over the attributes from
position `pos` on. It stops at the first call that does not succeed. -/
def bindFrom {n : Nat} (b : BufId) (bt : BufType) (h : Handle) :
    Nat → List (AttrRoot n) → Act (World σ) Exc Ret
  | _, [] => pure sqlSuccess
  | pos, el :: rest => do
      let reply ← cliCall cli (el.bindCall bt h ((pos : Int) + 1) ⟨b, pos⟩)
      if reply.rc ≠ sqlSuccess then pure reply.rc else bindFrom b bt h (pos + 1) rest

/-- `buffer_root::rebind`: the flag is set when every attribute is bound. -/
def rebind (b : BufId) (h : Handle) : Act (World σ) Exc Ret := do
  let hp ← getHeap
  let rc ← bindFrom cli b (hp.bufs b).bt h 0 (hp.bufs b).attributes
  if rc ≠ sqlSuccess then pure rc else do
    modifyHeap fun hp => hp.updBuf b fun bf => { bf with bind := true }
    pure rc

/-- `buffer_root::bind`: nothing to do for a buffer whose flag is set. -/
def bind (b : BufId) (h : Handle) : Act (World σ) Exc Ret := do
  let hp ← getHeap
  if (hp.bufs b).bind then pure sqlSuccess else rebind cli b h

/-- `buffer_root::set_occupied`. -/
def setOccupied (b : BufId) (v : Nat) : Act (World σ) Exc PUnit :=
  modifyHeap fun hp => hp.updBuf b fun bf => { bf with occupied := v }

/-! ## Query objects -/

namespace Utl

/-- `utl::set_par_buf`. -/
def setParBuf (u : UtlId) (p : Option BufId) : Act (World σ) Exc PUnit :=
  modifyHeap fun hp => hp.updUtl u fun q => { q with parBuf := p }

/-- `utl::set_res_buf`. -/
def setResBuf (u : UtlId) (p : Option BufId) : Act (World σ) Exc PUnit :=
  modifyHeap fun hp => hp.updUtl u fun q => { q with resBuf := p }

/-- The constructor of `utl` that takes no buffer. -/
def new (u : UtlId) (s : StmtId) (db : Handle) (sql : Str) (allowedCodes : List Int) :
    Act (World σ) Exc PUnit := do
  Statement.new cli s db sql
  modifyHeap fun hp => hp.updUtl u fun _ => { s, allowedCodes }

/-- The identities of the buffer members of generated query object `u`. -/
def memberBuf (u : UtlId) : BufType → BufId
  | .par => 2 * u
  | .res => 2 * u + 1

/-- The constructor of a generated class: its buffer members, where it has them, are
new and become the current buffers. `par` and `res` give their sizes and attributes. -/
def newGenerated (u : UtlId) (db : Handle) (sql : Str) (allowedCodes : List Int)
    (par res : Option (Nat × List AttrDscr)) : Act (World σ) Exc PUnit := do
  new cli u u db sql allowedCodes
  modifyHeap fun hp => par.elim hp fun p => hp.updBuf (memberBuf u .par) fun _ => .new .par p.1 p.2
  modifyHeap fun hp => res.elim hp fun r => hp.updBuf (memberBuf u .res) fun _ => .new .res r.1 r.2
  setParBuf u (par.map fun _ => memberBuf u .par)
  setResBuf u (res.map fun _ => memberBuf u .res)

/-- The assignment `rc_ = step`. -/
def assignRc (u : UtlId) (step : Act (World σ) Exc Ret) : Act (World σ) Exc Ret := do
  let rc ← step
  modifyHeap fun hp => hp.updUtl u fun q => { q with rc := rc }
  pure rc

/-- The statement `if (c) rc_ = step`, where `rc_` is `rc` before it. -/
def assignIf (u : UtlId) (c : Prop) [Decidable c] (rc : Ret) (step : Act (World σ) Exc Ret) :
    Act (World σ) Exc Ret :=
  if c then assignRc u step else pure rc

/-- The statement `if (rc_ == SQL_SUCCESS) rc_ = step`. -/
def ifOk (u : UtlId) (rc : Ret) (step : Act (World σ) Exc Ret) : Act (World σ) Exc Ret :=
  assignIf u (rc = sqlSuccess) rc step

/-- The end of `utl::prepare_parameter_buffer`: where the driver writes the number
of processed rows and their statuses. -/
def setParPointers (u : UtlId) (s : StmtId) (p : BufId) (rc : Ret) : Act (World σ) Exc Ret := do
  let rc ← ifOk u rc (Statement.ssaPtr cli s .paramsProcessedPtr (.procesed p))
  ifOk u rc (Statement.ssaPtr cli s .paramStatusPtr (.sVec p))

/-- `utl::prepare_parameter_buffer`. -/
def prepareParameterBuffer (u : UtlId) : Act (World σ) Exc Ret := do
  let rc ← assignRc u (pure sqlSuccess)
  let hp ← getHeap
  let s := (hp.utls u).s
  match (hp.utls u).parBuf with
  | none => pure rc
  | some p => do
      let dim := (hp.bufs p).occupied
      let rc ← assignIf u (dim > 1) rc (Statement.setAttr cli s .paramsetSize (int32 dim))
      setParPointers cli u s p rc

/-- `utl::prepare_result_buffer`. -/
def prepareResultBuffer (u : UtlId) : Act (World σ) Exc Ret := do
  let rc ← assignRc u (pure sqlSuccess)
  let hp ← getHeap
  let s := (hp.utls u).s
  match (hp.utls u).resBuf with
  | none => pure rc
  | some r => do
      let dim := (hp.bufs r).arrSize
      let rc ← assignIf u (dim > 1) rc (Statement.setAttrL cli s .rowArraySize dim)
      ifOk u rc (Statement.ssaPtr cli s .rowsFetchedPtr (.occupiedAddr r))

/-- Bind the buffer behind a pointer to the statement, if there is one. -/
def bindSlot (u : UtlId) (slot : Utl → Option BufId) (rc : Ret) : Act (World σ) Exc Ret := do
  let hp ← getHeap
  match slot (hp.utls u) with
  | none => pure rc
  | some b => ifOk u rc (bind cli b (hp.stmts (hp.utls u).s).handle)

/-- The two buffer steps and the preparation at the start of `utl::exec`. -/
def prepareAll (u : UtlId) (sql : Str) : Act (World σ) Exc Ret := do
  let hp ← getHeap
  let s := (hp.utls u).s
  let rc ← assignRc u (pure sqlSuccess)
  let rc ← ifOk u rc (prepareParameterBuffer cli u)
  let rc ← ifOk u rc (prepareResultBuffer cli u)
  ifOk u rc (Statement.prepare cli s sql)

/-- Everything `utl::exec` does before `SQLExecute`. -/
def setup (u : UtlId) (sql : Str) : Act (World σ) Exc Ret := do
  let rc ← prepareAll cli u sql
  let rc ← bindSlot cli u Utl.parBuf rc
  bindSlot cli u Utl.resBuf rc

/-- `utl::exec`. -/
def exec (u : UtlId) (sql : Str) : Act (World σ) Exc Ret := do
  let hp ← getHeap
  let q := hp.utls u
  let rc ← setup cli u sql
  let rc ← ifOk u rc (Statement.exec cli q.s)
  if rc ≠ sqlSuccess then Statement.handleReturnCode cli q.s rc q.allowedCodes
  else pure sqlSuccess

/-- `utl::fetch`. -/
def fetch (u : UtlId) : Act (World σ) Exc Ret := do
  let hp ← getHeap
  let q := hp.utls u
  match q.resBuf with
  | none => throw (.runtimeError "error - fetch and no result buffer defined.")
  | some r => do
      let rc ← assignRc u
        (Statement.fetchScroll cli q.s sqlFetchNext ((hp.bufs r).arrSize % 2 ^ 32) false)
      if rc = sqlNoData then pure rc
      else Statement.handleReturnCode cli q.s rc q.allowedCodes

/-- `utl::rows_read`. -/
def rowsRead (hp : Heap) (u : UtlId) : Nat :=
  match (hp.utls u).resBuf with
  | none => 0
  | some r => (hp.bufs r).occupied

end Utl

end Dbgen3.Runtime
