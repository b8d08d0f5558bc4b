import Dbgen3.Runtime.Driver
import Dbgen3.Runtime.Runs
import Dbgen3.Runtime.Setup

/-!
# Batch sizes

`SQL_ATTR_PARAMSET_SIZE` and `SQL_ATTR_ROW_ARRAY_SIZE` live in the driver and are
set only for sizes above one. They fit the buffers at `SQLExecute` as long as no
batch of at most one row follows a larger one.
-/

namespace Dbgen3.Runtime

open Act Runs

variable {σ : Type} {cli : Cli σ} {attr : σ → Handle → StmtAttr → Int}

/-- The driver's sizes are those of the buffers of query object `u`. -/
def SizesAt (attr : σ → Handle → StmtAttr → Int) (u : UtlId) (d : σ) (hp : Heap) : Prop :=
  (∀ p, (hp.utls u).parBuf = some p →
    attr d (hp.handle u) .paramsetSize = max 1 ((hp.bufs p).occupied : Int)) ∧
  ∀ r, (hp.utls u).resBuf = some r →
    attr d (hp.handle u) .rowArraySize = ((hp.bufs r).arrSize : Int)

/-- A parameter buffer of `n` rows is sent as `n` rows: more than one row fits a
32-bit size, and at most one row finds the driver's size still at one. -/
def ParFits (current : Int) (n : Nat) : Prop :=
  if 1 < n then n < 2 ^ 31 else current = 1

/-- A result buffer of at most one row finds the driver's size at its own. -/
def ResFits (current : Int) (n : Nat) : Prop := 1 < n ∨ current = n

/-- The sizes fit before `exec` starts. -/
def SizesFit (attr : σ → Handle → StmtAttr → Int) (u : UtlId) (w : World σ) : Prop :=
  (∀ p, (w.heap.utls u).parBuf = some p →
    ParFits (attr w.drv (w.heap.handle u) .paramsetSize) (w.heap.bufs p).occupied) ∧
  ∀ r, (w.heap.utls u).resBuf = some r →
    ResFits (attr w.drv (w.heap.handle u) .rowArraySize) (w.heap.bufs r).arrSize

/-- The attribute after the conditional call that sets it to `v`. -/
theorem attr_of_assignIf (hk : KeepsAttrs cli attr) {u : UtlId} {s : StmtId} {a : StmtAttr}
    {c : Prop} [Decidable c] {v : Int} {w w' : World σ} {step : Act (World σ) Exc Ret}
    (hstep : ∀ w : World σ, step.runOn w =
      (.ok (cli.call w.drv (.setStmtAttr (w.heap.stmts s).handle a (.int v))).1.rc,
        w.setAttr cli s a (.int v)))
    (h : (Utl.assignIf u c sqlSuccess step).runOn w = (.ok sqlSuccess, w')) :
    attr w'.drv (w.heap.stmts s).handle a =
      if c then v else attr w.drv (w.heap.stmts s).handle a := by
  rcases Utl.assignIf_eq_ok h with ⟨hc, t, hrun, rfl⟩ | ⟨hc, -, rfl⟩
  · rw [hstep, Prod.mk.injEq, Except.ok.injEq] at hrun
    obtain ⟨hrc, rfl⟩ := hrun
    rw [if_pos hc]
    exact hk.set _ _ _ _ hrc
  · rw [if_neg hc]

/-- A computation whose calls do not set attribute `a` of handle `hd` keeps it. -/
theorem attr_of_runOn (hk : KeepsAttrs cli attr) {P : CliCall → Prop} {F : Prop}
    {hd : Handle} {a : StmtAttr}
    {m : Act (World σ) Exc Ret} (hm : Within (QuietStep cli P F) m)
    (hP : ∀ c, P c → c.onStatement ∧ ∀ v, c ≠ .setStmtAttr hd a (.int v)) {w w' : World σ}
    {r : Except Exc Ret} (h : m.runOn w = (r, w')) : attr w'.drv hd a = attr w.drv hd a :=
  view_of_runOn (fun d => attr d hd a) hm
    (fun d c hc => hk.keep d c hd a (hP c hc).1 (hP c hc).2) h

/-- The calls that do not set attribute `a`. -/
def CliCall.keeps (a : StmtAttr) (c : CliCall) : Prop :=
  c.onStatement ∧ ∀ h v, c ≠ .setStmtAttr h a (.int v)

theorem keeps_of_ne {a b : StmtAttr} (hab : b ≠ a) (h : Handle) (v : AttrValue) :
    (CliCall.setStmtAttr h b v).keeps a := by
  refine ⟨trivial, ?_⟩
  intro h' n heq
  injection heq with _ hb _
  exact hab hb

theorem keeps_of_pointer (a b : StmtAttr) (h : Handle) {v : AttrValue} (hv : ∀ n, v ≠ .int n) :
    (CliCall.setStmtAttr h b v).keeps a := by
  refine ⟨trivial, ?_⟩
  intro h' n heq
  injection heq with _ _ hn
  exact hv n hn

theorem bindCall_keeps (a : StmtAttr) {n : Nat} (el : AttrRoot n) (bt : BufType) (h : Handle)
    (ndx : Int) (data : DataAddr) : (el.bindCall bt h ndx data).keeps a := by
  cases bt <;> exact ⟨trivial, by simp [AttrRoot.bindCall]⟩

namespace Utl.Phases

variable {u : UtlId} {sql : Str} {w wp wr ws wb w₁ : World σ}

/-- Preparing and binding leave the numeric attributes alone. -/
theorem attr_after_res (hk : KeepsAttrs cli attr) (h : Phases cli u sql w wp wr ws wb w₁)
    (hd : Handle) (a : StmtAttr) : attr w₁.drv hd a = attr wr.drv hd a := by
  have hP : ∀ c : CliCall, c.keeps a → c.onStatement ∧ ∀ v, c ≠ .setStmtAttr hd a (.int v) :=
    fun c hc => ⟨hc.1, hc.2 hd⟩
  have hbindRes : attr w₁.drv hd a = attr wb.drv hd a :=
    attr_of_runOn hk (within_bindSlot (F := True) trivial fun el bt => bindCall_keeps a el bt)
      hP h.bindRes
  have hbindPar : attr wb.drv hd a = attr (ws.setRc u sqlSuccess).drv hd a :=
    attr_of_runOn hk (within_bindSlot (F := True) trivial fun el bt => bindCall_keeps a el bt)
      hP h.bindPar
  have hprep : attr ws.drv hd a = attr (wr.setRc u sqlSuccess).drv hd a :=
    attr_of_runOn hk (within_prepare (F := True) fun _ _ => ⟨trivial, by simp⟩) hP h.prep
  rw [hbindRes, hbindPar, World.setRc_drv, hprep, World.setRc_drv]

/-- The parameter size at the end of a successful set-up phase. -/
theorem paramset_eq (hk : KeepsAttrs cli attr) (h : Phases cli u sql w wp wr ws wb w₁) {p : BufId}
    (hp : (w.heap.utls u).parBuf = some p) :
    attr w₁.drv (w.heap.handle u) .paramsetSize =
      if 1 < (w.heap.bufs p).occupied then int32 (w.heap.bufs p).occupied
      else attr w.drv (w.heap.handle u) .paramsetSize := by
  have hP : ∀ c : CliCall, c.keeps .paramsetSize →
      c.onStatement ∧ ∀ v, c ≠ .setStmtAttr (w.heap.handle u) .paramsetSize (.int v) :=
    fun c hc => ⟨hc.1, hc.2 _⟩
  have hq := World.setRc_quiet w u sqlSuccess
  obtain ⟨t, hsize, hptr⟩ := prepareParameterBuffer_eq_success h.par (by rwa [hq.parBuf])
  have hset := attr_of_assignIf hk (fun w => runOn_setAttr _ _ _ w) hsize
  have hpar : attr wp.drv (w.heap.handle u) .paramsetSize =
      attr t.drv (w.heap.handle u) .paramsetSize :=
    attr_of_runOn hk (within_setParPointers (F := True) fun h b v hv _ => keeps_of_pointer _ b h hv)
      hP hptr
  have hres : attr wr.drv (w.heap.handle u) .paramsetSize =
      attr (wp.setRc u sqlSuccess).drv (w.heap.handle u) .paramsetSize := by
    refine attr_of_runOn hk (within_prepareResultBuffer (F := True) fun h b v hb => ?_) hP h.res
    rcases hb with rfl | rfl
    · exact keeps_of_ne (by decide) h v
    · exact keeps_of_ne (by decide) h v
  rw [attr_after_res hk h, hres, World.setRc_drv, hpar]
  simpa only [hq.stmt, hq.occupied, World.setRc_stmts, World.setRc_drv, Heap.handle] using hset

/-- The row array size at the end of a successful set-up phase. -/
theorem rowArray_eq (hk : KeepsAttrs cli attr) (h : Phases cli u sql w wp wr ws wb w₁) {r : BufId}
    (hr : (w.heap.utls u).resBuf = some r) :
    attr w₁.drv (w.heap.handle u) .rowArraySize =
      if 1 < (w.heap.bufs r).arrSize then ((w.heap.bufs r).arrSize : Int)
      else attr w.drv (w.heap.handle u) .rowArraySize := by
  have hP : ∀ c : CliCall, c.keeps .rowArraySize →
      c.onStatement ∧ ∀ v, c ≠ .setStmtAttr (w.heap.handle u) .rowArraySize (.int v) :=
    fun c hc => ⟨hc.1, hc.2 _⟩
  have hq := h.quiet_par.trans (World.setRc_quiet wp u sqlSuccess)
  obtain ⟨t, hsize, hptr⟩ := prepareResultBuffer_eq_success h.res (by rwa [hq.resBuf])
  have hset := attr_of_assignIf hk (fun w => runOn_setAttrL _ _ _ w) hsize
  have hpar : attr wp.drv (w.heap.handle u) .rowArraySize =
      attr (w.setRc u sqlSuccess).drv (w.heap.handle u) .rowArraySize := by
    refine attr_of_runOn hk (within_prepareParameterBuffer (F := True) fun h b v hb => ?_) hP h.par
    rcases hb with rfl | ⟨hv, -⟩
    · exact keeps_of_ne (by decide) h v
    · exact keeps_of_pointer _ b h hv
  have hlast : attr wr.drv (w.heap.handle u) .rowArraySize =
      attr t.drv (w.heap.handle u) .rowArraySize :=
    attr_of_runOn hk (within_ifOk (F := True) (within_ssaPtr fun h => keeps_of_ne (by decide) h _))
      hP hptr
  have hh : (wp.heap.stmts (w.heap.utls u).s).handle = w.heap.handle u := h.quiet_par.handle _
  rw [attr_after_res hk h, hlast]
  simpa only [hq.stmt, hq.arrSize, World.setRc_stmts, World.setRc_drv, hh, hpar] using hset

end Utl.Phases

theorem parFits_iff (current : Int) (n : Nat) :
    (if 1 < n then int32 n else current) = max 1 (n : Int) ↔ ParFits current n := by
  unfold ParFits
  split
  · next hn =>
    have hmax : max 1 (n : Int) = n := by omega
    rw [hmax]
    constructor
    · intro h
      have := int32_lt n
      omega
    · intro h
      exact int32_eq_self (by omega) (by omega)
  · next hn =>
    have hmax : max 1 (n : Int) = 1 := by omega
    rw [hmax]

theorem resFits_iff (current : Int) (n : Nat) :
    (if 1 < n then (n : Int) else current) = n ↔ ResFits current n := by
  unfold ResFits
  split
  · next hn => simp [hn]
  · next hn => simp [hn]

/-- The sizes are right at `SQLExecute` exactly when they fit before the call. -/
theorem sizesAt_iff (hk : KeepsAttrs cli attr) {u : UtlId} {sql : Str} {w w₁ : World σ}
    (h : Utl.SetsUp cli u sql w w₁) : SizesAt attr u w₁.drv w₁.heap ↔ SizesFit attr u w := by
  obtain ⟨wp, wr, ws, wb, hph⟩ := h.phases
  have hq := h.reach.heap
  unfold SizesAt SizesFit
  rw [hq.parBuf, hq.resBuf, hq.handle_eq]
  apply and_congr
  · apply forall₂_congr
    intro p hp
    rw [hph.paramset_eq hk hp, hq.occupied, parFits_iff]
  · apply forall₂_congr
    intro r hr
    rw [hph.rowArray_eq hk hr, hq.arrSize, resFits_iff]

/-- The calls of one query object. -/
def onOne (u : UtlId) (ops : List UtlOp) : List (UtlId × UtlOp) := ops.map fun op => (u, op)

/-- In a run of one query object, the driver's sizes are right at every `SQLExecute`
exactly when they fit before every `exec` that gets there. -/
theorem run_sizes_iff (hk : KeepsAttrs cli attr) (u : UtlId) (ops : List UtlOp) (w : World σ) :
    (∀ e ∈ newEvents w (run cli (onOne u ops) w), ∀ h, e.call = .execute h →
        SizesAt attr u e.drv e.heap) ↔
      AllSteps (UtlOp.step cli u)
        (fun w op => ∀ sql, op = .exec sql → (∃ w₁, Utl.SetsUp cli u sql w w₁) → SizesFit attr u w)
        ops w := by
  rw [forall_run_execute_iff, onOne, allSteps_map]
  apply AllSteps.congr
  intro s op _
  constructor
  · rintro h sql rfl ⟨w₁, hw₁⟩
    exact (sizesAt_iff hk hw₁).mp (h sql rfl w₁ hw₁)
  · intro h sql hop w₁ hw₁
    dsimp only at hop
    exact (sizesAt_iff hk hw₁).mpr (h sql hop ⟨w₁, hw₁⟩)

/-! ## Two short runs -/

/-- One query object on handle one with a parameter buffer of ten rows. -/
def insertTen : World RefDriver where
  drv := {}
  heap :=
    { bufs := fun _ =>
        { bt := .par, arrSize := 10, attributes := [AttrRoot.new 10 4 0 4] }
      stmts := fun _ => { sql := "insert into t values (?)", handle := 1 }
      utls := fun _ => { s := 0, parBuf := some 0 } }

/-- A batch of one row, then one of ten. -/
theorem run_sizes_growing :
    KeepsAttrs (RefDriver.cli []) RefDriver.attr ∧
    ∀ e ∈ newEvents insertTen (run (RefDriver.cli []) (onOne 0
        [.setOccupied 0 1, .exec [], .setOccupied 0 10, .exec []]) insertTen),
      ∀ h, e.call = .execute h → SizesAt RefDriver.attr 0 e.drv e.heap := by
  refine ⟨RefDriver.keepsAttrs [], ?_⟩
  apply (run_sizes_iff (RefDriver.keepsAttrs []) 0 _ _).mpr
  simp only [allSteps_cons, allSteps_nil, reduceCtorEq, false_implies, implies_true, true_and,
    and_true]
  constructor
  · rintro sql ⟨rfl⟩ -
    constructor
    · rintro p ⟨rfl⟩
      change ParFits 1 1
      simp [ParFits]
    · rintro r ⟨⟩
  · rintro sql ⟨rfl⟩ -
    constructor
    · rintro p ⟨rfl⟩
      change ParFits 1 10
      simp [ParFits]
    · rintro r ⟨⟩

/-- A batch of ten rows, then one of one row: the driver still sends ten. -/
theorem run_sizes_shrinking :
    KeepsAttrs (RefDriver.cli []) RefDriver.attr ∧
    (∀ a, RefDriver.attr insertTen.drv (insertTen.heap.handle 0) a = 1) ∧
    ¬ ∀ e ∈ newEvents insertTen (run (RefDriver.cli []) (onOne 0
        [.setOccupied 0 10, .exec [], .setOccupied 0 1, .exec []]) insertTen),
      ∀ h, e.call = .execute h → SizesAt RefDriver.attr 0 e.drv e.heap := by
  refine ⟨RefDriver.keepsAttrs [], fun _ => rfl, ?_⟩
  intro h
  have hlast := (forall_run_execute_iff (SizesAt RefDriver.attr 0) _ _).mp h
    [(0, .setOccupied 0 10), (0, .exec []), (0, .setOccupied 0 1)] (0, .exec []) [] rfl [] rfl _ rfl
  have hsize := hlast.1 0 rfl
  revert hsize
  decide

end Dbgen3.Runtime
