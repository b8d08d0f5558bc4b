import Dbgen3.Runtime.Exec

/-!
# A successful set-up phase, step by step

A set-up phase that ends with `SQL_SUCCESS` went through all five steps. The
lemmas here cut it into these steps and say what each left in the driver, in
terms of views of the driver that the other steps do not change.
-/

namespace Dbgen3.Runtime

open Act Relation

variable {σ : Type} {cli : Cli σ}

/-- The world with another stored return code. -/
def World.setRc (w : World σ) (u : UtlId) (rc : Ret) : World σ :=
  { w with heap := w.heap.updUtl u fun q => { q with rc := rc } }

section SetRc

variable (w : World σ) (u : UtlId) (rc : Ret)

@[simp] theorem World.setRc_drv : (w.setRc u rc).drv = w.drv := rfl
@[simp] theorem World.setRc_trace : (w.setRc u rc).trace = w.trace := rfl
@[simp] theorem World.setRc_bufs : (w.setRc u rc).heap.bufs = w.heap.bufs := rfl
@[simp] theorem World.setRc_stmts : (w.setRc u rc).heap.stmts = w.heap.stmts := rfl

theorem World.setRc_quiet : w.heap.Quiet (w.setRc u rc).heap := .updUtl_rc _ _ _

end SetRc

/-- What a quiet computation reached from `w` leaves alone. -/
theorem quiet_of_runOn {E α : Type} {P : CliCall → Prop} {F : Prop} {m : Act (World σ) E α}
    (hm : Within (QuietStep cli P F) m) {w w' : World σ} {r : Except E α}
    (h : m.runOn w = (r, w')) : w.heap.Quiet w'.heap := by
  have hq := (quietReach hm w).heap
  rwa [h] at hq

theorem view_of_runOn {E α β : Type} {P : CliCall → Prop} {F : Prop} {m : Act (World σ) E α}
    (view : σ → β) (hm : Within (QuietStep cli P F) m)
    (hv : ∀ d c, P c → view (cli.call d c).2 = view d) {w w' : World σ} {r : Except E α}
    (h : m.runOn w = (r, w')) : view w'.drv = view w.drv := by
  have hview := quiet_view_eq hm hv w
  rwa [h] at hview

theorem bufs_of_runOn {E α : Type} {P : CliCall → Prop} {m : Act (World σ) E α}
    (hm : Within (QuietStep cli P False) m) {w w' : World σ} {r : Except E α}
    (h : m.runOn w = (r, w')) : w'.heap.bufs = w.heap.bufs := by
  have hbufs := quiet_bufs_eq hm w
  rwa [h] at hbufs

/-! ## Statement attributes -/

/-- The world after a statement attribute was set on the handle of statement `s`. -/
def World.setAttr (w : World σ) (cli : Cli σ) (s : StmtId) (attr : StmtAttr) (v : AttrValue) :
    World σ :=
  w.issue cli (.setStmtAttr (w.heap.stmts s).handle attr v)

theorem runOn_setAttr (s : StmtId) (attr : StmtAttr) (v : Int) (w : World σ) :
    (Statement.setAttr cli s attr v).runOn w =
      (.ok (cli.call w.drv (.setStmtAttr (w.heap.stmts s).handle attr (.int v))).1.rc,
        w.setAttr cli s attr (.int v)) := rfl

theorem runOn_setAttrL (s : StmtId) (attr : StmtAttr) (v : Nat) (w : World σ) :
    (Statement.setAttrL cli s attr v).runOn w =
      (.ok (cli.call w.drv (.setStmtAttr (w.heap.stmts s).handle attr (.int v))).1.rc,
        w.setAttr cli s attr (.int v)) := rfl

theorem runOn_ssaPtr (s : StmtId) (attr : StmtAttr) (v : AttrValue) (w : World σ) :
    (Statement.ssaPtr cli s attr v).runOn w =
      (.ok (cli.call w.drv (.setStmtAttr (w.heap.stmts s).handle attr v)).1.rc,
        w.setAttr cli s attr v) := rfl

namespace Utl

/-! ## Guarded steps -/

theorem assignIf_eq_ok {u : UtlId} {c : Prop} [Decidable c] {rc rc' : Ret}
    {step : Act (World σ) Exc Ret} {w w' : World σ}
    (h : (assignIf u c rc step).runOn w = (.ok rc', w')) :
    (c ∧ ∃ t, step.runOn w = (.ok rc', t) ∧ w' = t.setRc u rc') ∨ (¬ c ∧ rc' = rc ∧ w' = w) := by
  unfold assignIf at h
  split at h
  · next hc => exact .inl ⟨hc, assignRc_eq_ok h⟩
  · next hc =>
    simp only [runOn_pure, Prod.mk.injEq, Except.ok.injEq] at h
    exact .inr ⟨hc, h.1.symm, h.2.symm⟩

theorem bindSlot_eq_success {u : UtlId} {slot : Utl → Option BufId} {rc : Ret} {w w' : World σ}
    (h : (bindSlot cli u slot rc).runOn w = (.ok sqlSuccess, w')) :
    rc = sqlSuccess ∧ (slot (w.heap.utls u) = none ∧ w' = w ∨
      ∃ b t, slot (w.heap.utls u) = some b ∧
        (bind cli b (w.heap.handle u)).runOn w = (.ok sqlSuccess, t) ∧ w' = t.setRc u sqlSuccess) := by
  unfold bindSlot at h
  rw [runOn_bind_ok (runOn_getHeap w)] at h
  cases hslot : slot (w.heap.utls u) with
  | none =>
      simp only [hslot, runOn_pure, Prod.mk.injEq, Except.ok.injEq] at h
      exact ⟨h.1, .inl ⟨rfl, h.2.symm⟩⟩
  | some b =>
      simp only [hslot] at h
      obtain ⟨hrc, t, hbind, hw'⟩ := ifOk_eq_success h
      exact ⟨hrc, .inr ⟨b, t, rfl, hbind, hw'⟩⟩

/-- The five steps of a successful set-up phase. -/
structure Phases (cli : Cli σ) (u : UtlId) (sql : Str) (w wp wr ws wb w₁ : World σ) : Prop where
  par : (prepareParameterBuffer cli u).runOn (w.setRc u sqlSuccess) = (.ok sqlSuccess, wp)
  res : (prepareResultBuffer cli u).runOn (wp.setRc u sqlSuccess) = (.ok sqlSuccess, wr)
  prep : (Statement.prepare cli (w.heap.utls u).s sql).runOn (wr.setRc u sqlSuccess) =
    (.ok sqlSuccess, ws)
  bindPar : (bindSlot cli u Utl.parBuf sqlSuccess).runOn (ws.setRc u sqlSuccess) =
    (.ok sqlSuccess, wb)
  bindRes : (bindSlot cli u Utl.resBuf sqlSuccess).runOn wb = (.ok sqlSuccess, w₁)

theorem SetsUp.phases {u : UtlId} {sql : Str} {w w₁ : World σ} (h : SetsUp cli u sql w w₁) :
    ∃ wp wr ws wb, Phases cli u sql w wp wr ws wb w₁ := by
  obtain ⟨rc₁, t₁, hall, h⟩ := runOn_bind_eq_ok h
  obtain ⟨rc₂, wb, hpar, hres⟩ := runOn_bind_eq_ok h
  obtain ⟨rfl, -⟩ := bindSlot_eq_success hres
  obtain ⟨rfl, -⟩ := bindSlot_eq_success hpar
  unfold prepareAll at hall
  rw [runOn_bind_ok (runOn_getHeap w), runOn_bind_ok (runOn_assignRc_pure u sqlSuccess w)] at hall
  obtain ⟨rc₃, t₃, h₃, hall⟩ := runOn_bind_eq_ok hall
  obtain ⟨rc₄, t₄, h₄, h₅⟩ := runOn_bind_eq_ok hall
  obtain ⟨rfl, ws, hprep, rfl⟩ := ifOk_eq_success h₅
  obtain ⟨rfl, wr, hresBuf, rfl⟩ := ifOk_eq_success h₄
  obtain ⟨-, wp, hparBuf, rfl⟩ := ifOk_eq_success h₃
  exact ⟨wp, wr, ws, wb, hparBuf, hresBuf, hprep, hpar, hres⟩

namespace Phases

variable {u : UtlId} {sql : Str} {w wp wr ws wb w₁ : World σ}

theorem quiet_par (h : Phases cli u sql w wp wr ws wb w₁) : w.heap.Quiet wp.heap :=
  (World.setRc_quiet w u _).trans
    (quiet_of_runOn
      (within_prepareParameterBuffer (P := fun _ => True) (F := True) fun _ _ _ _ => trivial) h.par)

theorem quiet_res (h : Phases cli u sql w wp wr ws wb w₁) : w.heap.Quiet wr.heap :=
  (h.quiet_par.trans (World.setRc_quiet wp u _)).trans
    (quiet_of_runOn
      (within_prepareResultBuffer (P := fun _ => True) (F := True) fun _ _ _ _ => trivial) h.res)

theorem quiet_prep (h : Phases cli u sql w wp wr ws wb w₁) : w.heap.Quiet ws.heap :=
  (h.quiet_res.trans (World.setRc_quiet wr u _)).trans
    (quiet_of_runOn (within_prepare (P := fun _ => True) (F := True) fun _ _ => trivial) h.prep)

theorem quiet_bindPar (h : Phases cli u sql w wp wr ws wb w₁) : w.heap.Quiet wb.heap :=
  (h.quiet_prep.trans (World.setRc_quiet ws u _)).trans
    (quiet_of_runOn
      (within_bindSlot (P := fun _ => True) (F := True) trivial fun _ _ _ _ _ => trivial) h.bindPar)

end Phases

/-! ## What the buffer steps leave in the driver -/

/-- A successful parameter step: first the size, which is set only above one,
then the pointers. -/
theorem prepareParameterBuffer_eq_success {u : UtlId} {w w' : World σ} {p : BufId}
    (h : (prepareParameterBuffer cli u).runOn w = (.ok sqlSuccess, w'))
    (hp : (w.heap.utls u).parBuf = some p) :
    ∃ t, (assignIf u (1 < (w.heap.bufs p).occupied) sqlSuccess
          (Statement.setAttr cli (w.heap.utls u).s .paramsetSize
            (int32 (w.heap.bufs p).occupied))).runOn (w.setRc u sqlSuccess) = (.ok sqlSuccess, t) ∧
        (setParPointers cli u (w.heap.utls u).s p sqlSuccess).runOn t = (.ok sqlSuccess, w') := by
  unfold prepareParameterBuffer at h
  have hpar : ((w.setRc u sqlSuccess).heap.utls u).parBuf = some p := by
    rw [(World.setRc_quiet w u _).parBuf, hp]
  rw [runOn_bind_ok (runOn_assignRc_pure u sqlSuccess w)] at h
  change (getHeap >>= _).runOn (w.setRc u sqlSuccess) = _ at h
  rw [runOn_bind_ok (runOn_getHeap _)] at h
  simp only [hpar, (World.setRc_quiet w u _).stmt] at h
  obtain ⟨rc, t, hsize, hptr⟩ := runOn_bind_eq_ok h
  obtain ⟨rc', t', hfirst, hlast⟩ := runOn_bind_eq_ok hptr
  obtain ⟨rfl, -⟩ := ifOk_eq_success hlast
  obtain ⟨rfl, -⟩ := ifOk_eq_success hfirst
  exact ⟨t, hsize, hptr⟩

/-- A successful result step: first the size, which is set only above one, then
the pointer to the row counter. -/
theorem prepareResultBuffer_eq_success {u : UtlId} {w w' : World σ} {r : BufId}
    (h : (prepareResultBuffer cli u).runOn w = (.ok sqlSuccess, w'))
    (hr : (w.heap.utls u).resBuf = some r) :
    ∃ t, (assignIf u (1 < (w.heap.bufs r).arrSize) sqlSuccess
          (Statement.setAttrL cli (w.heap.utls u).s .rowArraySize
            (w.heap.bufs r).arrSize)).runOn (w.setRc u sqlSuccess) = (.ok sqlSuccess, t) ∧
        (ifOk u sqlSuccess (Statement.ssaPtr cli (w.heap.utls u).s .rowsFetchedPtr
          (.occupiedAddr r))).runOn t = (.ok sqlSuccess, w') := by
  unfold prepareResultBuffer at h
  have hres : ((w.setRc u sqlSuccess).heap.utls u).resBuf = some r := by
    rw [(World.setRc_quiet w u _).resBuf, hr]
  rw [runOn_bind_ok (runOn_assignRc_pure u sqlSuccess w)] at h
  change (getHeap >>= _).runOn (w.setRc u sqlSuccess) = _ at h
  rw [runOn_bind_ok (runOn_getHeap _)] at h
  simp only [hres, (World.setRc_quiet w u _).stmt] at h
  obtain ⟨rc, t, hsize, hptr⟩ := runOn_bind_eq_ok h
  obtain ⟨rfl, -⟩ := ifOk_eq_success hptr
  exact ⟨t, hsize, hptr⟩

end Utl

end Dbgen3.Runtime
