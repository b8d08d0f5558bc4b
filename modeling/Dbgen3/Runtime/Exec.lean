import Dbgen3.Runtime.Footprint

/-!
# Executing a query object

`utl::exec` reaches `SQLExecute` exactly when its set-up phase ends with
`SQL_SUCCESS`. The end of `exec` in each case is stated once; the results about
runs of a program cite these lemmas and do not unfold `exec` again.
-/

namespace Dbgen3.Runtime

open Act Relation

variable {σ : Type} {cli : Cli σ}

/-- Driver call `c` was made between `w` and a later world `w'`. -/
def Issued (w w' : World σ) (c : CliCall) : Prop :=
  ∃ e ∈ w'.trace.drop w.trace.length, e.call = c

theorem issued_iff {w w' : World σ} {new : List (Event σ)} (h : w'.trace = w.trace ++ new)
    (c : CliCall) : Issued w w' c ↔ ∃ e ∈ new, e.call = c := by
  unfold Issued
  rw [h, List.drop_left]

/-- The handle of the statement behind a query object. -/
def Heap.handle (hp : Heap) (u : UtlId) : Handle := (hp.stmts (hp.utls u).s).handle

theorem Heap.Quiet.handle_eq {hp hp' : Heap} (h : hp.Quiet hp') (u : UtlId) :
    hp'.handle u = hp.handle u := h.stmtHandle u

namespace Utl

/-! ## Successful steps -/

/-- A successful assignment of the return code is a successful step. -/
theorem assignRc_eq_ok {u : UtlId} {step : Act (World σ) Exc Ret} {w w' : World σ} {rc : Ret}
    (h : (assignRc u step).runOn w = (.ok rc, w')) :
    ∃ t, step.runOn w = (.ok rc, t) ∧
      w' = { t with heap := t.heap.updUtl u fun q => { q with rc := rc } } := by
  obtain ⟨a, t, hstep, hrest⟩ := runOn_bind_eq_ok h
  obtain ⟨⟨⟩, t', hmod, hpure⟩ := runOn_bind_eq_ok hrest
  simp only [runOn_modifyHeap, Prod.mk.injEq, true_and] at hmod
  simp only [runOn_pure, Prod.mk.injEq, Except.ok.injEq] at hpure
  obtain ⟨rfl, rfl⟩ := hpure
  exact ⟨t, hstep, hmod.symm⟩

/-- A guarded step ends with `SQL_SUCCESS` only when everything before it did. -/
theorem ifOk_eq_success {u : UtlId} {rc : Ret} {step : Act (World σ) Exc Ret} {w w' : World σ}
    (h : (ifOk u rc step).runOn w = (.ok sqlSuccess, w')) :
    rc = sqlSuccess ∧ ∃ t, step.runOn w = (.ok sqlSuccess, t) ∧
      w' = { t with heap := t.heap.updUtl u fun q => { q with rc := sqlSuccess } } := by
  unfold ifOk assignIf at h
  split at h
  · next hrc => exact ⟨hrc, assignRc_eq_ok h⟩
  · next hrc =>
    simp only [runOn_pure, Prod.mk.injEq, Except.ok.injEq] at h
    exact absurd h.1 hrc

theorem runOn_assignRc_pure (u : UtlId) (rc : Ret) (w : World σ) :
    (assignRc u (pure rc : Act (World σ) Exc Ret)).runOn w =
      (.ok rc, { w with heap := w.heap.updUtl u fun q => { q with rc := rc } }) := rfl

/-! ## The three ends of `exec` -/

/-- The set-up phase of `exec` ends with `SQL_SUCCESS` in `w₁`. -/
def SetsUp (cli : Cli σ) (u : UtlId) (sql : Str) (w w₁ : World σ) : Prop :=
  (setup cli u sql).runOn w = (.ok sqlSuccess, w₁)

theorem setup_reach (cli : Cli σ) (u : UtlId) (sql : Str) (w : World σ) :
    QuietReach CliCall.isSetup w ((setup cli u sql).runOn w).2 :=
  quietReach (within_setup u sql) w

theorem SetsUp.reach {u : UtlId} {sql : Str} {w w₁ : World σ} (h : SetsUp cli u sql w w₁) :
    QuietReach CliCall.isSetup w w₁ := by
  have hr := setup_reach cli u sql w
  rw [SetsUp] at h
  rwa [h] at hr

theorem runOn_exec_of_error {u : UtlId} {sql : Str} {w w₁ : World σ} {e : Exc}
    (h : (setup cli u sql).runOn w = (.error e, w₁)) :
    (exec cli u sql).runOn w = (.error e, w₁) := by
  unfold exec
  rw [runOn_bind_ok (runOn_getHeap w)]
  exact runOn_bind_error h _

/-- A set-up phase that ends with another code goes straight to `handle_return_code`. -/
theorem runOn_exec_of_failed {u : UtlId} {sql : Str} {w w₁ : World σ} {rc : Ret}
    (h : (setup cli u sql).runOn w = (.ok rc, w₁)) (hrc : rc ≠ sqlSuccess) :
    (exec cli u sql).runOn w =
      (Statement.handleReturnCode cli (w.heap.utls u).s rc
        (w.heap.utls u).allowedCodes).runOn w₁ := by
  unfold exec
  rw [runOn_bind_ok (runOn_getHeap w), runOn_bind_ok h]
  have hskip : (ifOk u rc (Statement.exec cli (w.heap.utls u).s)).runOn w₁ = (.ok rc, w₁) := by
    simp [ifOk, assignIf, hrc]
  rw [runOn_bind_ok hskip, if_pos hrc]

/-- The world after `SQLExecute` on the statement of `u`. -/
def executed (cli : Cli σ) (u : UtlId) (w : World σ) : World σ :=
  w.issueWriting cli (.execute (w.heap.handle u))

/-- Where the set-up phase succeeds, `exec` ends in the world after `SQLExecute`,
up to the return code it stores. -/
theorem runOn_exec_of_setsUp {u : UtlId} {sql : Str} {w w₁ : World σ}
    (h : SetsUp cli u sql w w₁) :
    ∃ hp, ((exec cli u sql).runOn w).2 = { executed cli u w₁ with heap := hp } ∧
      (executed cli u w₁).heap.Quiet hp := by
  have hs : (w.heap.utls u).s = (w₁.heap.utls u).s := (h.reach.heap.stmt u).symm
  unfold exec
  rw [runOn_bind_ok (runOn_getHeap w), runOn_bind_ok h]
  have hexec : (Statement.exec cli (w.heap.utls u).s).runOn w₁ =
      (Statement.chk cli (w.heap.utls u).s (cli.call w₁.drv (.execute (w₁.heap.handle u))).1.rc
        false).runOn (executed cli u w₁) := by
    unfold Statement.exec
    rw [runOn_bind_ok (runOn_getHeap w₁), hs]
    exact runOn_bind_ok (runOn_cliCallWriting cli w₁ _) _
  have hstate : ((Statement.exec cli (w.heap.utls u).s).runOn w₁).2 = executed cli u w₁ := by
    rw [hexec]
    exact chk_state _ _ _ _
  rcases hr : (Statement.exec cli (w.heap.utls u).s).runOn w₁ with ⟨e | rc, t⟩
  · rw [hr] at hstate
    have hassign : (ifOk u sqlSuccess (Statement.exec cli (w.heap.utls u).s)).runOn w₁ =
        (.error e, t) := by
      simp only [ifOk, assignIf, if_true]
      exact runOn_bind_error hr _
    rw [runOn_bind_error hassign]
    exact ⟨_, hstate, .refl _⟩
  · rw [hr] at hstate
    simp only at hstate
    have hassign : (ifOk u sqlSuccess (Statement.exec cli (w.heap.utls u).s)).runOn w₁ =
        (.ok rc, { t with heap := t.heap.updUtl u fun q => { q with rc := rc } }) := by
      simp only [ifOk, assignIf, if_true]
      exact runOn_bind_ok hr _
    rw [runOn_bind_ok hassign]
    refine ⟨t.heap.updUtl u fun q => { q with rc := rc }, ?_, hstate ▸ .updUtl_rc _ u rc⟩
    rw [← hstate]
    split
    · exact handleReturnCode_state _ _ _ _
    · rfl

/-- The event that `SQLExecute` on the statement of `u` records. -/
def executeEvent (cli : Cli σ) (u : UtlId) (w : World σ) : Event σ :=
  ⟨.execute (w.heap.handle u), (cli.call w.drv (.execute (w.heap.handle u))).1.rc, w.drv, w.heap⟩

theorem exec_trace_of_setsUp {u : UtlId} {sql : Str} {w w₁ : World σ}
    (h : SetsUp cli u sql w w₁) :
    ((exec cli u sql).runOn w).2.trace = w₁.trace ++ [executeEvent cli u w₁] := by
  obtain ⟨hp, hw, -⟩ := runOn_exec_of_setsUp h
  rw [hw]
  rfl

/-- Without a successful set-up phase `exec` changes nothing after it. -/
theorem exec_state_of_not_setsUp {u : UtlId} {sql : Str} {w : World σ}
    (h : ∀ w₁, ¬ SetsUp cli u sql w w₁) :
    ((exec cli u sql).runOn w).2 = ((setup cli u sql).runOn w).2 := by
  rcases hr : (setup cli u sql).runOn w with ⟨e | rc, w₁⟩
  · rw [runOn_exec_of_error hr]
  · have hrc : rc ≠ sqlSuccess := by
      rintro rfl
      exact h w₁ hr
    rw [runOn_exec_of_failed hr hrc]
    exact handleReturnCode_state _ _ _ _

/-- What one `exec` adds to the trace: set-up calls, and `SQLExecute` last when the
set-up phase succeeds. -/
theorem exec_new_events (cli : Cli σ) (u : UtlId) (sql : Str) (w : World σ) :
    ∃ new, (∀ e ∈ new, e.call.isSetup) ∧
      ((∃ w₁, SetsUp cli u sql w w₁ ∧ w₁.trace = w.trace ++ new ∧
          ((exec cli u sql).runOn w).2.trace = w.trace ++ new ++ [executeEvent cli u w₁]) ∨
        (∀ w₁, ¬ SetsUp cli u sql w w₁) ∧
          ((exec cli u sql).runOn w).2.trace = w.trace ++ new) := by
  obtain ⟨new, ht, hnew⟩ := (setup_reach cli u sql w).trace
  refine ⟨new, hnew, ?_⟩
  by_cases h : ∃ w₁, SetsUp cli u sql w w₁
  · obtain ⟨w₁, hw₁⟩ := h
    rw [show (setup cli u sql).runOn w = _ from hw₁] at ht
    exact .inl ⟨w₁, hw₁, ht, by rw [exec_trace_of_setsUp hw₁, ht]⟩
  · have hno : ∀ w₁, ¬ SetsUp cli u sql w w₁ := fun w₁ hw₁ => h ⟨w₁, hw₁⟩
    exact .inr ⟨hno, by rw [exec_state_of_not_setsUp hno, ht]⟩

/-- `exec` issues `SQLExecute` exactly when its set-up phase succeeds. -/
theorem exec_issued_iff (u : UtlId) (sql : Str) (w : World σ) :
    Issued w ((exec cli u sql).runOn w).2 (.execute (w.heap.handle u)) ↔
      ∃ w₁, SetsUp cli u sql w w₁ := by
  obtain ⟨new, hnew, ⟨w₁, hw₁, -, ht⟩ | ⟨hno, ht⟩⟩ := exec_new_events cli u sql w
  · rw [List.append_assoc] at ht
    refine ⟨fun _ => ⟨w₁, hw₁⟩, fun _ => (issued_iff ht _).mpr ?_⟩
    refine ⟨executeEvent cli u w₁, by simp, ?_⟩
    simp only [executeEvent, hw₁.reach.heap.handle_eq u]
  · constructor
    · intro hi
      obtain ⟨e, he, hcall⟩ := (issued_iff ht _).mp hi
      have hsetup := hnew e he
      rw [hcall] at hsetup
      exact hsetup.elim
    · rintro ⟨w₁, hw₁⟩
      exact absurd hw₁ (hno w₁)

/-! ## Returning without executing -/

/-- A code other than `SQL_SUCCESS` is returned normally exactly when the
diagnostics can be read and hold an allowed code. -/
theorem handleReturnCode_returns_iff (cli : Cli σ) (s : StmtId) {rc : Ret} (codes : List Int)
    (w : World σ)
    (hrc : rc ≠ sqlSuccess) :
    (∃ r, ((Statement.handleReturnCode cli s rc codes).runOn w).1 = .ok r) ↔
      ∃ errors, load cli w.drv .stmt (w.heap.stmts s).handle = .ok errors ∧
        ∃ ec ∈ errors, ec.code ∈ codes := by
  have hmem : ∀ errors, (∃ ec ∈ errors, ec.code ∈ codes) ↔
      ∃ code, Statement.allowedCode errors codes = some code := by
    intro errors
    rw [← Option.ne_none_iff_exists', ne_eq, Statement.allowedCode_eq_none_iff]
    simp only [not_forall, not_not, exists_prop]
  unfold Statement.handleReturnCode
  rw [if_pos hrc, runOn_bind_ok (runOn_get w)]
  simp only [runOn_bind, runOn_fromResult]
  cases hl : load cli w.drv .stmt (w.heap.stmts s).handle with
  | error e => simp
  | ok errors =>
      simp only [Except.ok.injEq, exists_eq_left', hmem]
      cases ha : Statement.allowedCode errors codes <;> simp

/-- Some set-up step ends with a code other than `SQL_SUCCESS` while the
diagnostics of the statement hold an allowed code. -/
def SetupSwallowed (cli : Cli σ) (u : UtlId) (sql : Str) (w : World σ) : Prop :=
  ∃ rc w₁ errors, (setup cli u sql).runOn w = (.ok rc, w₁) ∧ rc ≠ sqlSuccess ∧
    load cli w₁.drv .stmt (w.heap.handle u) = .ok errors ∧
    ∃ ec ∈ errors, ec.code ∈ (w.heap.utls u).allowedCodes

/-- A normal return of `exec` means that the statement was executed exactly when no
set-up step is excused by an allowed diagnostic code. -/
theorem exec_return_issued_iff (cli : Cli σ) (u : UtlId) (sql : Str) (w : World σ) :
    (∀ r, ((exec cli u sql).runOn w).1 = .ok r →
        Issued w ((exec cli u sql).runOn w).2 (.execute (w.heap.handle u))) ↔
      ¬ SetupSwallowed cli u sql w := by
  rw [exec_issued_iff]
  rcases hr : (setup cli u sql).runOn w with ⟨e | rc, w₁⟩
  · -- an exception of a set-up step leaves `exec`
    rw [runOn_exec_of_error hr]
    simp [SetupSwallowed, hr]
  · by_cases hrc : rc = sqlSuccess
    · subst hrc
      have hup : ∃ w₁, SetsUp cli u sql w w₁ := ⟨w₁, hr⟩
      simp only [hup, implies_true, true_iff]
      rintro ⟨rc', w', errors, hrun, hne, -⟩
      rw [hr] at hrun
      simp only [Prod.mk.injEq, Except.ok.injEq] at hrun
      exact hne hrun.1.symm
    · have hno : ¬ ∃ w₁, SetsUp cli u sql w w₁ := by
        rintro ⟨w', hw'⟩
        rw [SetsUp, hr] at hw'
        simp only [Prod.mk.injEq, Except.ok.injEq] at hw'
        exact hrc hw'.1
      have hquiet : w.heap.Quiet w₁.heap := by
        have h := (setup_reach cli u sql w).heap
        rwa [hr] at h
      have hh : (w₁.heap.stmts (w.heap.utls u).s).handle = w.heap.handle u :=
        hquiet.handle (w.heap.utls u).s
      have hret := handleReturnCode_returns_iff cli (w.heap.utls u).s
        (w.heap.utls u).allowedCodes w₁ hrc
      rw [hh] at hret
      rw [runOn_exec_of_failed hr hrc]
      simp only [hno, imp_false, ← not_exists]
      rw [hret, not_iff_not]
      constructor
      · rintro ⟨errors, hload, hec⟩
        exact ⟨rc, w₁, errors, hr, hrc, hload, hec⟩
      · rintro ⟨rc', w', errors, hrun, -, hload, hec⟩
        rw [hr] at hrun
        simp only [Prod.mk.injEq, Except.ok.injEq] at hrun
        obtain ⟨-, rfl⟩ := hrun
        exact ⟨errors, hload, hec⟩

/-- A driver that answers `SQLPrepare` with a warning. -/
def warningOnPrepare : Cli Unit where
  call _ c :=
    match c with
    | .prepare _ _ => ({ rc := sqlSuccessWithInfo }, ())
    | _ => ({ rc := sqlSuccess }, ())
  diag _ _ _ := [.success ⟨513, "01504", "all rows of the table are modified"⟩]

/-- A query object without buffers that allows code 513. -/
def deleteAll : World Unit where
  drv := ()
  heap :=
    { bufs := fun _ => { bt := .par, arrSize := 1, attributes := [] }
      stmts := fun _ => { sql := "delete from t", handle := 1 }
      utls := fun _ => { s := 0, allowedCodes := [513] } }

/-- `exec` returns the allowed code of the warning and has executed nothing. -/
theorem exec_returns_without_execute :
    ((exec warningOnPrepare 0 []).runOn deleteAll).1 = .ok 513 ∧
    ¬ Issued deleteAll ((exec warningOnPrepare 0 []).runOn deleteAll).2 (.execute 1) := by
  refine ⟨rfl, ?_⟩
  rw [show (1 : Handle) = deleteAll.heap.handle 0 from rfl, exec_issued_iff]
  rintro ⟨w₁, hw₁⟩
  have hrc : ((setup warningOnPrepare 0 []).runOn deleteAll).1 = .ok 1 := rfl
  rw [hw₁, Except.ok.injEq] at hrc
  exact absurd hrc (by decide)

end Utl

end Dbgen3.Runtime
