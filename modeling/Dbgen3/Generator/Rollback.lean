import Dbgen3.Generator.DescribeCalls
import Dbgen3.Runtime.Calls
import Dbgen3.Runtime.NoThrow

/-!
# The rollback behind a description

Describing a query executes its prepare text first and rolls back last. Between
them stand the calls that prepare and describe the text, and the first of them
that cannot be used ends the description with an exception, before the rollback.
-/

namespace Dbgen3.Generator

open Act Runs Text
open Dbgen3.Runtime (AnyChange BufType CallStep Cli CliCall Event Extends Handle Reported StmtId
  World calls_chk calls_cliCall calls_getHeap calls_throwOnError cliCall extends_of_chain
  newEvents nts readable runOn_cliCall runOn_getHeap sqlSuccess)

variable {σ : Type} (cli : Cli σ)

/-! ## Executing and preparing a text -/

section Texts

variable {cli} {s : StmtId} {sql : Str} {w : World σ}

variable (cli s) in
/-- What a call for statement `s` leaves behind: the driver after it, one more event, and
every other statement. -/
structure Called (c : CliCall) (w w' : World σ) : Prop where
  drv : w'.drv = (cli.call w.drv c).2
  trace : ∃ e, w'.trace = w.trace ++ [e] ∧ e.call = c ∧ e.rc = (cli.call w.drv c).1.rc
  handle : ∀ t, (w'.heap.stmts t).handle = (w.heap.stmts t).handle
  others : ∀ t, t ≠ s → w'.heap.stmts t = w.heap.stmts t

theorem withText_sql {st : Runtime.Statement} (hsql : sql ≠ []) : (st.withText sql).sql = sql := by
  unfold Runtime.Statement.withText
  by_cases h : st.sql = sql
  · rw [if_neg fun hne => hne.2 h, h]
  · rw [if_pos ⟨hsql, h⟩]

/-- A statement that was given a text. -/
structure Given (s : StmtId) (sql : Str) (w w' : World σ) : Prop where
  drv : w'.drv = w.drv
  trace : w'.trace = w.trace
  stmt : w'.heap.stmts s = (w.heap.stmts s).withText sql
  others : ∀ t, t ≠ s → w'.heap.stmts t = w.heap.stmts t

theorem Given.handle {w' : World σ} (h : Given s sql w w') (t : StmtId) :
    (w'.heap.stmts t).handle = (w.heap.stmts t).handle := by
  by_cases ht : t = s
  · subst ht
    rw [h.stmt, Runtime.Statement.withText_handle]
  · rw [h.others t ht]

/-- A call then leaves the statements as they are. -/
theorem Given.called {w' w'' : World σ} (h : Given s sql w w') {c : CliCall}
    (hdrv : w''.drv = (cli.call w'.drv c).2)
    (htrace : w''.trace = w'.trace ++ [⟨c, (cli.call w'.drv c).1.rc, w'.drv, w'.heap⟩])
    (hstmts : ∀ t, (w''.heap.stmts t).handle = (w'.heap.stmts t).handle)
    (hothers : ∀ t, t ≠ s → w''.heap.stmts t = w'.heap.stmts t) : Called cli s c w w'' := by
  rw [h.drv] at hdrv htrace
  rw [h.trace] at htrace
  exact ⟨hdrv, ⟨_, htrace, rfl, rfl⟩, fun t => (hstmts t).trans (h.handle t),
    fun t ht => (hothers t ht).trans (h.others t ht)⟩

/-- Executing a text that is not empty: one call, and an exception unless it succeeds. -/
theorem execDirect_run (hsql : sql ≠ []) :
    Called cli s (.execDirect (w.heap.stmts s).handle (nts sql)) w
        (runOn (Runtime.Statement.execDirect cli s sql true) w).2 ∧
      ((∃ a, (runOn (Runtime.Statement.execDirect cli s sql true) w).1 = .ok a) ↔
        (cli.call w.drv (.execDirect (w.heap.stmts s).handle (nts sql))).1.rc = sqlSuccess) := by
  obtain ⟨w', hrun, hdrv, hst, htrace, hothers⟩ := Runtime.Statement.runOn_withText (s := s) sql
    (Runtime.Statement.execGiven cli s true) w
  have hgiven : Given s sql w w' := ⟨hdrv, htrace, hst, hothers⟩
  rw [Runtime.Statement.execDirect_eq, hrun, Runtime.Statement.execGiven,
    runOn_bind_ok (runOn_getHeap w')]
  dsimp only
  rw [hst, Runtime.Statement.withText_handle, withText_sql hsql,
    runOn_bind_ok (Runtime.runOn_cliCallWriting cli w' _)]
  constructor
  · rw [Runtime.chk_state]
    exact hgiven.called rfl rfl (fun t => by rw [Runtime.issueWriting_stmts])
      fun t _ => by rw [Runtime.issueWriting_stmts]
  · rw [Runtime.Statement.chk_ends_iff, hdrv]
    simp [Runtime.Statement.Passes]

/-- Preparing a text that the statement does not have: one call, and an exception where its
code cannot be reported. -/
theorem prepare_run (hsql : sql ≠ []) (hnew : (w.heap.stmts s).sql ≠ sql) :
    Called cli s (.prepare (w.heap.stmts s).handle (nts sql)) w
        (runOn (Runtime.Statement.prepare cli s sql) w).2 ∧
      ((∃ a, (runOn (Runtime.Statement.prepare cli s sql) w).1 = .ok a) ↔
        Reported cli (cli.call w.drv (.prepare (w.heap.stmts s).handle (nts sql))).2
          (w.heap.stmts s).handle
          (cli.call w.drv (.prepare (w.heap.stmts s).handle (nts sql))).1.rc) := by
  obtain ⟨w', hrun, hdrv, hst, htrace, hothers⟩ := Runtime.Statement.runOn_withText (s := s) sql
    (Runtime.Statement.prepareGiven cli s) w
  have hgiven : Given s sql w w' := ⟨hdrv, htrace, hst, hothers⟩
  have hprepared : ((w.heap.stmts s).withText sql).isPrepared = false := by
    simp [Runtime.Statement.withText, hsql, hnew]
  have hcases := @Runtime.Statement.prepareGiven_cases σ cli s w' _ rfl (by rw [hst, hprepared])
  rw [hst, Runtime.Statement.withText_handle, withText_sql hsql] at hcases
  rw [Runtime.Statement.prepare_eq, hrun, ← hdrv]
  obtain ⟨hreported, hend⟩ | ⟨hnot, e, hend⟩ := hcases
  · rw [hend]
    refine ⟨hgiven.called rfl rfl (fun t => ?_) (fun t ht => ?_), iff_of_true ⟨_, rfl⟩ hreported⟩
    · exact Runtime.sameHandles_updStmt s (f := fun st => { st with isPrepared := decide _ })
        (fun _ => rfl) w'.heap t
    · exact Runtime.Heap.updStmt_ne w'.heap s (fun st => { st with isPrepared := decide _ }) ht
  · rw [hend]
    refine ⟨hgiven.called rfl rfl (fun _ => rfl) fun _ _ => rfl, iff_of_false ?_ hnot⟩
    rintro ⟨a, ha⟩
    cases ha

end Texts

/-! ## What comes before the rollback -/

/-- The part of `load_q_sqlset_from_db` between the prepare text and the rollback. -/
def prepareAndDescribe (r : GsqlQ) : Act (World σ) Exc (GsqlQbufDscr × GsqlQbufDscr) := do
  let _ ← Runtime.Statement.prepare cli stmtM r.sql
  let par ← describeBuf cli r.par
  let res ← describeBuf cli r.res
  pure (par, res)

/-- The driver after the preparation. -/
def preparedState (r : GsqlQ) (h : Handle) (d : σ) : σ := (cli.call d (.prepare h (nts r.sql))).2

/-- The driver after the calls of this part. -/
def describedState (r : GsqlQ) (h : Handle) (d : σ) : σ :=
  bufState cli r.res.type h (bufState cli r.par.type h (preparedState cli r h d))

/-- These calls are answered: the preparation with a code that can be reported, the others
with success and with descriptions of known types. -/
structure TextAnswered (r : GsqlQ) (h : Handle) (d : σ) : Prop where
  prepared : Reported cli (preparedState cli r h d) h (cli.call d (.prepare h (nts r.sql))).1.rc
  par : BufAnswered cli r.par.type h (preparedState cli r h d)
  res : BufAnswered cli r.res.type h (bufState cli r.par.type h (preparedState cli r h d))

instance (r : GsqlQ) (h : Handle) (d : σ) : Decidable (TextAnswered cli r h d) :=
  have : Decidable (Reported cli (preparedState cli r h d) h
    (cli.call d (.prepare h (nts r.sql))).1.rc) := inferInstanceAs (Decidable (_ ∨ _))
  decidable_of_iff (_ ∧ _ ∧ _) ⟨fun h => ⟨h.1, h.2.1, h.2.2⟩, fun h => ⟨h.prepared, h.par, h.res⟩⟩

/-- This part ends normally, in the driver state above, exactly when its calls are answered. -/
theorem prepareAndDescribe_run {r : GsqlQ} {w : World σ} (hsql : r.sql ≠ [])
    (hnew : (w.heap.stmts stmtM).sql ≠ r.sql) :
    (TextAnswered cli r (w.heap.stmts stmtM).handle w.drv →
      ∃ bufs w', runOn (prepareAndDescribe cli r) w = (.ok bufs, w') ∧
        w'.drv = describedState cli r (w.heap.stmts stmtM).handle w.drv) ∧
    (¬ TextAnswered cli r (w.heap.stmts stmtM).handle w.drv →
      ∃ e w', runOn (prepareAndDescribe cli r) w = (.error e, w')) := by
  obtain ⟨hcalled, hok⟩ := @prepare_run σ cli stmtM r.sql w hsql hnew
  obtain ⟨h, hh⟩ : ∃ h, (w.heap.stmts stmtM).handle = h := ⟨_, rfl⟩
  have hdrv : (runOn (Runtime.Statement.prepare cli stmtM r.sql) w).2.drv =
      preparedState cli r h w.drv := by rw [hcalled.drv, hh, preparedState]
  have hhandle := (hcalled.handle stmtM).trans hh
  rw [hh] at hok ⊢
  unfold prepareAndDescribe
  rcases hprep : runOn (Runtime.Statement.prepare cli stmtM r.sql) w with ⟨e | rc, w₁⟩ <;>
    rw [hprep] at hok hdrv hhandle
  · rw [runOn_bind_error hprep]
    refine ⟨fun hanswered => ?_, fun _ => ⟨e, w₁, rfl⟩⟩
    obtain ⟨a, ha⟩ := hok.mpr hanswered.prepared
    cases ha
  have hprepared := hok.mp ⟨rc, rfl⟩
  rw [runOn_bind_ok hprep]
  have hpar := describeBuf_answered_iff cli r.par w₁
  rw [hdrv, hhandle] at hpar
  rcases hbuf : runOn (describeBuf cli r.par) w₁ with ⟨e | par, w₂⟩
  · rw [runOn_bind_error hbuf]
    refine ⟨fun hanswered => ?_, fun _ => ⟨e, w₂, rfl⟩⟩
    obtain ⟨b, w', hb⟩ := hpar.mpr hanswered.par
    cases hbuf.symm.trans hb
  have hparAnswered := hpar.mp ⟨par, w₂, hbuf⟩
  obtain ⟨hdrv₂, hheap₂⟩ := describeBuf_state cli hbuf
  rw [hdrv, hhandle] at hdrv₂
  rw [runOn_bind_ok hbuf]
  have hres := describeBuf_answered_iff cli r.res w₂
  rw [hdrv₂, hheap₂, hhandle] at hres
  rcases hbuf' : runOn (describeBuf cli r.res) w₂ with ⟨e | res, w₃⟩
  · rw [runOn_bind_error hbuf']
    refine ⟨fun hanswered => ?_, fun _ => ⟨e, w₃, rfl⟩⟩
    obtain ⟨b, w', hb⟩ := hres.mpr hanswered.res
    cases hbuf'.symm.trans hb
  · obtain ⟨hdrv₃, -⟩ := describeBuf_state cli hbuf'
    rw [hdrv₂, hheap₂, hhandle] at hdrv₃
    rw [runOn_bind_ok hbuf']
    refine ⟨fun _ => ⟨(par, res), w₃, rfl, hdrv₃⟩, fun hnot => ?_⟩
    exact absurd ⟨hprepared, hparAnswered, hres.mp ⟨res, w₃, hbuf'⟩⟩ hnot

/-- Where the first part and this one end normally, the two rollbacks follow; where one of
them does not, nothing does. -/
theorem runOn_describeQuery (r : GsqlQ) (con : Handle) (w : World σ) :
    runOn (describeQuery cli r con) w =
      match runOn (executePrep cli r.sqlPrep >>= fun _ => prepareAndDescribe cli r) w with
      | (.ok (par, res), w') =>
          (.ok { r with par, res },
            (w'.issue cli (.endTran con .rollback)).issue cli (.endTran con .rollback))
      | (.error e, w') => (.error e, w') := by
  unfold describeQuery prepareAndDescribe
  simp only [runOn_bind]
  rcases runOn (executePrep cli r.sqlPrep) w with ⟨e | rc, w₁⟩
  · rfl
  · dsimp only
    rcases runOn (Runtime.Statement.prepare cli stmtM r.sql) w₁ with ⟨e | rc, w₂⟩
    · rfl
    · dsimp only
      rcases runOn (describeBuf cli r.par) w₂ with ⟨e | par, w₃⟩
      · rfl
      · dsimp only
        rcases runOn (describeBuf cli r.res) w₃ with ⟨e | res, w₄⟩
        · rfl
        · rfl

/-! ## The calls of a description -/

/-- Calls that neither execute a text nor end a transaction. -/
def Quiet (con : Handle) : CliCall → Prop
  | .allocHandle .stmt h => h = con
  | .freeHandle .stmt _ | .prepare .. | .numParams _ | .numResultCols _ | .describeParam ..
  | .describeCol .. => True
  | _ => False

/-- The calls of a description. -/
inductive Describes (con : Handle) : CliCall → Prop
  | quiet {c : CliCall} (h : Quiet con c) : Describes con c
  | execDirect (h : Handle) (sql : Str) : Describes con (.execDirect h sql)
  | rollback : Describes con (.endTran con .rollback)

section Calls

variable {cli} {con : Handle}

theorem quiet_countCall (bt : BufType) (h : Handle) : Quiet con (countCall bt h) := by
  cases bt <;> trivial

theorem quiet_describeCall (bt : BufType) (h : Handle) (ndx : Int) :
    Quiet con (describeCall bt h ndx) := by
  cases bt <;> trivial

theorem calls_throwStmtError {α : Type} (h : Handle) :
    Within (CallStep cli (Quiet con) AnyChange) (throwStmtError cli h : Act (World σ) Exc α) :=
  within_get.bind fun _ => (within_fromResult _).bind fun _ => within_throw _

theorem calls_fetchFields (names : List Str) (bt : BufType) (h : Handle) (n cnt : Nat) :
    Within (CallStep cli (Quiet con) AnyChange) (fetchFields cli names bt h n cnt) := by
  induction n generalizing cnt with
  | zero => exact within_pure _
  | succ n ih =>
      have hfld : Within (CallStep cli (Quiet con) AnyChange)
          (loadFldDscr cli (names.getD cnt []) bt h cnt) := by
        refine calls_cliCall (quiet_describeCall bt h _) fun reply => Within.ite ?_ ?_
        · exact within_fromResult _
        · exact calls_throwStmtError h
      exact hfld.bind fun fld => (ih (cnt + 1)).bind fun flds => within_pure _

theorem calls_describeBuf (b : GsqlQbufDscr) :
    Within (CallStep cli (Quiet con) AnyChange) (describeBuf cli b) := by
  have hfetch : Within (CallStep cli (Quiet con) AnyChange)
      (fetchParamDscr cli b.names b.type stmtM) := by
    apply calls_getHeap.bind
    intro hp
    refine calls_cliCall (quiet_countCall b.type _) fun reply => Within.ite ?_ ?_
    · exact calls_fetchFields b.names b.type _ _ 0
    · exact calls_throwStmtError _
  exact hfetch.bind fun flds => within_fromResult _

theorem calls_prepareText (r : GsqlQ) :
    Within (CallStep cli (Quiet con) AnyChange) (Runtime.Statement.prepare cli stmtM r.sql) :=
  (Runtime.calls_prepare stmtM r.sql fun _ _ => trivial).mono fun _ _ hstep =>
    hstep.mono (fun _ h => h) fun _ _ _ => trivial

theorem calls_prepareAndDescribe (r : GsqlQ) :
    Within (CallStep cli (Quiet con) AnyChange) (prepareAndDescribe cli r) := by
  apply (calls_prepareText r).bind
  intro _
  apply (calls_describeBuf r.par).bind
  intro par
  exact (calls_describeBuf r.res).bind fun res => within_pure _

variable (cli con) in
theorem extends_prepareAndDescribe (r : GsqlQ) (w : World σ) :
    Extends (Quiet con) w (runOn (prepareAndDescribe cli r) w).2 :=
  extends_of_chain (calls_prepareAndDescribe r w)

theorem calls_describeQuery (r : GsqlQ) :
    Within (CallStep cli (Describes con) AnyChange) (describeQuery cli r con) := by
  have hquiet {α : Type} {m : Act (World σ) Exc α}
      (hm : Within (CallStep cli (Quiet con) AnyChange) m) :
      Within (CallStep cli (Describes con) AnyChange) m :=
    hm.mono fun _ _ hstep => hstep.mono (fun _ h => .quiet h) fun _ _ h => h
  have hrollback : Within (CallStep cli (Describes con) AnyChange)
      (Runtime.Statement.rollback cli con) :=
    calls_cliCall .rollback fun _ => within_pure _
  have hexec : Within (CallStep cli (Describes con) AnyChange) (executePrep cli r.sqlPrep) := by
    refine Within.ite ?_ (within_pure _)
    have hcalls : Within (CallStep cli (Describes con) Runtime.SameHandles)
        (Runtime.Statement.execDirect cli stmtP r.sqlPrep true) :=
      Runtime.calls_execDirect stmtP r.sqlPrep true fun h sql => .execDirect h sql
    exact hcalls.mono fun _ _ hstep => hstep.mono (fun _ h => h) fun _ _ _ => trivial
  apply hexec.bind
  intro _
  apply (hquiet (calls_prepareText r)).bind
  intro _
  apply (hquiet (calls_describeBuf r.par)).bind
  intro par
  apply (hquiet (calls_describeBuf r.res)).bind
  intro res
  exact hrollback.bind fun _ => hrollback.bind fun _ => within_pure _

theorem calls_withDescribed {α : Type} {s : StmtId} {body : Act (World σ) Exc α}
    (hbody : Within (CallStep cli (Describes con) AnyChange) body) :
    Within (CallStep cli (Describes con) AnyChange) (Runtime.Statement.withLocal cli s con body) :=
  Runtime.calls_withLocal hbody (.quiet rfl) fun _ => .quiet trivial

/-- Describing a query makes calls of its own kind only. -/
theorem calls_loadQSqlsetFromDb (r : GsqlQ) :
    Within (CallStep cli (Describes con) AnyChange) (loadQSqlsetFromDb cli r con) :=
  Within.ite (calls_withDescribed (calls_withDescribed (calls_describeQuery r))) (within_pure _)

end Calls

/-! ## Executed texts and rollbacks -/

/-- A call that executes a text. -/
def Executes : CliCall → Prop
  | .execDirect .. => True
  | _ => False

/-- A successful rollback on the connection. -/
def Restores (con : Handle) (e : Event σ) : Prop :=
  e.call = .endTran con .rollback ∧ e.rc = sqlSuccess

/-- Every text that is executed is rolled back later. -/
def RolledBack (con : Handle) : List (Event σ) → Prop
  | [] => True
  | e :: events => (Executes e.call → ∃ e' ∈ events, Restores con e') ∧ RolledBack con events

section Events

variable {con : Handle} {events quiet : List (Event σ)}

theorem Quiet.not_executes {c : CliCall} (h : Quiet con c) : ¬ Executes c := by
  cases c <;> first | exact h.elim | exact id

theorem Quiet.not_restores {e : Event σ} (h : Quiet con e.call) : ¬ Restores con e := by
  rintro ⟨hcall, -⟩
  rw [hcall] at h
  exact h

theorem rolledBack_append_left (hq : ∀ e ∈ quiet, ¬ Executes e.call) :
    RolledBack con (quiet ++ events) ↔ RolledBack con events := by
  induction quiet with
  | nil => rfl
  | cons e quiet ih =>
      obtain ⟨he, hquiet⟩ := List.forall_mem_cons.mp hq
      rw [List.cons_append, RolledBack, ih hquiet]
      exact and_iff_right fun h => absurd h he

theorem rolledBack_of_not_executes (hq : ∀ e ∈ quiet, ¬ Executes e.call) :
    RolledBack con quiet := by
  rw [← List.append_nil quiet, rolledBack_append_left hq]
  trivial

theorem rolledBack_append_right (hq : ∀ e ∈ quiet, Quiet con e.call) :
    RolledBack con (events ++ quiet) ↔ RolledBack con events := by
  induction events with
  | nil => exact iff_of_true (rolledBack_of_not_executes fun e he => (hq e he).not_executes) trivial
  | cons e events ih =>
      have hrestores : (∃ e' ∈ events ++ quiet, Restores con e') ↔ ∃ e' ∈ events, Restores con e' := by
        simp only [List.mem_append, or_and_right, exists_or, or_iff_left_iff_imp]
        rintro ⟨e', he', hrestores⟩
        exact absurd hrestores (hq e' he').not_restores
      rw [List.cons_append, RolledBack, RolledBack, ih, hrestores]

/-- An executed text and calls without another one: a rollback among the last calls decides. -/
theorem rolledBack_executed_iff {e : Event σ} (he : Executes e.call)
    (hq : ∀ e' ∈ quiet, Quiet con e'.call) (hn : ∀ e' ∈ events, ¬ Executes e'.call) :
    RolledBack con (e :: (quiet ++ events)) ↔ ∃ e' ∈ events, Restores con e' := by
  have hrest : RolledBack con (quiet ++ events) :=
    (rolledBack_append_left fun e' he' => (hq e' he').not_executes).mpr
      (rolledBack_of_not_executes hn)
  have hrestores : (∃ e' ∈ quiet ++ events, Restores con e') ↔ ∃ e' ∈ events, Restores con e' := by
    simp only [List.mem_append, or_and_right, exists_or, or_iff_right_iff_imp]
    rintro ⟨e', he', hrestores⟩
    exact absurd hrestores (hq e' he').not_restores
  rw [RolledBack, and_iff_left hrest, hrestores]
  exact ⟨fun h => h he, fun h _ => h⟩

end Events

/-! ## When a description rolls back -/

/-- The driver after the prepare text. -/
def executedState (r : GsqlQ) (h : Handle) (d : σ) : σ :=
  (cli.call d (.execDirect h (nts r.sqlPrep))).2

/-- One of the two rollbacks succeeds. -/
def RollbackSucceeds (con : Handle) (d : σ) : Prop :=
  (cli.call d (.endTran con .rollback)).1.rc = sqlSuccess ∨
    (cli.call (cli.call d (.endTran con .rollback)).2 (.endTran con .rollback)).1.rc = sqlSuccess

/-- The prepare text is executed successfully, the calls up to the rollback are answered, and
one of the rollbacks succeeds. -/
structure RestoredAfter (con : Handle) (r : GsqlQ) (m p : Handle) (d : σ) : Prop where
  executed : (cli.call d (.execDirect p (nts r.sqlPrep))).1.rc = sqlSuccess
  answered : TextAnswered cli r m (executedState cli r p d)
  restored : RollbackSucceeds cli con (describedState cli r m (executedState cli r p d))

instance (con : Handle) (r : GsqlQ) (m p : Handle) (d : σ) :
    Decidable (RestoredAfter cli con r m p d) :=
  have : Decidable (RollbackSucceeds cli con
    (describedState cli r m (executedState cli r p d))) := inferInstanceAs (Decidable (_ ∨ _))
  decidable_of_iff (_ ∧ _ ∧ _)
    ⟨fun h => ⟨h.1, h.2.1, h.2.2⟩, fun h => ⟨h.executed, h.answered, h.restored⟩⟩

section Restoring

variable {cli} {con : Handle} {r : GsqlQ}

variable (cli con) in
/-- The events of the two rollbacks. -/
def rollbackEvents (w : World σ) : List (Event σ) :=
  let c : CliCall := .endTran con .rollback
  [⟨c, (cli.call w.drv c).1.rc, w.drv, w.heap⟩,
    ⟨c, (cli.call (cli.call w.drv c).2 c).1.rc, (cli.call w.drv c).2, w.heap⟩]

theorem rollbackEvents_trace (w : World σ) :
    ((w.issue cli (.endTran con .rollback)).issue cli (.endTran con .rollback)).trace =
      w.trace ++ rollbackEvents cli con w :=
  List.append_assoc _ _ _

theorem rollbackEvents_not_executes (w : World σ) :
    ∀ e ∈ rollbackEvents cli con w, ¬ Executes e.call := by
  simp [rollbackEvents, Executes]

theorem rollbackEvents_restores_iff (w : World σ) :
    (∃ e ∈ rollbackEvents cli con w, Restores con e) ↔ RollbackSucceeds cli con w.drv := by
  simp [rollbackEvents, Restores, RollbackSucceeds]

/-- Without a prepare text nothing is executed. -/
theorem describeQuery_rolledBack_of_empty {w : World σ} (hprep : r.sqlPrep = []) :
    RolledBack con (newEvents w (runOn (describeQuery cli r con) w).2) := by
  have hexec : runOn (executePrep cli r.sqlPrep) w = (.ok sqlSuccess, w) := by
    rw [executePrep, if_neg (not_not_intro hprep), runOn_pure]
  obtain ⟨new, htrace, hquiet⟩ := extends_prepareAndDescribe cli con r w
  have hnot : ∀ e ∈ new, ¬ Executes e.call := fun e he => (hquiet e he).not_executes
  rw [runOn_describeQuery, runOn_bind_ok hexec]
  rcases hrun : runOn (prepareAndDescribe cli r) w with ⟨e | ⟨par, res⟩, w'⟩ <;>
    rw [hrun] at htrace
  · rw [newEvents, newEntries_eq htrace]
    exact rolledBack_of_not_executes hnot
  · have hall := @rollbackEvents_trace σ cli con w'
    rw [htrace, List.append_assoc] at hall
    rw [newEvents, newEntries_eq hall, rolledBack_append_left hnot]
    exact rolledBack_of_not_executes (rollbackEvents_not_executes w')

/-- With both statements there, a prepare text is rolled back exactly under this condition. -/
theorem describeQuery_rolledBack_iff {w : World σ} (hsql : r.sql ≠ []) (hprep : r.sqlPrep ≠ [])
    (hnew : (w.heap.stmts stmtM).sql ≠ r.sql) :
    RolledBack con (newEvents w (runOn (describeQuery cli r con) w).2) ↔
      RestoredAfter cli con r (w.heap.stmts stmtM).handle (w.heap.stmts stmtP).handle w.drv := by
  obtain ⟨hcalled, hok⟩ := @execDirect_run σ cli stmtP r.sqlPrep w hprep
  obtain ⟨e, htrace, hcall, -⟩ := hcalled.trace
  have he : Executes e.call := by rw [hcall]; trivial
  have hdrv := hcalled.drv
  have hstmt := hcalled.others stmtM (by decide)
  have hexec : executePrep cli r.sqlPrep =
      Runtime.Statement.execDirect cli stmtP r.sqlPrep true := if_pos hprep
  rw [runOn_describeQuery, hexec, runOn_bind]
  rcases hrun : runOn (Runtime.Statement.execDirect cli stmtP r.sqlPrep true) w with
    ⟨x | rc, w₁⟩ <;> rw [hrun] at hok htrace hdrv hstmt <;> dsimp only at hok htrace hdrv hstmt ⊢
  · -- the prepare text fails: nothing comes behind it
    rw [newEvents, newEntries_eq htrace]
    refine iff_of_false (fun h => ?_) fun h => ?_
    · obtain ⟨e', he', -⟩ := h.1 he
      cases he'
    · obtain ⟨a, ha⟩ := hok.mpr h.executed
      cases ha
  · have hexecuted := hok.mp ⟨rc, rfl⟩
    have hnew₁ : (w₁.heap.stmts stmtM).sql ≠ r.sql := by rwa [hstmt]
    obtain ⟨hyes, hno⟩ := prepareAndDescribe_run cli hsql hnew₁
    obtain ⟨new, htrace₁, hquiet⟩ := extends_prepareAndDescribe cli con r w₁
    rw [htrace, List.append_assoc, List.singleton_append] at htrace₁
    rw [hstmt, hdrv] at hyes hno
    by_cases hanswered : TextAnswered cli r (w.heap.stmts stmtM).handle
        (executedState cli r (w.heap.stmts stmtP).handle w.drv)
    · obtain ⟨⟨par, res⟩, w₂, hrun₂, hdrv₂⟩ := hyes hanswered
      rw [hrun₂] at htrace₁ ⊢
      have hall := @rollbackEvents_trace σ cli con w₂
      rw [htrace₁, List.append_assoc, List.cons_append] at hall
      rw [newEvents, newEntries_eq hall,
        rolledBack_executed_iff he hquiet (rollbackEvents_not_executes w₂),
        rollbackEvents_restores_iff, hdrv₂]
      exact ⟨fun h => ⟨hexecuted, hanswered, h⟩, fun h => h.restored⟩
    · -- an exception between the prepare text and the rollbacks
      obtain ⟨x, w₂, hrun₂⟩ := hno hanswered
      rw [hrun₂] at htrace₁ ⊢
      rw [newEvents, newEntries_eq htrace₁, ← List.append_nil new,
        rolledBack_executed_iff he hquiet (by simp)]
      exact iff_of_false (by simp) fun h => hanswered h.answered

variable (cli con) in
/-- The world after the constructor of a local statement. -/
def constructed (s : StmtId) (w : World σ) : World σ :=
  { w.issue cli (.allocHandle .stmt con) with
    heap := w.heap.updStmt s fun _ =>
      { handle := (cli.call w.drv (.allocHandle .stmt con)).1.handle } }

theorem constructed_same (s : StmtId) (w : World σ) : (constructed cli con s w).heap.stmts s =
    { handle := (cli.call w.drv (.allocHandle .stmt con)).1.handle } := by
  unfold constructed
  rw [Runtime.Heap.updStmt_same]

theorem constructed_ne {s t : StmtId} (h : t ≠ s) (w : World σ) :
    (constructed cli con s w).heap.stmts t = w.heap.stmts t := by
  unfold constructed
  rw [Runtime.Heap.updStmt_ne _ _ _ h]

/-- A local statement adds the calls for its handle, which execute nothing and restore nothing. -/
theorem rolledBack_withLocal {α : Type} {s : StmtId} {body : Act (World σ) Exc α}
    (hbody : Within (CallStep cli (Describes con) AnyChange) body) (w : World σ) :
    RolledBack con (newEvents w (runOn (Runtime.Statement.withLocal cli s con body) w).2) ↔
      ((cli.call w.drv (.allocHandle .stmt con)).1.rc = sqlSuccess →
        RolledBack con (newEvents (constructed cli con s w)
          (runOn body (constructed cli con s w)).2)) := by
  have halloc : ¬ Executes (.allocHandle .stmt con) := id
  unfold Runtime.Statement.withLocal
  rw [runOn_bind, Runtime.runOn_new]
  by_cases hrc : (cli.call w.drv (.allocHandle .stmt con)).1.rc = sqlSuccess
  · rw [if_pos hrc]
    obtain ⟨new, hnew, -⟩ := extends_of_chain (hbody (constructed cli con s w))
    obtain ⟨free, hfree, hquiet⟩ := extends_of_chain
      (Runtime.calls_dispose (P := Quiet con) s (fun _ => trivial)
        (runOn body (constructed cli con s w)).2)
    have hstate : (runOn (withCleanup body (Runtime.Statement.dispose cli s))
        (constructed cli con s w)).2 =
        (runOn (Runtime.Statement.dispose cli s) (runOn body (constructed cli con s w)).2).2 := by
      rw [runOn_withCleanup]
      rcases runOn (Runtime.Statement.dispose cli s)
        (runOn body (constructed cli con s w)).2 with ⟨e | a, w'⟩ <;> rfl
    have hall : (runOn (withCleanup body (Runtime.Statement.dispose cli s))
        (constructed cli con s w)).2.trace = w.trace ++
          ([⟨.allocHandle .stmt con, (cli.call w.drv (.allocHandle .stmt con)).1.rc, w.drv,
            w.heap⟩] ++ (new ++ free)) := by
      calc _ = (constructed cli con s w).trace ++ new ++ free := by rw [hstate, hfree, hnew]
        _ = _ := by simp [constructed]
    change RolledBack con (newEvents w (runOn (withCleanup body (Runtime.Statement.dispose cli s))
      (constructed cli con s w)).2) ↔ _
    rw [newEvents, newEntries_eq hall, rolledBack_append_left (by simpa using halloc),
      rolledBack_append_right hquiet, newEvents, newEntries_eq hnew]
    exact ⟨fun h _ => h, fun h => h hrc⟩
  · rw [if_neg hrc]
    refine iff_of_true ?_ fun h => absurd h hrc
    rw [newEvents, newEntries_eq (Runtime.issue_trace cli w _)]
    exact rolledBack_of_not_executes (by simpa using halloc)

/-- There is nothing to execute, a statement handle is missing, or all goes well up to the
rollback. -/
def RollsBack (cli : Cli σ) (con : Handle) (r : GsqlQ) (d : σ) : Prop :=
  let m := cli.call d (.allocHandle .stmt con)
  let p := cli.call m.2 (.allocHandle .stmt con)
  r.sql ≠ [] → r.sqlPrep ≠ [] → m.1.rc = sqlSuccess → p.1.rc = sqlSuccess →
    RestoredAfter cli con r m.1.handle p.1.handle p.2

instance (con : Handle) (r : GsqlQ) (d : σ) : Decidable (RollsBack cli con r d) :=
  inferInstanceAs (Decidable (_ → _ → _ → _ → _))

/-- A description rolls back what it executed exactly under this condition. -/
theorem loadQSqlsetFromDb_rolledBack_iff (cli : Cli σ) (con : Handle) (r : GsqlQ) (w : World σ) :
    RolledBack con (newEvents w (runOn (loadQSqlsetFromDb cli r con) w).2) ↔
      RollsBack cli con r w.drv := by
  unfold loadQSqlsetFromDb
  by_cases hsql : r.sql = []
  · rw [if_neg (not_not_intro hsql), runOn_pure, newEvents,
      newEntries_eq (List.append_nil w.trace).symm]
    exact iff_of_true trivial fun h => absurd hsql h
  · rw [if_pos hsql, rolledBack_withLocal (calls_withDescribed (calls_describeQuery r)),
      rolledBack_withLocal (calls_describeQuery r)]
    let w₂ := constructed cli con stmtP (constructed cli con stmtM w)
    have hm : w₂.heap.stmts stmtM =
        { handle := (cli.call w.drv (.allocHandle .stmt con)).1.handle } :=
      (constructed_ne (by decide) _).trans (constructed_same stmtM w)
    have hp := @constructed_same σ cli con stmtP (constructed cli con stmtM w)
    have hbody : RolledBack con (newEvents w₂ (runOn (describeQuery cli r con) w₂).2) ↔
        (r.sqlPrep ≠ [] → RestoredAfter cli con r (w₂.heap.stmts stmtM).handle
          (w₂.heap.stmts stmtP).handle w₂.drv) := by
      by_cases hprep : r.sqlPrep = []
      · exact iff_of_true (describeQuery_rolledBack_of_empty hprep) fun h => absurd hprep h
      · rw [describeQuery_rolledBack_iff hsql hprep (by rw [hm]; exact Ne.symm hsql)]
        exact ⟨fun h _ => h, fun h => h hprep⟩
    rw [hm, hp] at hbody
    constructor
    · intro h _ hprep hrcm hrcp
      exact hbody.mp (h hrcm hrcp) hprep
    · intro h hrcm hrcp
      exact hbody.mpr fun hprep => h hsql hprep hrcm hrcp

end Restoring

end Dbgen3.Generator
