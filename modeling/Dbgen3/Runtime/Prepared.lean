import Dbgen3.Lib.Runs
import Dbgen3.Runtime.Calls
import Dbgen3.Runtime.NoThrow
import Mathlib.Data.List.TakeWhile

/-!
# The prepared statement of a handle

A statement marks its text as prepared, and `prepare` makes no call for a marked
text. What the driver holds for the handle is known to the driver alone: `set_sql`
takes the mark back, and `exec_direct`, after which the driver holds nothing, does
not. A driver sees a text up to its first zero.
-/

namespace Dbgen3.Runtime

open Act Runs

variable {σ : Type} (cli : Cli σ)

/-! ## Operations -/

/-- The operations that set, prepare and run the text of a statement. -/
inductive TextOp
  | setSql (sql : Str)
  | prepare (sql : Str)
  | execDirect (sql : Str) (shouldThrow : Bool)
  | exec
  deriving DecidableEq, Repr

/-- The world after an operation, also where it ends with an exception. -/
def TextOp.step (s : StmtId) (w : World σ) : TextOp → World σ
  | .setSql sql => ((Statement.setSql s sql).runOn w).2
  | .prepare sql => ((Statement.prepare cli s sql).runOn w).2
  | .execDirect sql shouldThrow => ((Statement.execDirect cli s sql shouldThrow).runOn w).2
  | .exec => ((Statement.exec cli s).runOn w).2

/-- What a driver does with prepared statements: `held` is the text it has prepared on a
handle. -/
structure HoldsPrepared (held : σ → Handle → Option Str) : Prop where
  prepare : ∀ d h sql, (cli.call d (.prepare h sql)).1.rc = sqlSuccess →
    held (cli.call d (.prepare h sql)).2 h = some sql
  execDirect : ∀ d h sql, held (cli.call d (.execDirect h sql)).2 h = none
  execute : ∀ d h, held (cli.call d (.execute h)).2 h = held d h

/-- A run that returned `SQL_SUCCESS` left the driver with the text of the statement. -/
def SuccessMeansHeld (held : σ → Handle → Option Str) (s : StmtId)
    (ran : Except Exc Ret × World σ) : Prop :=
  ran.1 = .ok sqlSuccess →
    held ran.2.drv (ran.2.heap.stmts s).handle = some (ran.2.heap.stmts s).sql

/-- `prepare` returns `SQL_SUCCESS` only where the driver holds the text of the statement. -/
def HeldAfter (held : σ → Handle → Option Str) (s : StmtId) (w : World σ) : TextOp → Prop
  | .prepare sql => SuccessMeansHeld held s ((Statement.prepare cli s sql).runOn w)
  | _ => True

/-! ## The last text a driver was given -/

/-- Whether `SQLExecDirect` is the last call with a text on handle `h`, after one more call. -/
def lastIsDirect (h : Handle) (direct : Bool) : CliCall → Bool
  | .prepare h' _ => if h' = h then false else direct
  | .execDirect h' _ => if h' = h then true else direct
  | _ => direct

/-- The last call with a text on handle `h` was `SQLExecDirect`. -/
def directLast (h : Handle) (trace : List (Event σ)) : Bool :=
  trace.foldl (fun direct e => lastIsDirect h direct e.call) false

/-- No `SQLExecDirect` came after the call that prepared a marked text, and a text that is
marked, or that the driver accepts now, has no zero. -/
def PreparesWhole (st : Statement) (w : World σ) : Prop :=
  (st.isPrepared = true → directLast st.handle w.trace = false) ∧
    (st.isPrepared = true ∨
        (cli.call w.drv (.prepare st.handle (nts st.sql))).1.rc = sqlSuccess →
      '\x00' ∉ st.sql)

instance (st : Statement) (w : World σ) : Decidable (PreparesWhole cli st w) :=
  inferInstanceAs (Decidable ((_ → _) ∧ (_ ∨ _ → _)))

/-- The condition on a `prepare` of the text that the statement has then. -/
def Current (s : StmtId) (w : World σ) : TextOp → Prop
  | .prepare sql => PreparesWhole cli ((w.heap.stmts s).withText sql) w
  | _ => True

instance (s : StmtId) (w : World σ) : DecidablePred (Current cli s w)
  | .prepare _ => inferInstanceAs (Decidable (PreparesWhole ..))
  | .setSql _ => inferInstanceAs (Decidable True)
  | .execDirect _ _ => inferInstanceAs (Decidable True)
  | .exec => inferInstanceAs (Decidable True)

variable {cli}

section LastText

variable (h : Handle) (w : World σ)

@[simp] theorem directLast_issue (c : CliCall) :
    directLast h (w.issue cli c).trace = lastIsDirect h (directLast h w.trace) c := by
  rw [issue_trace, directLast, List.foldl_append]
  rfl

@[simp] theorem lastIsDirect_prepare (direct : Bool) (sql : Str) :
    lastIsDirect h direct (.prepare h sql) = false := if_pos rfl

@[simp] theorem lastIsDirect_execDirect (direct : Bool) (sql : Str) :
    lastIsDirect h direct (.execDirect h sql) = true := if_pos rfl

end LastText

/-- A text is seen whole exactly when it has no zero. -/
theorem nts_eq_self_iff {sql : Str} : nts sql = sql ↔ '\x00' ∉ sql := by
  rw [nts, List.takeWhile_eq_self_iff]
  constructor
  · intro h hmem
    exact of_decide_eq_true (h _ hmem) rfl
  · intro h c hc
    exact decide_eq_true fun heq => h (heq ▸ hc)

/-! ## What is known of a marked text -/

/-- The driver holds the marked text as it saw it, or nothing after an `SQLExecDirect`. -/
def MarkMeans (held : σ → Handle → Option Str) (s : StmtId) (w : World σ) : Prop :=
  (w.heap.stmts s).isPrepared = true →
    held w.drv (w.heap.stmts s).handle =
      if directLast (w.heap.stmts s).handle w.trace then none else some (nts (w.heap.stmts s).sql)

section Mark

variable {held : σ → Handle → Option Str} {s : StmtId} {w w' : World σ}

/-- A statement that was only given a text knows as much as before. -/
theorem MarkMeans.given (hmark : MarkMeans held s w) (hdrv : w'.drv = w.drv)
    (htrace : w'.trace = w.trace)
    (hst : (w'.heap.stmts s).isPrepared = true → w'.heap.stmts s = w.heap.stmts s) :
    MarkMeans held s w' := by
  intro hprepared
  rw [hdrv, htrace, hst hprepared]
  exact hmark (hst hprepared ▸ hprepared)

theorem Statement.withText_of_prepared {st : Statement} {sql : Str}
    (h : (st.withText sql).isPrepared = true) : st.withText sql = st := by
  unfold withText at h ⊢
  split
  · next hnew => simp [if_pos hnew] at h
  · rfl

theorem Statement.prepareGiven_marked (hprepared : (w.heap.stmts s).isPrepared = true) :
    (prepareGiven cli s).runOn w = (.ok sqlSuccess, w) := by
  unfold prepareGiven
  rw [runOn_bind_ok (runOn_getHeap w)]
  dsimp only
  rw [hprepared]
  rfl

theorem MarkMeans.setSql (hmark : MarkMeans held s w) (sql : Str) :
    MarkMeans held s ((Statement.setSql s sql).runOn w).2 := by
  refine hmark.given rfl rfl ?_
  by_cases hsame : (w.heap.stmts s).sql = sql
  · simp [Statement.setSql, hsame]
  · simp [Statement.setSql, hsame]

variable (hd : HoldsPrepared cli held)
include hd

/-- The driver drops what it holds, and that is known from the trace. -/
theorem MarkMeans.execGiven (w : World σ) (shouldThrow : Bool) :
    MarkMeans held s ((Statement.execGiven cli s shouldThrow).runOn w).2 := by
  unfold Statement.execGiven
  rw [runOn_bind_ok (runOn_getHeap w)]
  dsimp only
  rw [runOn_bind_ok (runOn_cliCallWriting cli w _), chk_state]
  intro _
  rw [issueWriting_stmts, issueWriting_trace, directLast_issue, lastIsDirect_execDirect]
  exact hd.execDirect _ _ _

theorem MarkMeans.exec (hmark : MarkMeans held s w) :
    MarkMeans held s ((Statement.exec cli s).runOn w).2 := by
  unfold Statement.exec
  rw [runOn_bind_ok (runOn_getHeap w), runOn_bind_ok (runOn_cliCallWriting cli w _), chk_state]
  intro hprepared
  rw [issueWriting_stmts] at hprepared ⊢
  rw [issueWriting_trace, directLast_issue]
  exact (hd.execute _ _).trans (hmark hprepared)

/-- A new mark says that the driver has just accepted the text. -/
theorem MarkMeans.prepareGiven (hmark : MarkMeans held s w) :
    MarkMeans held s ((Statement.prepareGiven cli s).runOn w).2 := by
  by_cases hprepared : (w.heap.stmts s).isPrepared = true
  · rw [Statement.prepareGiven_marked hprepared]
    exact hmark
  · have hunmarked : (w.heap.stmts s).isPrepared = false := Bool.eq_false_iff.mpr hprepared
    obtain ⟨-, hrun⟩ | ⟨-, e, hrun⟩ := @Statement.prepareGiven_cases σ cli s w _ rfl hunmarked
    · rw [hrun]
      intro hrc
      dsimp only at hrc ⊢
      rw [Heap.updStmt_same] at hrc ⊢
      rw [directLast_issue, lastIsDirect_prepare]
      exact hd.prepare _ _ _ (of_decide_eq_true hrc)
    · rw [hrun]
      exact fun h => absurd h hprepared

omit hd in
/-- `prepare` is its second half on the statement with the text, of which as much is known. -/
theorem MarkMeans.textGiven (hmark : MarkMeans held s w) (sql : Str) :
    ∃ w', (Statement.prepare cli s sql).runOn w = (Statement.prepareGiven cli s).runOn w' ∧
      w'.drv = w.drv ∧ w'.trace = w.trace ∧
      w'.heap.stmts s = (w.heap.stmts s).withText sql ∧ MarkMeans held s w' := by
  obtain ⟨w', hrun, hdrv, hst, htrace, -⟩ := Statement.runOn_withText (s := s) sql
    (Statement.prepareGiven cli s) w
  refine ⟨w', by rw [Statement.prepare_eq, hrun], hdrv, htrace, hst, ?_⟩
  refine hmark.given hdrv htrace fun h => ?_
  rw [hst] at h ⊢
  exact Statement.withText_of_prepared h

/-- Every operation keeps what a mark means. -/
theorem MarkMeans.step (hmark : MarkMeans held s w) (op : TextOp) :
    MarkMeans held s (op.step cli s w) := by
  cases op with
  | setSql sql => exact hmark.setSql sql
  | prepare sql =>
      obtain ⟨w', hrun, -, -, -, hgiven⟩ := @MarkMeans.textGiven σ cli held s w hmark sql
      rw [TextOp.step, hrun]
      exact hgiven.prepareGiven hd
  | execDirect sql shouldThrow =>
      obtain ⟨w', hrun, -⟩ := Statement.runOn_withText (s := s) sql
        (Statement.execGiven cli s shouldThrow) w
      rw [TextOp.step, Statement.execDirect_eq, hrun]
      exact MarkMeans.execGiven hd w' shouldThrow
  | exec => exact hmark.exec hd

/-- `prepare` leaves the driver with the text exactly when a mark is current and the text it
prepares, or has prepared, is seen whole. -/
theorem MarkMeans.prepareGiven_held_iff (hmark : MarkMeans held s w) :
    SuccessMeansHeld held s ((Statement.prepareGiven cli s).runOn w) ↔
      PreparesWhole cli (w.heap.stmts s) w := by
  unfold SuccessMeansHeld PreparesWhole
  by_cases hprepared : (w.heap.stmts s).isPrepared = true
  · rw [Statement.prepareGiven_marked hprepared]
    dsimp only
    rw [hmark hprepared, ← nts_eq_self_iff]
    cases hlast : directLast (w.heap.stmts s).handle w.trace with
    | false => simp [hprepared]
    | true => simp [hprepared]
  · have hunmarked : (w.heap.stmts s).isPrepared = false := Bool.eq_false_iff.mpr hprepared
    rw [and_iff_right fun h => absurd h hprepared, or_iff_right hprepared, ← nts_eq_self_iff]
    by_cases hrc : (cli.call w.drv
        (.prepare (w.heap.stmts s).handle (nts (w.heap.stmts s).sql))).1.rc = sqlSuccess
    · have hheld := hd.prepare _ _ _ hrc
      obtain ⟨-, hrun⟩ | ⟨hnot, -⟩ := @Statement.prepareGiven_cases σ cli s w _ rfl hunmarked
      · rw [hrun]
        dsimp only
        rw [Heap.updStmt_same, issue_drv, hheld, hrc]
        simp
      · exact absurd (.inl hrc) hnot
    · refine iff_of_true (fun hok => ?_) fun h => absurd h hrc
      obtain ⟨-, hrun⟩ | ⟨-, e, hrun⟩ := @Statement.prepareGiven_cases σ cli s w _ rfl hunmarked
      · rw [hrun] at hok
        exact absurd (Except.ok.inj hok) hrc
      · rw [hrun] at hok
        cases hok

theorem MarkMeans.heldAfter_iff (hmark : MarkMeans held s w) (op : TextOp) :
    HeldAfter cli held s w op ↔ Current cli s w op := by
  cases op with
  | setSql sql => exact Iff.rfl
  | prepare sql =>
      obtain ⟨w', hrun, hdrv, htrace, hst, hgiven⟩ := @MarkMeans.textGiven σ cli held s w hmark sql
      have hheld := hgiven.prepareGiven_held_iff hd
      rw [PreparesWhole, hst, hdrv, htrace] at hheld
      rw [HeldAfter, hrun]
      exact hheld
  | execDirect sql shouldThrow => exact Iff.rfl
  | exec => exact Iff.rfl

end Mark

/-- In every run on a constructed statement, `prepare` ends with `SQL_SUCCESS` only where the
driver holds the text, exactly when it finds no mark that an `exec_direct` has made void and no
text with a zero that is, or was, accepted. -/
theorem prepare_held_iff {held : σ → Handle → Option Str} (hd : HoldsPrepared cli held)
    {s : StmtId} {db : Handle} {sql : Str} {w w₀ : World σ}
    (hnew : (Statement.new cli s db sql).runOn w = (.ok ⟨⟩, w₀)) (ops : List TextOp) :
    AllSteps (TextOp.step cli s) (HeldAfter cli held s) ops w₀ ↔
      AllSteps (TextOp.step cli s) (Current cli s) ops w₀ := by
  have hmark : MarkMeans held s w₀ := by
    rw [runOn_new] at hnew
    split at hnew
    · intro hprepared
      rw [← (Prod.mk.inj hnew).2] at hprepared
      simp at hprepared
    · cases hnew
  have hstep (w : World σ) (op : TextOp) (h : MarkMeans held s w) :
      MarkMeans held s (op.step cli s w) := h.step hd op
  constructor
  · intro hheld
    exact hheld.of_invariant (fun w op h _ => hstep w op h)
      (fun w op h => (h.heldAfter_iff hd op).mp) hmark
  · intro hcurrent
    exact hcurrent.of_invariant (fun w op h _ => hstep w op h)
      (fun w op h => (h.heldAfter_iff hd op).mpr) hmark

/-- A driver that keeps one prepared text for each handle. -/
def onePlan : Cli (Handle → Option Str) where
  call d c :=
    match c with
    | .allocHandle _ _ => ({ rc := sqlSuccess, handle := 1 }, d)
    | .prepare h sql => ({ rc := sqlSuccess }, Function.update d h (some sql))
    | .execDirect h _ => ({ rc := sqlSuccess }, Function.update d h none)
    | _ => ({ rc := sqlSuccess }, d)
  diag _ _ _ := []

theorem holdsPrepared_onePlan : HoldsPrepared onePlan id where
  prepare _ h _ _ := Function.update_self h _ _
  execDirect _ h _ := Function.update_self h _ _
  execute _ _ := rfl

/-- A query as it was constructed. -/
def newQuery : World (Handle → Option Str) :=
  ((Statement.new onePlan 0 0 "select 1").runOn (World.start fun _ => none)).2

/-- A text is prepared once, run twice, replaced by another one and then prepared again. -/
theorem prepare_held_reprepared :
    AllSteps (TextOp.step onePlan 0) (HeldAfter onePlan id 0)
      [.prepare [], .exec, .prepare [], .exec, .execDirect "delete from t" false,
        .prepare "select 1", .exec]
      newQuery := by
  refine (prepare_held_iff holdsPrepared_onePlan (w := World.start fun _ => none) rfl _).mpr ?_
  simp only [allSteps_cons, allSteps_nil]
  decide +kernel

/-- A text that was prepared and then run by `exec_direct` keeps its mark: `prepare` makes no
call, returns `SQL_SUCCESS`, and the driver holds nothing. -/
theorem prepare_not_held :
    let ops : List TextOp := [.prepare [], .execDirect [] false, .prepare []]
    HoldsPrepared onePlan id ∧
    ((Statement.prepare onePlan 0 []).runOn
      ((ops.take 2).foldl (TextOp.step onePlan 0) newQuery)).1 = .ok sqlSuccess ∧
    (ops.foldl (TextOp.step onePlan 0) newQuery).drv 1 = none ∧
    ¬ AllSteps (TextOp.step onePlan 0) (HeldAfter onePlan id 0) ops newQuery := by
  intro ops
  refine ⟨holdsPrepared_onePlan, rfl, rfl, fun h => ?_⟩
  have hlast := h [.prepare [], .execDirect [] false] (.prepare []) [] rfl rfl
  cases hlast

end Dbgen3.Runtime
