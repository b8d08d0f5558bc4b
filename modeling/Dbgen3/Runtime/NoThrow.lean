import Dbgen3.Runtime.ReturnCodes
import Dbgen3.Runtime.Session

/-!
# Operations that promise not to throw

`chk` with `should_throw = false` reads the diagnostics although nobody looks at
them, and that can throw. The destructor frees the handle by a function that
throws on every code other than `SQL_SUCCESS`.
-/

namespace Dbgen3.Runtime

open Act

variable {σ : Type} (cli : Cli σ)

/-! ## The call behind an operation -/

/-- The exception the caller asks for; `prepare` and `exec` never ask for one. -/
def StmtOp.shouldThrow : StmtOp → Bool
  | .execDirect _ shouldThrow | .fetchScroll _ _ shouldThrow => shouldThrow
  | .prepare _ | .exec => false

/-- A statement after it was given a text; the empty text leaves the old one. -/
def Statement.withText (st : Statement) (sql : Str) : Statement :=
  if sql ≠ [] ∧ st.sql ≠ sql then { st with sql, isPrepared := false } else st

/-- The call an operation makes on statement `st`: none for a text that is prepared. -/
def StmtOp.call (st : Statement) : StmtOp → Option CliCall
  | .execDirect sql _ => some (.execDirect st.handle (nts (st.withText sql).sql))
  | .prepare sql =>
      if (st.withText sql).isPrepared then none
      else some (.prepare st.handle (nts (st.withText sql).sql))
  | .exec => some (.execute st.handle)
  | .fetchScroll dir len _ => some (.fetchScroll st.handle dir (int32 len))

/-- The code the driver answers with, and its state behind the call. -/
def StmtOp.answer (st : Statement) (d : σ) (op : StmtOp) : Ret × σ :=
  match op.call st with
  | none => (sqlSuccess, d)
  | some c => ((cli.call d c).1.rc, (cli.call d c).2)

/-- The code is `SQL_SUCCESS`, or the diagnostics of the handle can be read. -/
def Reported (d : σ) (h : Handle) (rc : Ret) : Prop :=
  rc = sqlSuccess ∨ readable (cli.diag d .stmt h) = true

namespace Statement

variable {cli} {s : StmtId}

theorem withText_handle (st : Statement) (sql : Str) : (st.withText sql).handle = st.handle := by
  unfold withText
  split <;> rfl

/-- A code passes a check when it is `SQL_SUCCESS`, and otherwise when no exception is asked
for and the diagnostics can be read. -/
def Passes (cli : Cli σ) (d : σ) (h : Handle) (rc : Ret) (shouldThrow : Bool) : Prop :=
  rc = sqlSuccess ∨ shouldThrow = false ∧ readable (cli.diag d .stmt h) = true

/-- A code that passes is returned, any other one raises an exception. -/
theorem chk_cases (rc : Ret) (shouldThrow : Bool) (w : World σ) :
    (Passes cli w.drv (w.heap.stmts s).handle rc shouldThrow ∧
        (chk cli s rc shouldThrow).runOn w = (.ok rc, w)) ∨
      (¬ Passes cli w.drv (w.heap.stmts s).handle rc shouldThrow ∧
        ∃ e, (chk cli s rc shouldThrow).runOn w = (.error e, w)) := by
  unfold chk
  rw [runOn_bind_ok (runOn_get w)]
  dsimp only
  by_cases hrc : rc = sqlSuccess
  · rw [if_neg (not_not_intro hrc)]
    exact .inl ⟨.inl hrc, rfl⟩
  · have hpasses : Passes cli w.drv (w.heap.stmts s).handle rc shouldThrow ↔
        shouldThrow = false ∧
          ∃ errors, load cli w.drv .stmt (w.heap.stmts s).handle = .ok errors := by
      rw [Passes, load_ok_iff]
      exact or_iff_right hrc
    rw [if_pos hrc, hpasses]
    cases hl : load cli w.drv .stmt (w.heap.stmts s).handle with
    | error e =>
        rw [runOn_bind_error (runOn_fromResult _ w)]
        exact .inr ⟨by simp, e, rfl⟩
    | ok errors =>
        rw [runOn_bind_ok (runOn_fromResult _ w)]
        cases shouldThrow with
        | true => exact .inr ⟨by simp, _, rfl⟩
        | false => exact .inl ⟨⟨rfl, errors, rfl⟩, rfl⟩

theorem chk_ends_iff (rc : Ret) (shouldThrow : Bool) (w : World σ) :
    (∃ a, ((chk cli s rc shouldThrow).runOn w).1 = .ok a) ↔
      Passes cli w.drv (w.heap.stmts s).handle rc shouldThrow := by
  obtain ⟨hpasses, hrun⟩ | ⟨hnot, e, hrun⟩ := @chk_cases σ cli s rc shouldThrow w
  · rw [hrun]
    exact iff_of_true ⟨rc, rfl⟩ hpasses
  · rw [hrun]
    exact iff_of_false nofun hnot

/-- Checking a code ends with that code exactly where it can be reported. -/
theorem chk_ok_iff (rc : Ret) (w : World σ) :
    ((chk cli s rc false).runOn w).1 = .ok rc ↔
      Reported cli w.drv (w.heap.stmts s).handle rc := by
  have hpasses : Passes cli w.drv (w.heap.stmts s).handle rc false ↔
      Reported cli w.drv (w.heap.stmts s).handle rc := or_congr_right (and_iff_right rfl)
  rw [← hpasses]
  obtain ⟨hpass, hrun⟩ | ⟨hnot, e, hrun⟩ := @chk_cases σ cli s rc false w
  · rw [hrun]
    exact iff_of_true rfl hpass
  · rw [hrun]
    exact iff_of_false nofun hnot

/-- The one call for a text that is not prepared: its code is returned and noted, or raises an
exception where it cannot be reported. -/
theorem prepareGiven_cases {w : World σ} {c : CliCall}
    (hc : c = .prepare (w.heap.stmts s).handle (nts (w.heap.stmts s).sql))
    (hprepared : (w.heap.stmts s).isPrepared = false) :
    (Reported cli (cli.call w.drv c).2 (w.heap.stmts s).handle (cli.call w.drv c).1.rc ∧
        (prepareGiven cli s).runOn w = (.ok (cli.call w.drv c).1.rc,
          { w.issue cli c with heap := w.heap.updStmt s fun st =>
              { st with isPrepared := decide ((cli.call w.drv c).1.rc = sqlSuccess) } })) ∨
      (¬ Reported cli (cli.call w.drv c).2 (w.heap.stmts s).handle (cli.call w.drv c).1.rc ∧
        ∃ e, (prepareGiven cli s).runOn w = (.error e, w.issue cli c)) := by
  subst hc
  have hpasses (d : σ) (h : Handle) (rc : Ret) : Passes cli d h rc false ↔ Reported cli d h rc :=
    or_congr_right (and_iff_right rfl)
  unfold prepareGiven
  rw [runOn_bind_ok (runOn_getHeap w)]
  dsimp only
  rw [hprepared, Bool.not_false, if_pos rfl, runOn_bind_ok (runOn_cliCall cli w _), ← hpasses]
  obtain ⟨hpass, hrun⟩ | ⟨hnot, e, hrun⟩ := @chk_cases σ cli s
    (cli.call w.drv (.prepare (w.heap.stmts s).handle (nts (w.heap.stmts s).sql))).1.rc false
    (w.issue cli (.prepare (w.heap.stmts s).handle (nts (w.heap.stmts s).sql)))
  · rw [runOn_bind_ok hrun]
    exact .inl ⟨hpass, rfl⟩
  · rw [runOn_bind_error hrun]
    exact .inr ⟨hnot, e, rfl⟩

/-- A call whose code is checked. -/
theorem checkedCall_ok_iff (c : CliCall) (w : World σ) :
    ((cliCallWriting cli c >>= fun reply => chk cli s reply.rc false).runOn w).1 =
        .ok (cli.call w.drv c).1.rc ↔
      Reported cli (cli.call w.drv c).2 (w.heap.stmts s).handle (cli.call w.drv c).1.rc := by
  rw [runOn_bind_ok (runOn_cliCallWriting cli w c), chk_ok_iff, issueWriting_stmts]
  rfl

/-- Giving the statement a text first is the rest on another statement. -/
theorem runOn_withText {α : Type} (sql : Str) (rest : Act (World σ) Exc α) (w : World σ) :
    ∃ w', (if sql ≠ [] then setSql s sql >>= fun _ => rest else rest).runOn w = rest.runOn w' ∧
      w'.drv = w.drv ∧ w'.heap.stmts s = (w.heap.stmts s).withText sql ∧
      w'.trace = w.trace ∧ ∀ t, t ≠ s → w'.heap.stmts t = w.heap.stmts t := by
  by_cases hsql : sql = []
  · refine ⟨w, by rw [if_neg (not_not_intro hsql)], rfl, ?_, rfl, fun _ _ => rfl⟩
    rw [withText, if_neg fun h => h.1 hsql]
  · rw [if_pos hsql]
    refine ⟨_, runOn_bind_ok (runOn_modifyHeap w _) _, rfl, ?_, rfl, fun t ht => ?_⟩
    · by_cases hsame : (w.heap.stmts s).sql = sql
      · simp [withText, hsame]
      · simp [withText, hsql, hsame]
    · by_cases hsame : (w.heap.stmts s).sql = sql
      · simp [hsame]
      · simp [hsame, ht]

end Statement

variable {cli} {s : StmtId}

/-- An operation that does not ask for exceptions ends with the driver's code exactly where
that code can be reported. -/
theorem StmtOp.run_ok_iff {op : StmtOp} (hop : op.shouldThrow = false) (w : World σ) :
    ((op.run cli s).runOn w).1 = .ok (op.answer cli (w.heap.stmts s) w.drv).1 ↔
      Reported cli (op.answer cli (w.heap.stmts s) w.drv).2 (w.heap.stmts s).handle
        (op.answer cli (w.heap.stmts s) w.drv).1 := by
  cases op with
  | execDirect sql shouldThrow =>
      obtain rfl : shouldThrow = false := hop
      obtain ⟨w', hrun, hdrv, hst, -⟩ := Statement.runOn_withText (s := s) sql
        (Statement.execGiven cli s false) w
      have hcall := @Statement.checkedCall_ok_iff σ cli s
        (.execDirect (w'.heap.stmts s).handle (nts (w'.heap.stmts s).sql)) w'
      rw [hst, Statement.withText_handle, hdrv] at hcall
      rw [StmtOp.run, Statement.execDirect_eq, hrun, Statement.execGiven,
        runOn_bind_ok (runOn_getHeap w')]
      dsimp only
      rw [hst, Statement.withText_handle]
      exact hcall
  | prepare sql =>
      obtain ⟨w', hrun, hdrv, hst, -⟩ := Statement.runOn_withText (s := s) sql
        (Statement.prepareGiven cli s) w
      rw [StmtOp.run, Statement.prepare_eq, hrun]
      by_cases hprepared : ((w.heap.stmts s).withText sql).isPrepared = true
      · rw [Statement.prepareGiven, runOn_bind_ok (runOn_getHeap w')]
        simp [StmtOp.answer, StmtOp.call, Reported, hst, hprepared]
      · have hcases := @Statement.prepareGiven_cases σ cli s w' _ rfl (by simpa [hst] using hprepared)
        rw [hst, Statement.withText_handle, hdrv] at hcases
        simp only [StmtOp.answer, StmtOp.call, if_neg hprepared]
        obtain ⟨hreported, hend⟩ | ⟨hnot, e, hend⟩ := hcases
        · rw [hend]
          exact iff_of_true rfl hreported
        · rw [hend]
          exact iff_of_false (fun h => by cases h) hnot
  | exec => exact Statement.checkedCall_ok_iff _ w
  | fetchScroll dir len shouldThrow =>
      obtain rfl : shouldThrow = false := hop
      exact Statement.checkedCall_ok_iff _ w

/-- Releasing a statement ends normally exactly when the driver answers `SQL_SUCCESS`. -/
theorem Statement.dispose_ok_iff (w : World σ) :
    (∃ a, ((dispose cli s).runOn w).1 = .ok a) ↔
      (cli.call w.drv (.freeHandle .stmt (w.heap.stmts s).handle)).1.rc = sqlSuccess := by
  let c : CliCall := .freeHandle .stmt (w.heap.stmts s).handle
  let msg : Str :=
    "Can't free statement handle handle=" ++ Text.intDecimal (w.heap.stmts s).handle ++ "."
  have hfree : (cliCall cli c >>= fun reply =>
      throwOnError cli reply.rc (w.heap.stmts s).handle .stmt msg).runOn w =
      (throwOnError cli (cli.call w.drv c).1.rc (w.heap.stmts s).handle .stmt msg).runOn
        (w.issue cli c) := runOn_bind_ok (runOn_cliCall cli w c) _
  unfold dispose
  rw [runOn_bind_ok (runOn_getHeap w), runOn_orElse, hfree]
  by_cases hrc : (cli.call w.drv c).1.rc = sqlSuccess
  · rw [runOn_throwOnError_success cli hrc]
    exact iff_of_true ⟨_, rfl⟩ hrc
  · rw [runOn_throwOnError_failure cli hrc]
    exact iff_of_false nofun hrc

/-- The documented promise holds of an operation exactly when its code can be reported, and
of the destructor exactly when the driver releases the handle with `SQL_SUCCESS`. -/
theorem noThrow_iff (cli : Cli σ) (s : StmtId) (w : World σ) :
    (∀ rc, ((Statement.chk cli s rc false).runOn w).1 = .ok rc ↔
      Reported cli w.drv (w.heap.stmts s).handle rc) ∧
    (∀ op : StmtOp, op.shouldThrow = false →
      (((op.run cli s).runOn w).1 = .ok (op.answer cli (w.heap.stmts s) w.drv).1 ↔
        Reported cli (op.answer cli (w.heap.stmts s) w.drv).2 (w.heap.stmts s).handle
          (op.answer cli (w.heap.stmts s) w.drv).1)) ∧
    ((∃ a, ((Statement.dispose cli s).runOn w).1 = .ok a) ↔
      (cli.call w.drv (.freeHandle .stmt (w.heap.stmts s).handle)).1.rc = sqlSuccess) :=
  ⟨fun rc => Statement.chk_ok_iff rc w, fun _ hop => StmtOp.run_ok_iff hop w,
    Statement.dispose_ok_iff w⟩

/-- A driver whose calls fail with one record that can be read. -/
theorem noThrow_reporting :
    ((StmtOp.exec.run (Cli.reporting (-1) [⟨-803, "23505", "duplicate key"⟩]) 0).runOn
      (World.start ())).1 = .ok (-1) :=
  ((noThrow_iff (Cli.reporting (-1) [⟨-803, "23505", "duplicate key"⟩]) 0
    (World.start ())).2.1 .exec rfl).mpr (.inr rfl)

/-- A driver whose calls fail with a message that is longer than the buffer for it. -/
def longMessage : Cli Unit where
  call _ _ := ({ rc := -1 }, ())
  diag _ _ _ := [.successWithInfo 2000]

/-- `exec` throws there, and the destructor ends the program. -/
theorem throws_longMessage :
    ((StmtOp.exec.run longMessage 0).runOn (World.start ())).1 ≠
        .ok (StmtOp.exec.answer longMessage {} ()).1 ∧
      ¬ ∃ a, ((Statement.dispose longMessage 0).runOn (World.start ())).1 = .ok a := by
  constructor
  · exact nofun
  · exact nofun

end Dbgen3.Runtime
