import Dbgen3.Runtime.Calls
import Dbgen3.Runtime.Runs
import Dbgen3.Runtime.Setup

/-!
# Cursors

Executing a query opens a cursor on the handle. Neither `exec` nor `fetch` closes
one, so the driver's cursor is open exactly when an `SQLExecute` of the run has
succeeded, and a later `exec` finds it open.
-/

namespace Dbgen3.Runtime

open Act Runs
open Relation (ReflTransGen)

variable {σ : Type} {cli : Cli σ} {opened : σ → Handle → Bool}

/-! ## The driver -/

/-- The calls that may close the cursor of handle `h`. -/
def CliCall.closesCursor (h : Handle) : CliCall → Prop
  | .closeCursor h' => h' = h
  | .freeHandle _ h' => h' = h
  | .endTran .. => True
  | _ => False

/-- Every text executed is a query: it opens a cursor, which stays open until it is
closed, and is refused while the cursor is open. -/
structure OpensCursors (cli : Cli σ) (opened : σ → Handle → Bool) : Prop where
  execute : ∀ d h, (cli.call d (.execute h)).1.rc = sqlSuccess ∨
    (cli.call d (.execute h)).1.rc = sqlSuccessWithInfo →
    opened (cli.call d (.execute h)).2 h = true
  refuse : ∀ d h, opened d h = true → (cli.call d (.execute h)).1.rc = sqlError
  keep : ∀ d c h, ¬ c.closesCursor h →
    (c = .execute h → (cli.call d c).1.rc ≠ sqlSuccess ∧
      (cli.call d c).1.rc ≠ sqlSuccessWithInfo) →
    opened (cli.call d c).2 h = opened d h

/-! ## Operations on a query object -/

/-- A call of `exec` or `fetch`. -/
inductive QueryOp
  | exec (sql : Str)
  | fetch

variable (cli) in
/-- The world after one call on query object `u`. -/
def QueryOp.step (u : UtlId) (w : World σ) : QueryOp → World σ
  | .exec sql => ((Utl.exec cli u sql).runOn w).2
  | .fetch => ((Utl.fetch cli u).runOn w).2

variable (cli) in
/-- The world after a sequence of calls on query object `u`. -/
def queryRun (u : UtlId) (ops : List QueryOp) (w : World σ) : World σ :=
  ops.foldl (QueryOp.step cli u) w

/-- The calls of `exec` and `fetch`. -/
def CliCall.isQuery : CliCall → Prop
  | .setStmtAttr .. | .prepare .. | .bindParameter .. | .bindCol .. | .execute _
  | .fetchScroll .. => True
  | _ => False

/-- The calls of `fetch`. -/
def CliCall.isFetch : CliCall → Prop
  | .fetchScroll .. => True
  | _ => False

theorem CliCall.isQuery.keeps_open {c : CliCall} (hc : c.isQuery) (h : Handle) :
    ¬ c.closesCursor h := by
  cases c <;> first | exact hc.elim | exact id

section Calls

variable {P Q : CliCall → Prop} {F : Prop} {α : Type}

/-- A quiet computation makes calls of its kind and quiet changes. -/
theorem calls_of_quiet {m : Act (World σ) Exc α} (hm : Within (QuietStep cli P F) m)
    (hPQ : ∀ c, P c → Q c) : Within (CallStep cli Q Heap.Quiet) m := by
  refine hm.mono fun w w' hstep => ?_
  cases hstep with
  | call hc => exact .call (hPQ _ hc)
  | heap hq _ => exact .heap hq

theorem calls_assignRc {u : UtlId} {step : Act (World σ) Exc Ret}
    (h : Within (CallStep cli P Heap.Quiet) step) :
    Within (CallStep cli P Heap.Quiet) (Utl.assignRc u step) :=
  h.bind fun rc => (calls_modifyHeap fun hp => .updUtl_rc hp u rc).bind fun _ => within_pure rc

theorem calls_handleReturnCode (s : StmtId) (rc : Ret) (codes : List Int) :
    Within (CallStep cli P Heap.Quiet) (Statement.handleReturnCode cli s rc codes) :=
  within_of_fixed (handleReturnCode_state s rc codes)

end Calls

theorem calls_exec (u : UtlId) (sql : Str) :
    Within (CallStep cli CliCall.isQuery Heap.Quiet) (Utl.exec cli u sql) := by
  have hsetup : Within (CallStep cli CliCall.isQuery Heap.Quiet) (Utl.setup cli u sql) := by
    refine calls_of_quiet (Utl.within_setup u sql) fun c hc => ?_
    cases c <;> first | exact hc.elim | trivial
  have hexec : ∀ s, Within (CallStep cli CliCall.isQuery Heap.Quiet) (Statement.exec cli s) :=
    fun s => calls_getHeap.bind fun hp => calls_cliCallWriting trivial fun r => calls_chk s _ _
  refine calls_getHeap.bind fun hp => hsetup.bind fun rc => ?_
  refine Within.bind (Within.ite (calls_assignRc (hexec _)) (within_pure _)) fun rc => ?_
  exact Within.ite (calls_handleReturnCode _ _ _) (within_pure _)

theorem calls_fetch (u : UtlId) :
    Within (CallStep cli CliCall.isFetch Heap.Quiet) (Utl.fetch cli u) := by
  refine calls_getHeap.bind fun hp => ?_
  dsimp only
  split
  · exact within_throw _
  · have hscroll : ∀ s len, Within (CallStep cli CliCall.isFetch Heap.Quiet)
        (Statement.fetchScroll cli s sqlFetchNext len false) :=
      fun s len => calls_getHeap.bind fun hp =>
        calls_cliCallWriting trivial fun r => calls_chk s _ _
    refine (calls_assignRc (hscroll _ _)).bind fun rc => ?_
    exact Within.ite (within_pure _) (calls_handleReturnCode _ _ _)

/-! ## Who opened the cursor -/

/-- An `SQLExecute` on handle `h` that succeeded. -/
def Event.Opens (h : Handle) (e : Event σ) : Prop :=
  e.call = .execute h ∧ (e.rc = sqlSuccess ∨ e.rc = sqlSuccessWithInfo)

/-- Between two worlds the trace grew, the objects kept their handles, and the cursor of
handle `h` is open when it was or when a new call opened it. -/
structure Track (opened : σ → Handle → Bool) (h : Handle) (w w' : World σ) : Prop where
  handle : ∀ u, w'.heap.handle u = w.heap.handle u
  trace : ∃ new, w'.trace = w.trace ++ new ∧
    (opened w'.drv h = true ↔ opened w.drv h = true ∨ ∃ e ∈ new, e.Opens h)

theorem Track.refl (h : Handle) (w : World σ) : Track opened h w w :=
  ⟨fun _ => rfl, [], by simp, by simp⟩

theorem Track.trans {h : Handle} {w₁ w₂ w₃ : World σ} (h₁ : Track opened h w₁ w₂)
    (h₂ : Track opened h w₂ w₃) : Track opened h w₁ w₃ := by
  obtain ⟨new₁, ht₁, ho₁⟩ := h₁.trace
  obtain ⟨new₂, ht₂, ho₂⟩ := h₂.trace
  refine ⟨fun u => (h₂.handle u).trans (h₁.handle u), new₁ ++ new₂, ?_, ?_⟩
  · rw [ht₂, ht₁, List.append_assoc]
  · rw [ho₂, ho₁]
    simp only [List.mem_append, or_and_right, exists_or, or_assoc]

/-- One call of a query object. -/
theorem Track.issue (hcli : OpensCursors cli opened) (h : Handle) (w : World σ) {c : CliCall}
    (hc : c.isQuery) : Track opened h w (w.issue cli c) := by
  refine ⟨fun _ => rfl, _, issue_trace cli w c, ?_⟩
  rw [issue_drv]
  by_cases hexec : c = .execute h ∧
      ((cli.call w.drv c).1.rc = sqlSuccess ∨ (cli.call w.drv c).1.rc = sqlSuccessWithInfo)
  · obtain ⟨rfl, hrc⟩ := hexec
    refine iff_of_true (hcli.execute w.drv h hrc) (.inr ⟨_, List.mem_singleton.mpr rfl, rfl, hrc⟩)
  · rw [hcli.keep w.drv c h (hc.keeps_open h) fun hch =>
      not_or.mp fun hrc => hexec ⟨hch, hrc⟩]
    refine (or_iff_left ?_).symm
    rintro ⟨e, he, hcall, hrc⟩
    obtain rfl := List.mem_singleton.mp he
    exact hexec ⟨hcall, hrc⟩

theorem Track.withHeap {h : Handle} {w w' : World σ} (ht : Track opened h w w') {hp : Heap}
    (hq : ∀ u, hp.handle u = w'.heap.handle u) : Track opened h w { w' with heap := hp } :=
  ⟨fun u => (hq u).trans (ht.handle u), ht.trace⟩

/-- Every chain of such calls is tracked. -/
theorem track_of_chain (hcli : OpensCursors cli opened) (h : Handle) {w w' : World σ}
    (hchain : ReflTransGen (CallStep cli CliCall.isQuery Heap.Quiet) w w') :
    Track opened h w w' := by
  induction hchain with
  | refl => exact .refl h w
  | @tail w₁ w₂ _ hstep ih =>
      cases hstep with
      | call hc => exact ih.trans (.issue hcli h w₁ hc)
      | @writing c hc =>
          have hissue : Track opened h w (w₁.issue cli c) := ih.trans (.issue hcli h w₁ hc)
          refine hissue.withHeap fun u => ?_
          obtain ⟨hstmts, hutls⟩ :=
            Heap.foldl_write_objects (cli.call w₁.drv c).1.writes w₁.heap
          rw [Heap.handle, hstmts, hutls]
          rfl
      | heap hq => exact ih.withHeap fun u => hq.handle_eq u

/-! ## Runs -/

theorem queryStep_chain (u : UtlId) (op : QueryOp) (w : World σ) :
    ReflTransGen (CallStep cli CliCall.isQuery Heap.Quiet) w (op.step cli u w) := by
  cases op with
  | exec sql => exact calls_exec u sql w
  | fetch =>
      refine (calls_fetch u).mono (fun w w' hstep => ?_) w
      have hquery : ∀ c : CliCall, c.isFetch → c.isQuery := by
        intro c hc
        cases c <;> first | exact hc.elim | trivial
      cases hstep with
      | call hc => exact .call (hquery _ hc)
      | writing hc => exact .writing (hquery _ hc)
      | heap hq => exact .heap hq

theorem query_grows (u : UtlId) : Grows (QueryOp.step cli u) World.trace := by
  intro w op
  obtain ⟨new, ht, -⟩ := extends_of_chain (@queryStep_chain σ cli u op w)
  exact ⟨new, ht.symm⟩

/-- The moments at which an operation issues `SQLExecute`. -/
theorem forall_queryStep_execute_iff (P : σ → Handle → Prop) (u : UtlId) (op : QueryOp)
    (w : World σ) :
    (∀ e ∈ newEvents w (op.step cli u w), ∀ h, e.call = .execute h → P e.drv h) ↔
      ∀ sql, op = .exec sql → ∀ w₁, Utl.SetsUp cli u sql w w₁ →
        P w₁.drv (w₁.heap.handle u) := by
  cases op with
  | exec sql =>
      rw [QueryOp.step, forall_exec_execute_iff fun d _ h => P d h]
      constructor
      · rintro h _ ⟨rfl⟩
        exact h
      · exact fun h => h sql rfl
  | fetch =>
      refine iff_of_true (fun e he h hcall => ?_) (fun _ hop => nomatch hop)
      obtain ⟨new, ht, hnew⟩ := extends_of_chain (@calls_fetch σ cli u w)
      rw [QueryOp.step, newEvents, newEntries_eq ht] at he
      have hfetch := hnew e he
      rw [hcall] at hfetch
      exact hfetch.elim

/-- A successful set-up phase leaves the cursor and the handle alone. -/
theorem opened_of_setsUp (hcli : OpensCursors cli opened) {u : UtlId} {sql : Str}
    {w w₁ : World σ} (h : Utl.SetsUp cli u sql w w₁) :
    opened w₁.drv (w₁.heap.handle u) = opened w.drv (w.heap.handle u) := by
  rw [h.reach.heap.handle_eq u]
  refine view_of_runOn (fun d => opened d (w.heap.handle u)) (Utl.within_setup u sql)
    (fun d c hc => ?_) h
  have hquery : c.isQuery := by cases c <;> first | exact hc.elim | trivial
  refine hcli.keep d c _ (hquery.keeps_open _) ?_
  rintro rfl
  exact hc.elim

/-- An `exec` that gets to `SQLExecute` finds no `SQLExecute` of the run that succeeded. -/
def FirstExecution (cli : Cli σ) (u : UtlId) (start w : World σ) (op : QueryOp) : Prop :=
  ∀ sql, op = .exec sql → ∀ w₁, Utl.SetsUp cli u sql w w₁ →
    ∀ e ∈ newEvents start w, ¬ e.Opens (start.heap.handle u)

/-- Every `SQLExecute` issued between two states finds its handle without an open cursor. -/
def ExecutesClosed (opened : σ → Handle → Bool) (start w : World σ) : Prop :=
  ∀ e ∈ newEvents start w, ∀ h, e.call = .execute h → opened e.drv h = false

/-- No `SQLExecute` of a run finds an open cursor on its handle exactly when no `exec` gets to
`SQLExecute` after an earlier `SQLExecute` of the run has succeeded. -/
theorem run_closed_iff (hcli : OpensCursors cli opened) (u : UtlId) (ops : List QueryOp)
    (w : World σ) (hclosed : opened w.drv (w.heap.handle u) = false) :
    ExecutesClosed opened w (queryRun cli u ops w) ↔
      AllSteps (QueryOp.step cli u) (FirstExecution cli u w) ops w := by
  let I : World σ → Prop := Track opened (w.heap.handle u) w
  have hkeep : ∀ t (op : QueryOp), I t → I (op.step cli u t) :=
    fun t op ht => ht.trans (track_of_chain hcli _ (queryStep_chain u op t))
  -- along the run the cursor is open exactly when a new event opened it
  have hopen : ∀ t, I t → (opened t.drv (t.heap.handle u) = false ↔
      ∀ e ∈ newEvents w t, ¬ e.Opens (w.heap.handle u)) := by
    intro t ht
    obtain ⟨new, htrace, hiff⟩ := ht.trace
    rw [newEvents, newEntries_eq htrace, ht.handle u, ← Bool.not_eq_true, hiff, hclosed]
    simp
  have hstep : ∀ t op, I t → (FirstExecution cli u w t op ↔
      ∀ sql, op = .exec sql → ∀ t₁, Utl.SetsUp cli u sql t t₁ →
        opened t₁.drv (t₁.heap.handle u) = false) := by
    intro t op ht
    unfold FirstExecution
    refine forall₂_congr fun sql _ => forall₂_congr fun t₁ ht₁ => ?_
    rw [opened_of_setsUp hcli ht₁, hopen t ht]
  unfold ExecutesClosed newEvents queryRun
  rw [(query_grows u).forall_newEntries_iff]
  constructor
  · intro h
    refine AllSteps.of_invariant (fun t op ht _ => hkeep t op ht) (fun t op ht hC => ?_) h
      (Track.refl _ w)
    apply (hstep t op ht).mpr
    exact (forall_queryStep_execute_iff (fun d h => opened d h = false) u op t).mp hC
  · intro h
    refine AllSteps.of_invariant (fun t op ht _ => hkeep t op ht) (fun t op ht hC => ?_) h
      (Track.refl _ w)
    apply (forall_queryStep_execute_iff (fun d h => opened d h = false) u op t).mpr
    exact (hstep t op ht).mp hC

/-! ## A driver that keeps cursors -/

/-- The driver whose state says which handles have an open cursor. -/
def cursorDriver : Cli (Handle → Bool) where
  call d c :=
    match c with
    | .execute h =>
        if d h then ({ rc := sqlError }, d)
        else ({ rc := sqlSuccess }, Function.update d h true)
    | .closeCursor h => ({ rc := sqlSuccess }, Function.update d h false)
    | .freeHandle _ h => ({ rc := sqlSuccess }, Function.update d h false)
    | .endTran .. => ({ rc := sqlSuccess }, fun _ => false)
    | _ => ({ rc := sqlSuccess }, d)
  diag _ _ _ := [.success ⟨-99999, "24000", "Invalid cursor state."⟩]

theorem opensCursors_cursorDriver : OpensCursors cursorDriver fun d => d where
  execute d h hrc := by
    cases hd : d h with
    | true => simp [cursorDriver, hd, sqlError, sqlSuccess, sqlSuccessWithInfo] at hrc
    | false => simp [cursorDriver, hd]
  refuse d h hd := by simp [cursorDriver, hd]
  keep d c h hc hexec := by
    cases c with
    | execute h' =>
        by_cases hh : h' = h
        · subst hh
          cases hd : d h' with
          | true => simp [cursorDriver, hd]
          | false => exact absurd (by simp [cursorDriver, hd]) (hexec rfl).1
        · cases hd : d h' <;> simp [cursorDriver, hd, Function.update_of_ne (Ne.symm hh)]
    | closeCursor h' => simp [cursorDriver, Function.update_of_ne (Ne.symm hc)]
    | freeHandle type h' => simp [cursorDriver, Function.update_of_ne (Ne.symm hc)]
    | endTran => exact absurd trivial hc
    | _ => rfl

/-- A query object with a result buffer of one column. -/
def oneColumn : World (Handle → Bool) where
  drv := fun _ => false
  heap :=
    { bufs := fun _ => .new .res 1 [⟨4, 0, 4⟩]
      stmts := fun _ => { sql := "select x from t", handle := 1 }
      utls := fun _ => { s := 0, resBuf := some 0 } }

/-- One `exec` and two fetches. -/
theorem run_closed_once :
    ExecutesClosed (fun d => d) oneColumn
      (queryRun cursorDriver 0 [.exec [], .fetch, .fetch] oneColumn) := by
  refine (run_closed_iff opensCursors_cursorDriver 0 [.exec [], .fetch, .fetch] oneColumn
    rfl).mpr ?_
  simp only [allSteps_cons, allSteps_nil, and_true]
  refine ⟨?_, ?_, ?_⟩
  · intro sql _ w₁ _ e he
    simp [newEvents, newEntries] at he
  · intro sql hop
    cases hop
  · intro sql hop
    cases hop

/-- The second `exec` finds the cursor of the first one open. -/
theorem run_not_closed_twice :
    ¬ ExecutesClosed (fun d => d) oneColumn
      (queryRun cursorDriver 0 [.exec [], .fetch, .exec []] oneColumn) := by
  intro h
  have hopen := h _ (List.getElem_mem (n := 6) (by decide +kernel)) 1 rfl
  exact absurd hopen (by decide)

end Dbgen3.Runtime
