import Dbgen3.Runtime.Footprint
import Dbgen3.Runtime.Session

/-!
# The calls an operation makes

Operations on statements and transactions make calls of their own kind only. The
calls of an open are those of its chain and, after a failure, of its handler.
What such calls do not touch stays as it was.
-/

namespace Dbgen3.Runtime

open Act ConnWorld
open Relation (ReflTransGen)

variable {σ : Type} (cli : Cli σ)

/-- A call of kind `P`, or a change `H` of the objects. -/
inductive CallStep (P : CliCall → Prop) (H : Heap → Heap → Prop) : World σ → World σ → Prop
  | call {w : World σ} {c : CliCall} (h : P c) : CallStep P H w (w.issue cli c)
  | writing {w : World σ} {c : CliCall} (h : P c) : CallStep P H w (w.issueWriting cli c)
  | heap {w : World σ} {hp : Heap} (h : H w.heap hp) : CallStep P H w { w with heap := hp }

/-- Any change of the objects. -/
def AnyChange : Heap → Heap → Prop := fun _ _ => True

/-- The statements keep their handles. -/
def SameHandles (hp hp' : Heap) : Prop := ∀ s, (hp'.stmts s).handle = (hp.stmts s).handle

/-- The later trace is longer by calls of kind `P`. -/
def Extends (P : CliCall → Prop) (w w' : World σ) : Prop :=
  ∃ new, w'.trace = w.trace ++ new ∧ ∀ e ∈ new, P e.call

section Extends

variable {P : CliCall → Prop} {w w₁ w₂ : World σ}

theorem Extends.refl (w : World σ) : Extends P w w := ⟨[], by simp, by simp⟩

theorem Extends.trans (h : Extends P w w₁) (h' : Extends P w₁ w₂) : Extends P w w₂ := by
  obtain ⟨new, ht, hn⟩ := h
  obtain ⟨new', ht', hn'⟩ := h'
  refine ⟨new ++ new', by rw [ht', ht, List.append_assoc], ?_⟩
  intro e he
  exact (List.mem_append.mp he).elim (hn e) (hn' e)

theorem Extends.issue {c : CliCall} (h : Extends P w w₁) (hc : P c) :
    Extends P w (w₁.issue cli c) :=
  h.trans ⟨_, issue_trace cli w₁ c, by simpa using hc⟩

end Extends

section Calls

variable {cli} {P : CliCall → Prop} {H : Heap → Heap → Prop}

/-- A chain of calls makes the trace longer by calls of its kind. -/
theorem extends_of_chain {w w' : World σ} (h : ReflTransGen (CallStep cli P H) w w') :
    Extends P w w' := by
  induction h with
  | refl => exact .refl w
  | tail _ hstep ih =>
      cases hstep with
      | call hc => exact ih.issue cli hc
      | @writing c hc => exact ih.issue cli hc
      | heap _ => exact ih

/-- A view of the driver that no call of kind `P` changes is the same at the end. -/
theorem view_eq_of_chain {β : Type} {v : σ → β} (hv : ∀ d c, P c → v (cli.call d c).2 = v d)
    {w w' : World σ} (h : ReflTransGen (CallStep cli P H) w w') : v w'.drv = v w.drv := by
  induction h with
  | refl => rfl
  | tail _ hstep ih =>
      cases hstep with
      | call hc => exact (hv _ _ hc).trans ih
      | writing hc => exact (hv _ _ hc).trans ih
      | heap _ => exact ih

theorem calls_getHeap : Within (CallStep cli P H) (getHeap : Act (World σ) Exc Heap) :=
  within_of_fixed fun _ => rfl

theorem calls_modifyHeap {f : Heap → Heap} (hf : ∀ hp, H hp (f hp)) :
    Within (CallStep cli P H) (modifyHeap f : Act (World σ) Exc PUnit) :=
  fun w => .single (.heap (hf w.heap))

theorem calls_cliCall {α : Type} {c : CliCall} (hc : P c) {f : Reply → Act (World σ) Exc α}
    (hf : ∀ r, Within (CallStep cli P H) (f r)) : Within (CallStep cli P H) (cliCall cli c >>= f) :=
  Within.bind (fun _ => .single (.call hc)) hf

theorem calls_cliCallWriting {α : Type} {c : CliCall} (hc : P c)
    {f : Reply → Act (World σ) Exc α} (hf : ∀ r, Within (CallStep cli P H) (f r)) :
    Within (CallStep cli P H) (cliCallWriting cli c >>= f) :=
  Within.bind (fun _ => .single (.writing hc)) hf

theorem calls_throwOnError (rc : Ret) (h : Handle) (type : HandleType) (msg : Str) :
    Within (CallStep cli P H) (throwOnError cli rc h type msg) := by
  refine within_get.bind fun w => Within.ite ?_ (within_pure _)
  exact (within_fromResult _).bind fun _ => within_throw _

theorem calls_chk (s : StmtId) (rc : Ret) (shouldThrow : Bool) :
    Within (CallStep cli P H) (Statement.chk cli s rc shouldThrow) :=
  within_of_fixed (chk_state s rc shouldThrow)

end Calls

/-! ## Operations on statements and transactions -/

/-- The calls they make. -/
def CliCall.isStatement : CliCall → Prop
  | .allocHandle .stmt _ | .freeHandle .stmt _ | .execDirect .. | .prepare .. | .execute _
  | .fetchScroll .. | .endTran .. => True
  | _ => False

variable {cli}

section Generic

variable {P : CliCall → Prop}

theorem calls_new (s : StmtId) (db : Handle) (sql : Str) (hc : P (.allocHandle .stmt db)) :
    Within (CallStep cli P AnyChange) (Statement.new cli s db sql) := by
  refine Within.bind ?_ fun h => calls_modifyHeap fun _ => trivial
  exact calls_cliCall hc fun r => (calls_throwOnError _ _ _ _).bind fun _ => within_pure _

theorem calls_dispose (s : StmtId) (hc : ∀ h, P (.freeHandle .stmt h)) :
    Within (CallStep cli P AnyChange) (Statement.dispose cli s) := by
  refine calls_getHeap.bind fun hp => Within.orElse ?_ fun _ => within_throw _
  exact calls_cliCall (hc _) fun r => calls_throwOnError _ _ _ _

/-- A block with a local statement makes the calls of its body, and those that allocate and
free the handle. -/
theorem calls_withLocal {α : Type} {s : StmtId} {db : Handle} {body : Act (World σ) Exc α}
    (hbody : Within (CallStep cli P AnyChange) body) (hnew : P (.allocHandle .stmt db))
    (hfree : ∀ h, P (.freeHandle .stmt h)) :
    Within (CallStep cli P AnyChange) (Statement.withLocal cli s db body) :=
  (calls_new s db [] hnew).bind fun _ => hbody.withCleanup (calls_dispose s hfree)

end Generic

/-- The constructor of a statement: one call. -/
theorem runOn_new (st : StmtId) (db : Handle) (sql : Str) (w : World σ) :
    (Statement.new cli st db sql).runOn w =
      if (cli.call w.drv (.allocHandle .stmt db)).1.rc = sqlSuccess then
        (.ok ⟨⟩,
          { w.issue cli (.allocHandle .stmt db) with
            heap := w.heap.updStmt st fun _ =>
              { sql, handle := (cli.call w.drv (.allocHandle .stmt db)).1.handle } })
      else
        (.error (raised cli (w.issue cli (.allocHandle .stmt db)) db .stmt
          "Can not allocate statement handle."), w.issue cli (.allocHandle .stmt db)) := by
  unfold Statement.new allocStmtHandle
  by_cases hrc : (cli.call w.drv (.allocHandle .stmt db)).1.rc = sqlSuccess
  · have hthrow := runOn_throwOnError_success cli hrc db .stmt
      "Can not allocate statement handle." (w.issue cli (.allocHandle .stmt db))
    rw [if_pos hrc, bind_assoc, runOn_bind_ok (runOn_cliCall cli w _), bind_assoc,
      runOn_bind_ok hthrow, pure_bind]
    rfl
  · have hthrow := runOn_throwOnError_failure cli hrc db .stmt
      "Can not allocate statement handle." (w.issue cli (.allocHandle .stmt db))
    rw [if_neg hrc, bind_assoc, runOn_bind_ok (runOn_cliCall cli w _), bind_assoc,
      runOn_bind_error hthrow]

/-- The destructor of a statement: one call, whatever comes of it. -/
theorem runOn_dispose_state (st : StmtId) (w : World σ) :
    ((Statement.dispose cli st).runOn w).2 =
      w.issue cli (.freeHandle .stmt (w.heap.stmts st).handle) := by
  unfold Statement.dispose
  rw [runOn_bind_ok (runOn_getHeap w), runOn_orElse,
    runOn_bind_ok (runOn_cliCall cli w _)]
  by_cases hrc : (cli.call w.drv (.freeHandle .stmt (w.heap.stmts st).handle)).1.rc = sqlSuccess
  · rw [runOn_throwOnError_success cli hrc]
  · rw [runOn_throwOnError_failure cli hrc]
    rfl

/-- The calls of the methods of a statement. -/
def CliCall.isMethod : CliCall → Prop
  | .execDirect .. | .prepare .. | .execute _ | .fetchScroll .. | .endTran .. => True
  | _ => False

theorem CliCall.isMethod.isStatement {c : CliCall} (h : c.isMethod) : c.isStatement := by
  cases c <;> trivial

/-- A step is one call, or leaves the driver alone. -/
theorem CallStep.drv_trace {P : CliCall → Prop} {H : Heap → Heap → Prop} {w w' : World σ}
    (h : CallStep cli P H w w') :
    (w'.drv = w.drv ∧ w'.trace = w.trace) ∨
      ∃ c, P c ∧ w'.drv = (cli.call w.drv c).2 ∧ ∃ e : Event σ,
        w'.trace = w.trace ++ [e] ∧ e.call = c ∧ e.rc = (cli.call w.drv c).1.rc := by
  cases h with
  | @call c hc => exact .inr ⟨c, hc, rfl, _, rfl, rfl, rfl⟩
  | @writing c hc => exact .inr ⟨c, hc, rfl, _, rfl, rfl, rfl⟩
  | heap hchange => exact .inl ⟨rfl, rfl⟩

theorem CallStep.mono {P Q : CliCall → Prop} {H K : Heap → Heap → Prop} {w w' : World σ}
    (h : CallStep cli P H w w') (hPQ : ∀ c, P c → Q c) (hHK : ∀ hp hp', H hp hp' → K hp hp') :
    CallStep cli Q K w w' := by
  cases h with
  | call hc => exact .call (hPQ _ hc)
  | writing hc => exact .writing (hPQ _ hc)
  | heap hchange => exact .heap (hHK _ _ hchange)

theorem CallStep.isStatement {w w' : World σ}
    (h : CallStep cli CliCall.isMethod SameHandles w w') :
    CallStep cli CliCall.isStatement AnyChange w w' :=
  h.mono (fun _ hc => hc.isStatement) fun _ _ _ => trivial

theorem sameHandles_updStmt (s : StmtId) {f : Statement → Statement}
    (hf : ∀ st, (f st).handle = st.handle) (hp : Heap) : SameHandles hp (hp.updStmt s f) :=
  (Heap.Quiet.updStmt hp s f hf).handle

section Generic

variable {P : CliCall → Prop}

theorem calls_setSql (s : StmtId) (sql : Str) :
    Within (CallStep cli P SameHandles) (Statement.setSql s sql) := by
  refine calls_modifyHeap fun hp => ?_
  split
  · exact sameHandles_updStmt s (f := fun st => { st with sql := sql, isPrepared := false })
      (fun _ => rfl) hp
  · exact fun _ => rfl

theorem calls_execDirect (s : StmtId) (sql : Str) (shouldThrow : Bool)
    (hc : ∀ h sql, P (.execDirect h sql)) :
    Within (CallStep cli P SameHandles) (Statement.execDirect cli s sql shouldThrow) := by
  have hgiven : Within (CallStep cli P SameHandles) (Statement.execGiven cli s shouldThrow) :=
    calls_getHeap.bind fun hp => calls_cliCallWriting (hc _ _) fun r => calls_chk s r.rc _
  rw [Statement.execDirect_eq]
  exact Within.ite ((calls_setSql s sql).bind fun _ => hgiven) hgiven

theorem calls_prepare (s : StmtId) (sql : Str) (hc : ∀ h sql, P (.prepare h sql)) :
    Within (CallStep cli P SameHandles) (Statement.prepare cli s sql) := by
  have hgiven : Within (CallStep cli P SameHandles) (Statement.prepareGiven cli s) := by
    refine calls_getHeap.bind fun hp => Within.ite ?_ (within_pure _)
    refine calls_cliCall (hc _ _) fun r => (calls_chk s r.rc false).bind fun rc => ?_
    have hset := sameHandles_updStmt s
      (f := fun st => { st with isPrepared := decide (rc = sqlSuccess) }) fun _ => rfl
    exact (calls_modifyHeap hset).bind fun _ => within_pure rc
  rw [Statement.prepare_eq]
  exact Within.ite ((calls_setSql s sql).bind fun _ => hgiven) hgiven

end Generic

theorem calls_run (s : StmtId) (op : StmtOp) :
    Within (CallStep cli CliCall.isMethod SameHandles) (op.run cli s) := by
  cases op with
  | execDirect sql shouldThrow => exact calls_execDirect s sql shouldThrow fun _ _ => trivial
  | prepare sql => exact calls_prepare s sql fun _ _ => trivial
  | exec => exact calls_getHeap.bind fun hp => calls_cliCallWriting trivial fun r => calls_chk s _ _
  | fetchScroll dir len shouldThrow =>
      exact calls_getHeap.bind fun hp => calls_cliCallWriting trivial fun r => calls_chk s _ _

theorem calls_commit (h : Handle) :
    Within (CallStep cli CliCall.isMethod SameHandles) (Connection.commit cli h) :=
  calls_cliCall trivial fun _ => within_pure _

theorem calls_rollback (h : Handle) :
    Within (CallStep cli CliCall.isMethod SameHandles) (Connection.rollback cli h) :=
  calls_cliCall trivial fun _ => within_pure _

/-- Operations that are neither the construction nor the destruction of a connection. -/
def Op.OnStatements : Op → Prop
  | .connect .. | .destroyConnection _ => False
  | _ => True

variable (cli) in
/-- They change nothing beside the world, and that by calls of their own kind. -/
theorem statement_chain (s : Session σ) {op : Op} (hop : op.OnStatements) :
    ∃ w, (s.step cli op).base = { s.base with world := w } ∧
      ReflTransGen (CallStep cli CliCall.isStatement AnyChange) s.base.world w := by
  have hsame : ∃ w, s.base = { s.base with world := w } ∧
      ReflTransGen (CallStep cli CliCall.isStatement AnyChange) s.base.world w := ⟨_, rfl, .refl⟩
  have hrun : ∀ {α : Type} {m : Act (World σ) Exc α},
      Within (CallStep cli CliCall.isStatement AnyChange) m →
      ∃ w, ((onWorld m).runOn s.base).2 = { s.base with world := w } ∧
        ReflTransGen (CallStep cli CliCall.isStatement AnyChange) s.base.world w :=
    fun hm => ⟨_, congrArg Prod.snd (runOn_onWorld _ _), hm s.base.world⟩
  have hmethod : ∀ {α : Type} {m : Act (World σ) Exc α},
      Within (CallStep cli CliCall.isMethod SameHandles) m →
      ∃ w, ((onWorld m).runOn s.base).2 = { s.base with world := w } ∧
        ReflTransGen (CallStep cli CliCall.isStatement AnyChange) s.base.world w :=
    fun hm => hrun (hm.mono fun _ _ hstep => hstep.isStatement)
  unfold Session.step
  split
  · exact hsame
  · cases op with
    | connect => exact hop.elim
    | destroyConnection => exact hop.elim
    | copyConnection c source | moveConnection c source =>
        simp only [Session.perform, Session.duplicate]
        split <;> exact hsame
    | assignConnection c source | moveAssignConnection c source =>
        simp only [Session.perform, Session.assign]
        split <;> exact hsame
    | newStatement st c sql =>
        simp only [Session.perform, Session.newStatement]
        split
        · next h _ _ =>
          have hnew := hrun (calls_new st h sql trivial)
          split
          · next heq =>
            rw [heq] at hnew
            exact hnew
          · next heq =>
            rw [heq] at hnew
            exact hnew
        · exact hsame
    | copyStatement st source | moveStatement st source =>
        simp only [Session.perform, Session.duplicateStatement]
        split
        · exact hrun (calls_modifyHeap fun _ => trivial)
        · exact hsame
    | destroyStatement st =>
        simp only [Session.perform, Session.destroyStatement]
        split
        · have hdispose := hrun (calls_dispose st fun _ => trivial)
          split
          · next heq =>
            rw [heq] at hdispose
            exact hdispose
          · next heq =>
            rw [heq] at hdispose
            exact hdispose
        · exact hsame
    | execute st op =>
        simp only [Session.perform, Session.execute]
        split
        · exact hmethod (calls_run st op)
        · exact hsame
    | commit c =>
        simp only [Session.perform, Session.endTran]
        split
        · exact hmethod (calls_commit _)
        · exact hsame
    | rollback c =>
        simp only [Session.perform, Session.endTran]
        split
        · exact hmethod (calls_rollback _)
        · exact hsame

/-! ## Operations on connections -/

/-- The calls of an open before it fails. -/
def CliCall.opens : CliCall → Prop
  | .allocHandle .env _ | .allocHandle .dbc _ | .setEnvAttr _ | .connect .. | .setConnectAttr _ =>
      True
  | _ => False

/-- Such calls lead from one world to the other. -/
abbrev Opens (cli : Cli σ) : World σ → World σ → Prop :=
  ReflTransGen (CallStep cli CliCall.opens SameHandles)

section Open

variable {t u : ConnWorld σ} {database user password : Str}

theorem opens_issue {w : World σ} (h : Opens cli w t.world) {c : CliCall} (hc : c.opens) :
    Opens cli w (t.issue cli c).world := h.tail (.call hc)

theorem opens_withEnvironment (h : t.withEnvironment cli = .ok u) :
    Opens cli t.world u.world := by
  obtain ⟨-, rfl⟩ | ⟨-, -, rfl⟩ := withEnvironment_ok h
  · exact .refl
  · exact opens_issue (c := .allocHandle .env 0) .refl trivial

theorem opens_requesting (h : t.requesting cli = .ok u) : Opens cli t.world u.world := by
  obtain ⟨t₁, ht₁, -, rfl⟩ := requesting_ok h
  exact opens_issue (opens_withEnvironment ht₁) trivial

theorem opens_connected (h : t.requesting cli = .ok u) :
    Opens cli t.world (u.connected cli database user password).world := by
  have halloc : Opens cli t.world (u.allocated cli).world :=
    opens_issue (c := .allocHandle .dbc u.henv) (opens_requesting h) trivial
  refine opens_issue halloc ?_
  unfold connectCall
  split <;> trivial

theorem opens_fails {f : Failure σ} (h : Fails cli database user password t f) :
    Opens cli t.world f.reached.world := by
  cases h with
  | environment h0 hrc => exact opens_issue (c := .allocHandle .env 0) .refl trivial
  | version hu hrc => exact opens_issue (opens_withEnvironment hu) trivial
  | handle hu hrc => exact opens_issue (opens_requesting hu) trivial
  | connect hu ha hrc => exact opens_connected hu
  | autocommit hu ha hc hrc => exact opens_issue (opens_connected hu) trivial

theorem opens_opening {h : Handle} {t' : ConnWorld σ}
    (ho : t.opening cli database user password = .ok (h, t')) : Opens cli t.world t'.world := by
  obtain ⟨u, hu, -, -, -, -, rfl⟩ := opening_ok ho
  exact opens_issue (opens_connected hu) trivial

variable (cli) in
/-- The calls of a close before it frees the environment handle. -/
theorem extends_dropped (t : ConnWorld σ) (h : Handle) :
    Extends (fun c => c = .disconnect h ∨ c = .freeHandle .dbc h) t.world (t.dropped cli h).world := by
  by_cases hh : h = 0
  · subst hh
    exact .refl _
  · rw [dropped_of_ne cli t hh, issue_world, uncounted_world]
    exact ((Extends.refl t.world).issue cli (.inl rfl)).issue cli (.inr rfl)

end Open

end Dbgen3.Runtime
