import Dbgen3.Runtime.Utl

/-!
# What the set-up steps may do

A set-up step makes driver calls of its own kind on the statement's handle and
changes no object beyond the statement text, the return code and the binding
flags. Each function gets one footprint; the facts about traces, handles and
buffers follow from the footprint alone.
-/

namespace Dbgen3.Runtime

open Act Relation

variable {σ : Type} (cli : Cli σ)

/-- Two states of the objects that differ at most in statement texts, return
codes and binding flags. -/
structure Heap.Quiet (hp hp' : Heap) : Prop where
  bufs : ∀ b, hp'.bufs b = { hp.bufs b with bind := (hp'.bufs b).bind }
  handle : ∀ s, (hp'.stmts s).handle = (hp.stmts s).handle
  utls : ∀ u, hp'.utls u = { hp.utls u with rc := (hp'.utls u).rc }

namespace Heap.Quiet

theorem refl (hp : Heap) : hp.Quiet hp := ⟨fun _ => rfl, fun _ => rfl, fun _ => rfl⟩

theorem trans {hp₁ hp₂ hp₃ : Heap} (h : hp₁.Quiet hp₂) (h' : hp₂.Quiet hp₃) : hp₁.Quiet hp₃ where
  bufs b := by rw [h'.bufs b, h.bufs b]
  handle s := (h'.handle s).trans (h.handle s)
  utls u := by rw [h'.utls u, h.utls u]

theorem updUtl_rc (hp : Heap) (u : UtlId) (rc : Ret) :
    hp.Quiet (hp.updUtl u fun q => { q with rc := rc }) where
  bufs _ := rfl
  handle _ := rfl
  utls v := by
    by_cases hv : v = u
    · subst hv
      simp
    · simp [hv]

theorem updBuf_bind (hp : Heap) (b : BufId) (flag : Bool) :
    hp.Quiet (hp.updBuf b fun bf => { bf with bind := flag }) where
  bufs c := by
    by_cases hc : c = b
    · subst hc
      simp
    · simp [hc]
  handle _ := rfl
  utls _ := rfl

theorem updStmt (hp : Heap) (s : StmtId) (f : Statement → Statement)
    (hf : ∀ st, (f st).handle = st.handle) : hp.Quiet (hp.updStmt s f) where
  bufs _ := rfl
  handle t := by
    by_cases ht : t = s
    · subst ht
      simp [hf]
    · simp [ht]
  utls _ := rfl

variable {hp hp' : Heap} (h : hp.Quiet hp')
include h

theorem bt (b : BufId) : (hp'.bufs b).bt = (hp.bufs b).bt := by rw [h.bufs b]

theorem arrSize (b : BufId) : (hp'.bufs b).arrSize = (hp.bufs b).arrSize := by rw [h.bufs b]

theorem occupied (b : BufId) : (hp'.bufs b).occupied = (hp.bufs b).occupied := by rw [h.bufs b]

theorem processed (b : BufId) : (hp'.bufs b).processed = (hp.bufs b).processed := by
  rw [h.bufs b]

theorem attributes_length (b : BufId) :
    (hp'.bufs b).attributes.length = (hp.bufs b).attributes.length := by rw [h.bufs b]

theorem stmt (u : UtlId) : (hp'.utls u).s = (hp.utls u).s := by rw [h.utls u]

theorem parBuf (u : UtlId) : (hp'.utls u).parBuf = (hp.utls u).parBuf := by rw [h.utls u]

theorem resBuf (u : UtlId) : (hp'.utls u).resBuf = (hp.utls u).resBuf := by rw [h.utls u]

theorem stmtHandle (u : UtlId) :
    (hp'.stmts (hp'.utls u).s).handle = (hp.stmts (hp.utls u).s).handle := by
  rw [h.stmt u, h.handle]

end Heap.Quiet

/-- The calls a query object may make before it executes. -/
def CliCall.isSetup : CliCall → Prop
  | .setStmtAttr .. | .prepare .. | .bindParameter .. | .bindCol .. => True
  | _ => False

/-- One step of a set-up phase: a call of kind `P`, or a quiet change of the objects,
which sets a binding flag only where `F` allows it. -/
inductive QuietStep (P : CliCall → Prop) (F : Prop) : World σ → World σ → Prop
  | call {w : World σ} {c : CliCall} (h : P c) : QuietStep P F w (w.issue cli c)
  | heap {w : World σ} {hp : Heap} (h : w.heap.Quiet hp) (hf : F ∨ hp.bufs = w.heap.bufs) :
      QuietStep P F w { w with heap := hp }

/-- `w'` is reached from `w` by calls of kind `P` and quiet changes. -/
structure QuietReach (P : CliCall → Prop) (w w' : World σ) : Prop where
  heap : w.heap.Quiet w'.heap
  trace : ∃ new, w'.trace = w.trace ++ new ∧ ∀ e ∈ new, P e.call

variable {cli} {P : CliCall → Prop} {F : Prop}

/-- Every run of a quiet computation reaches its end by calls of its kind. -/
theorem quietReach {E α : Type} {m : Act (World σ) E α} (hm : Within (QuietStep cli P F) m)
    (w : World σ) : QuietReach P w (m.runOn w).2 := by
  refine hm.keeps (I := QuietReach P w) ?_ ⟨.refl _, [], by simp, by simp⟩
  rintro w₁ w₂ hstep ⟨hq, new, ht, hnew⟩
  cases hstep with
  | @call c hc =>
      refine ⟨hq, new ++ [⟨c, (cli.call w₁.drv c).1.rc, w₁.drv, w₁.heap⟩], by simp [ht], ?_⟩
      intro e he
      rcases List.mem_append.mp he with he | he
      · exact hnew e he
      · obtain rfl := List.mem_singleton.mp he
        exact hc
  | heap hc _ => exact ⟨hq.trans hc, new, ht, hnew⟩

/-- A view of the driver that no call of kind `P` changes is the same at the end. -/
theorem quiet_view_eq {E α β : Type} {m : Act (World σ) E α} (hm : Within (QuietStep cli P F) m)
    {view : σ → β} (hv : ∀ d c, P c → view (cli.call d c).2 = view d) (w : World σ) :
    view (m.runOn w).2.drv = view w.drv := by
  refine hm.view_eq (v := fun w => view w.drv) ?_ w
  intro w₁ w₂ hstep
  cases hstep with
  | call hc => exact hv _ _ hc
  | heap _ _ => rfl

/-- A computation that sets no binding flag leaves the buffers alone. -/
theorem quiet_bufs_eq {E α : Type} {m : Act (World σ) E α} (hm : Within (QuietStep cli P False) m)
    (w : World σ) : (m.runOn w).2.heap.bufs = w.heap.bufs := by
  refine hm.view_eq (v := fun w => w.heap.bufs) ?_ w
  intro w₁ w₂ hstep
  cases hstep with
  | call hc => rfl
  | heap _ hf => exact hf.resolve_left id

/-! ## Footprints of the building blocks -/

theorem within_modifyHeap {f : Heap → Heap} (hf : ∀ hp : Heap, hp.Quiet (f hp))
    (hb : ∀ hp : Heap, (f hp).bufs = hp.bufs) :
    Within (QuietStep cli P F) (modifyHeap f : Act (World σ) Exc PUnit) :=
  fun w => .single (.heap (hf w.heap) (.inr (hb w.heap)))

theorem within_getHeap : Within (QuietStep cli P F) (getHeap : Act (World σ) Exc Heap) :=
  within_of_fixed fun _ => rfl

theorem within_cliCall {c : CliCall} (hc : P c) : Within (QuietStep cli P F) (cliCall cli c) :=
  fun _ => .single (.call hc)

theorem within_cliCall_then {α : Type} {c : CliCall} (hc : P c)
    {f : Reply → Act (World σ) Exc α} (hf : ∀ r, Within (QuietStep cli P F) (f r)) :
    Within (QuietStep cli P F) (cliCall cli c >>= f) :=
  (within_cliCall hc).bind hf

/-- Reading the diagnostics leaves the world alone. -/
theorem chk_state (s : StmtId) (rc : Ret) (t : Bool) (w : World σ) :
    ((Statement.chk cli s rc t).runOn w).2 = w := by
  unfold Statement.chk
  simp only [runOn_bind, runOn_get]
  split
  · simp only [runOn_bind, runOn_fromResult]
    cases load cli w.drv .stmt (w.heap.stmts s).handle with
    | error e => rfl
    | ok errors => cases t <;> rfl
  · rfl

theorem within_chk (s : StmtId) (rc : Ret) (t : Bool) :
    Within (QuietStep cli P F) (Statement.chk cli s rc t) :=
  within_of_fixed (chk_state s rc t)

theorem handleReturnCode_state (s : StmtId) (rc : Ret) (codes : List Int) (w : World σ) :
    ((Statement.handleReturnCode cli s rc codes).runOn w).2 = w := by
  unfold Statement.handleReturnCode
  split
  · simp only [runOn_bind, runOn_get, runOn_fromResult]
    cases load cli w.drv .stmt (w.heap.stmts s).handle with
    | error e => rfl
    | ok errors => cases h : Statement.allowedCode errors codes <;> simp [h]
  · rfl

theorem within_setSql (s : StmtId) (sql : Str) :
    Within (QuietStep cli P F) (Statement.setSql s sql) := by
  apply within_modifyHeap
  · intro hp
    split
    · exact Heap.Quiet.updStmt hp s _ fun _ => rfl
    · exact .refl hp
  · intro hp
    split <;> rfl

theorem within_setAttr {s : StmtId} {attr : StmtAttr} {value : Int}
    (hP : ∀ h, P (.setStmtAttr h attr (.int value))) :
    Within (QuietStep cli P F) (Statement.setAttr cli s attr value) :=
  within_getHeap.bind fun _ => within_cliCall_then (hP _) fun _ => within_pure _

theorem within_setAttrL {s : StmtId} {attr : StmtAttr} {value : Nat}
    (hP : ∀ h, P (.setStmtAttr h attr (.int value))) :
    Within (QuietStep cli P F) (Statement.setAttrL cli s attr value) :=
  within_getHeap.bind fun _ => within_cliCall_then (hP _) fun _ => within_pure _

theorem within_ssaPtr {s : StmtId} {attr : StmtAttr} {value : AttrValue}
    (hP : ∀ h, P (.setStmtAttr h attr value)) :
    Within (QuietStep cli P F) (Statement.ssaPtr cli s attr value) :=
  within_getHeap.bind fun _ => within_cliCall_then (hP _) fun _ => within_pure _

theorem within_prepare {s : StmtId} {sql : Str} (hP : ∀ h sql, P (.prepare h sql)) :
    Within (QuietStep cli P F) (Statement.prepare cli s sql) := by
  have hgiven : Within (QuietStep cli P F) (Statement.prepareGiven cli s) := by
    refine within_getHeap.bind fun hp => Within.ite ?_ (within_pure _)
    refine within_cliCall_then (hP _ _) fun r => (within_chk s r.rc false).bind fun rc => ?_
    exact (within_modifyHeap (fun hp =>
      Heap.Quiet.updStmt hp s (fun st => { st with isPrepared := decide (rc = sqlSuccess) })
        fun _ => rfl) fun _ => rfl).bind fun _ => within_pure rc
  rw [Statement.prepare_eq]
  exact Within.ite ((within_setSql s sql).bind fun _ => hgiven) hgiven

theorem bindCall_isSetup {n : Nat} (a : AttrRoot n) (bt : BufType) (h : Handle) (ndx : Int)
    (data : DataAddr) : (a.bindCall bt h ndx data).isSetup := by
  cases bt <;> trivial

theorem within_bindFrom {n : Nat} {b : BufId} {bt : BufType} {h : Handle}
    (hP : ∀ (a : AttrRoot n) ndx data, P (a.bindCall bt h ndx data)) (els : List (AttrRoot n))
    (pos : Nat) : Within (QuietStep cli P F) (bindFrom cli b bt h pos els) := by
  induction els generalizing pos with
  | nil => exact within_pure _
  | cons el rest ih =>
      exact within_cliCall_then (hP _ _ _) fun r => Within.ite (within_pure _) (ih (pos + 1))

theorem within_bind {b : BufId} {h : Handle} (hF : F)
    (hP : ∀ {n : Nat} (a : AttrRoot n) bt ndx data, P (a.bindCall bt h ndx data)) :
    Within (QuietStep cli P F) (bind cli b h) := by
  refine within_getHeap.bind fun hp => Within.ite (within_pure _) ?_
  refine within_getHeap.bind fun hp => ?_
  refine (within_bindFrom (fun a => hP a _) _ 0).bind fun rc => Within.ite (within_pure _) ?_
  have hflag : Within (QuietStep cli P F) (modifyHeap (fun hp =>
      hp.updBuf b fun bf => { bf with bind := true }) : Act (World σ) Exc PUnit) :=
    fun w => .single (.heap (.updBuf_bind w.heap b true) (.inl hF))
  exact hflag.bind fun _ => within_pure rc

namespace Utl

theorem within_assignRc {u : UtlId} {step : Act (World σ) Exc Ret}
    (h : Within (QuietStep cli P F) step) : Within (QuietStep cli P F) (assignRc u step) :=
  h.bind fun rc => (within_modifyHeap (fun hp => .updUtl_rc hp u rc) fun _ => rfl).bind
    fun _ => within_pure rc

theorem within_assignIf {u : UtlId} {c : Prop} [Decidable c] {rc : Ret}
    {step : Act (World σ) Exc Ret} (h : Within (QuietStep cli P F) step) :
    Within (QuietStep cli P F) (assignIf u c rc step) :=
  Within.ite (within_assignRc h) (within_pure rc)

theorem within_ifOk {u : UtlId} {rc : Ret} {step : Act (World σ) Exc Ret}
    (h : Within (QuietStep cli P F) step) : Within (QuietStep cli P F) (ifOk u rc step) :=
  within_assignIf h

theorem within_setParPointers {u : UtlId} {s : StmtId} {p : BufId} {rc : Ret}
    (hP : ∀ h attr v, (∀ n, v ≠ .int n) → attr ≠ .rowsFetchedPtr → P (.setStmtAttr h attr v)) :
    Within (QuietStep cli P F) (setParPointers cli u s p rc) := by
  refine (within_ifOk (within_ssaPtr fun h => ?_)).bind fun rc =>
    within_ifOk (within_ssaPtr fun h => ?_)
  · exact hP h _ _ (by simp) (by decide)
  · exact hP h _ _ (by simp) (by decide)

theorem within_prepareParameterBuffer {u : UtlId}
    (hP : ∀ h attr v, attr = .paramsetSize ∨ (∀ n, v ≠ .int n) ∧ attr ≠ .rowsFetchedPtr →
      P (.setStmtAttr h attr v)) :
    Within (QuietStep cli P F) (prepareParameterBuffer cli u) := by
  refine (within_assignRc (within_pure _)).bind fun rc => within_getHeap.bind fun hp => ?_
  cases (hp.utls u).parBuf with
  | none => exact within_pure _
  | some p =>
      refine (within_assignIf (within_setAttr fun h => ?_)).bind fun rc => ?_
      · exact hP h _ _ (.inl rfl)
      · exact within_setParPointers fun h a v hv ha => hP h a v (.inr ⟨hv, ha⟩)

theorem within_prepareResultBuffer {u : UtlId}
    (hP : ∀ h attr v, attr = .rowArraySize ∨ attr = .rowsFetchedPtr →
      P (.setStmtAttr h attr v)) :
    Within (QuietStep cli P F) (prepareResultBuffer cli u) := by
  refine (within_assignRc (within_pure _)).bind fun rc => within_getHeap.bind fun hp => ?_
  cases (hp.utls u).resBuf with
  | none => exact within_pure _
  | some r =>
      refine (within_assignIf (within_setAttrL fun h => hP h _ _ (.inl rfl))).bind fun rc => ?_
      exact within_ifOk (within_ssaPtr fun h => hP h _ _ (.inr rfl))

theorem within_bindSlot {u : UtlId} {slot : Utl → Option BufId} {rc : Ret} (hF : F)
    (hP : ∀ {n : Nat} (a : AttrRoot n) bt h ndx data, P (a.bindCall bt h ndx data)) :
    Within (QuietStep cli P F) (bindSlot cli u slot rc) := by
  refine within_getHeap.bind fun hp => ?_
  cases slot (hp.utls u) with
  | none => exact within_pure _
  | some b => exact within_ifOk (within_bind hF fun a bt ndx data => hP a bt _ ndx data)

theorem within_prepareAll {u : UtlId} {sql : Str}
    (hattr : ∀ h attr value, P (.setStmtAttr h attr value)) (hprep : ∀ h sql, P (.prepare h sql)) :
    Within (QuietStep cli P F) (prepareAll cli u sql) := by
  refine within_getHeap.bind fun hp => (within_assignRc (within_pure _)).bind fun rc => ?_
  refine (within_ifOk (within_prepareParameterBuffer fun h a v _ => hattr h a v)).bind fun rc => ?_
  refine (within_ifOk (within_prepareResultBuffer fun h a v _ => hattr h a v)).bind fun rc => ?_
  exact within_ifOk (within_prepare hprep)

/-- The set-up phase of `exec` only sets attributes, prepares and binds. -/
theorem within_setup (u : UtlId) (sql : Str) :
    Within (QuietStep cli CliCall.isSetup True) (setup cli u sql) := by
  refine (within_prepareAll (fun _ _ _ => trivial) fun _ _ => trivial).bind fun rc => ?_
  refine (within_bindSlot trivial fun a bt h ndx data => bindCall_isSetup a bt h ndx data).bind
    fun rc => ?_
  exact within_bindSlot trivial fun a bt h ndx data => bindCall_isSetup a bt h ndx data

end Utl

end Dbgen3.Runtime
