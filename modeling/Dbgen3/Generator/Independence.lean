import Dbgen3.Generator.Rollback
import Dbgen3.Lib.Lockstep

/-!
# Two descriptions of one query

What a driver answers to the calls on a statement depends on the database and on
the earlier calls on that statement. Two descriptions of one query then run in
lockstep, although the handles differ, and end with the same description.
-/

namespace Dbgen3.Generator

open Act Text
open Dbgen3.Runtime (BufType Cli CliCall Handle Heap Reply Ret Statement StmtId World cliCall
  cliCallWriting getHeap modifyHeap nts readable runOn_cliCall runOn_cliCallWriting runOn_getHeap
  runOn_modifyHeap sqlSuccess)

variable {σ : Type}

/-! ## Drivers -/

/-- The calls on a statement that a description makes. -/
inductive StmtCall
  | execDirect (sql : Str)
  | prepare (sql : Str)
  | count (bt : BufType)
  | describe (bt : BufType) (ordinal : Int)

def StmtCall.on (h : Handle) : StmtCall → CliCall
  | .execDirect sql => .execDirect h sql
  | .prepare sql => .prepare h sql
  | .count bt => countCall bt h
  | .describe bt ordinal => describeCall bt h ordinal

/-- Answers that are alike in all that a description reads. -/
structure SameAnswer (a a' : Reply) : Prop where
  rc : a'.rc = a.rc
  count : a'.count = a.count
  dscr : a'.dscr = a.dscr

/-- `same ps d d'`: the driver sees the same database in both states, and the same history of
the statements whose handles are paired. It then answers alike. -/
structure Determined (cli : Cli σ) (con : Handle) (same : List (Handle × Handle) → σ → σ → Prop) :
    Prop where
  call : ∀ {ps d d' h h'} (c : StmtCall), same ps d d' → (h, h') ∈ ps →
    SameAnswer (cli.call d (c.on h)).1 (cli.call d' (c.on h')).1 ∧
      same ps (cli.call d (c.on h)).2 (cli.call d' (c.on h')).2
  diag : ∀ {ps d d' h h'}, same ps d d' → (h, h') ∈ ps →
    readable (cli.diag d' .stmt h') = readable (cli.diag d .stmt h)
  alloc : ∀ {ps d d'}, same ps d d' →
    let a := cli.call d (.allocHandle .stmt con)
    let a' := cli.call d' (.allocHandle .stmt con)
    a'.1.rc = a.1.rc ∧ (a.1.rc = sqlSuccess → same ((a.1.handle, a'.1.handle) :: ps) a.2 a'.2) ∧
      (a.1.rc ≠ sqlSuccess → same ps a.2 a'.2)
  free : ∀ {ps d d' h h'}, same ((h, h') :: ps) d d' →
    (cli.call d' (.freeHandle .stmt h')).1.rc = (cli.call d (.freeHandle .stmt h)).1.rc ∧
      same ps (cli.call d (.freeHandle .stmt h)).2 (cli.call d' (.freeHandle .stmt h')).2
  rollback : ∀ {ps d d'}, same ps d d' →
    same ps (cli.call d (.endTran con .rollback)).2 (cli.call d' (.endTran con .rollback)).2

/-! ## Paired worlds -/

/-- A statement and its handles in two worlds. -/
structure StmtPair where
  stmt : StmtId
  left : Handle
  right : Handle

def StmtPair.handles (i : StmtPair) : Handle × Handle := (i.left, i.right)

/-- The statement has its handles, and the same text, in both worlds. -/
structure StmtPair.SameText (i : StmtPair) (st st' : Statement) : Prop where
  left : st.handle = i.left
  right : st'.handle = i.right
  sql : st'.sql = st.sql
  isPrepared : st'.isPrepared = st.isPrepared

def SameTexts (ids : List StmtPair) (hp hp' : Heap) : Prop :=
  ∀ i ∈ ids, i.SameText (hp.stmts i.stmt) (hp'.stmts i.stmt)

/-- The drivers and the listed statements are alike. -/
structure Paired (same : List (Handle × Handle) → σ → σ → Prop) (ids : List StmtPair)
    (w w' : World σ) : Prop where
  drv : same (ids.map StmtPair.handles) w.drv w'.drv
  texts : SameTexts ids w.heap w'.heap

section Lockstep

variable {cli : Cli σ} {con : Handle} {same : List (Handle × Handle) → σ → σ → Prop}
  {ids : List StmtPair} {i : StmtPair}

theorem mem_handles (hi : i ∈ ids) : (i.left, i.right) ∈ ids.map StmtPair.handles :=
  List.mem_map_of_mem hi

theorem agree_getHeap_bind {α : Type} {V : α → α → Prop} {Q : World σ → World σ → Prop}
    {f f' : Heap → Act (World σ) Exc α}
    (hf : ∀ hp hp', SameTexts ids hp hp' → Agree (Paired same ids) V Q (f hp) (f' hp')) :
    Agree (Paired same ids) V Q (getHeap >>= f) (getHeap >>= f') :=
  fun w w' hw => hf w.heap w'.heap hw.texts w w' hw

theorem agree_modifyHeap {f f' : Heap → Heap}
    (hf : ∀ hp hp', SameTexts ids hp hp' → SameTexts ids (f hp) (f' hp')) :
    Agree (Paired same ids) (· = ·) (Paired same ids)
      (modifyHeap f : Act (World σ) Exc PUnit) (modifyHeap f') :=
  fun _ _ hw => ⟨.ok rfl, hw.drv, hf _ _ hw.texts⟩

theorem agree_throwStmtError {α : Type} {V : α → α → Prop} (h h' : Handle) :
    Agree (Paired same ids) V (Paired same ids) (throwStmtError cli h : Act (World σ) Exc α)
      (throwStmtError cli h') := by
  intro w w' hw
  obtain ⟨e, he⟩ := @runOn_throwStmtError σ cli α h w
  obtain ⟨e', he'⟩ := @runOn_throwStmtError σ cli α h' w'
  rw [he, he']
  exact ⟨.error e e', hw⟩

theorem agree_throwOnError {rc rc' : Ret} (hrc : rc' = rc) (h h' : Handle)
    (type : Runtime.HandleType) (msg msg' : Str) :
    Agree (Paired same ids) (· = ·) (Paired same ids) (Runtime.throwOnError cli rc h type msg)
      (Runtime.throwOnError cli rc' h' type msg') := by
  subst hrc
  intro w w' hw
  by_cases hsuccess : rc' = sqlSuccess
  · rw [Runtime.runOn_throwOnError_success cli hsuccess,
      Runtime.runOn_throwOnError_success cli hsuccess]
    exact ⟨.ok rfl, hw⟩
  · rw [Runtime.runOn_throwOnError_failure cli hsuccess,
      Runtime.runOn_throwOnError_failure cli hsuccess]
    exact ⟨.error _ _, hw⟩

/-- One text given to a statement in both worlds. -/
theorem agree_setSql (s : StmtId) (sql : Str) :
    Agree (Paired same ids) (· = ·) (Paired same ids)
      (Runtime.Statement.setSql s sql : Act (World σ) Exc PUnit)
      (Runtime.Statement.setSql s sql) := by
  apply agree_modifyHeap
  intro hp hp' hhp i hi
  obtain ⟨hleft, hright, hsql, hprepared⟩ := hhp i hi
  by_cases hs : i.stmt = s
  · subst hs
    by_cases hnew : (hp.stmts i.stmt).sql ≠ sql
    · rw [if_pos hnew, if_pos (by rwa [hsql])]
      constructor <;> simp [hleft, hright]
    · rw [if_neg hnew, if_neg (by rwa [hsql])]
      exact ⟨hleft, hright, hsql, hprepared⟩
  · have hkeep : ∀ hp : Heap, (if (hp.stmts s).sql ≠ sql then
        hp.updStmt s fun st => { st with sql := sql, isPrepared := false }
      else hp).stmts i.stmt = hp.stmts i.stmt := by
      intro hp
      split
      · rw [Runtime.Heap.updStmt_ne _ _ _ hs]
      · rfl
    rw [hkeep, hkeep]
    exact ⟨hleft, hright, hsql, hprepared⟩

variable (hcli : Determined cli con same)
include hcli

theorem agree_cliCall (hi : i ∈ ids) (c : StmtCall) :
    Agree (Paired same ids) SameAnswer (Paired same ids) (cliCall cli (c.on i.left))
      (cliCall cli (c.on i.right)) := by
  intro w w' hw
  obtain ⟨hanswer, hsame⟩ := hcli.call c hw.drv (mem_handles hi)
  rw [runOn_cliCall, runOn_cliCall]
  exact ⟨.ok hanswer, hsame, hw.texts⟩

theorem agree_cliCallWriting (hi : i ∈ ids) (c : StmtCall) :
    Agree (Paired same ids) SameAnswer (Paired same ids) (cliCallWriting cli (c.on i.left))
      (cliCallWriting cli (c.on i.right)) := by
  intro w w' hw
  obtain ⟨hanswer, hsame⟩ := hcli.call c hw.drv (mem_handles hi)
  rw [runOn_cliCallWriting, runOn_cliCallWriting]
  refine ⟨.ok hanswer, hsame, fun j hj => ?_⟩
  rw [Runtime.issueWriting_stmts, Runtime.issueWriting_stmts]
  exact hw.texts j hj

theorem agree_chk (hi : i ∈ ids) {rc rc' : Ret} (hrc : rc' = rc) (shouldThrow : Bool) :
    Agree (Paired same ids) (· = ·) (Paired same ids)
      (Runtime.Statement.chk cli i.stmt rc shouldThrow)
      (Runtime.Statement.chk cli i.stmt rc' shouldThrow) := by
  subst hrc
  intro w w' hw
  have hread := hcli.diag hw.drv (mem_handles hi)
  rw [← (hw.texts i hi).left, ← (hw.texts i hi).right] at hread
  have hpasses : Runtime.Statement.Passes cli w'.drv (w'.heap.stmts i.stmt).handle rc' shouldThrow ↔
      Runtime.Statement.Passes cli w.drv (w.heap.stmts i.stmt).handle rc' shouldThrow := by
    rw [Runtime.Statement.Passes, Runtime.Statement.Passes, hread]
  obtain ⟨hpass, hrun⟩ | ⟨hnot, e, hrun⟩ :=
      @Runtime.Statement.chk_cases σ cli i.stmt rc' shouldThrow w <;>
    obtain ⟨hpass', hrun'⟩ | ⟨hnot', e', hrun'⟩ :=
      @Runtime.Statement.chk_cases σ cli i.stmt rc' shouldThrow w' <;>
    rw [hrun, hrun']
  · exact ⟨.ok rfl, hw⟩
  · exact absurd (hpasses.mpr hpass) hnot'
  · exact absurd (hpasses.mp hpass') hnot
  · exact ⟨.error e e', hw⟩

/-! ## Statements in lockstep -/

theorem agree_execDirect (hi : i ∈ ids) (sql : Str) (shouldThrow : Bool) :
    Agree (Paired same ids) (· = ·) (Paired same ids)
      (Runtime.Statement.execDirect cli i.stmt sql shouldThrow)
      (Runtime.Statement.execDirect cli i.stmt sql shouldThrow) := by
  have hgiven : Agree (Paired same ids) (· = ·) (Paired same ids)
      (Runtime.Statement.execGiven cli i.stmt shouldThrow)
      (Runtime.Statement.execGiven cli i.stmt shouldThrow) := by
    apply agree_getHeap_bind
    intro hp hp' hhp
    obtain ⟨hleft, hright, hsql, -⟩ := hhp i hi
    dsimp only
    rw [hleft, hright, hsql]
    apply (agree_cliCallWriting hcli hi (.execDirect (nts (hp.stmts i.stmt).sql))).bind
    exact fun reply reply' hreply => agree_chk hcli hi hreply.rc shouldThrow
  rw [Runtime.Statement.execDirect_eq]
  exact Agree.ite Iff.rfl ((agree_setSql i.stmt sql).bind fun _ _ _ => hgiven) hgiven

theorem agree_prepare (hi : i ∈ ids) (sql : Str) :
    Agree (Paired same ids) (· = ·) (Paired same ids) (Runtime.Statement.prepare cli i.stmt sql)
      (Runtime.Statement.prepare cli i.stmt sql) := by
  have hset (rc : Ret) : Agree (Paired same ids) (· = ·) (Paired same ids)
      (modifyHeap fun hp =>
        hp.updStmt i.stmt fun st => { st with isPrepared := decide (rc = sqlSuccess) } :
        Act (World σ) Exc PUnit)
      (modifyHeap fun hp =>
        hp.updStmt i.stmt fun st => { st with isPrepared := decide (rc = sqlSuccess) }) := by
    apply agree_modifyHeap
    intro hp hp' hhp j hj
    obtain ⟨hleft, hright, hsql, hprepared⟩ := hhp j hj
    by_cases hs : j.stmt = i.stmt
    · rw [hs] at hleft hright hsql
      rw [hs]
      constructor <;> simp [hleft, hright, hsql]
    · rw [Heap.updStmt_ne _ _ _ hs, Heap.updStmt_ne _ _ _ hs]
      exact ⟨hleft, hright, hsql, hprepared⟩
  have hgiven : Agree (Paired same ids) (· = ·) (Paired same ids)
      (Runtime.Statement.prepareGiven cli i.stmt) (Runtime.Statement.prepareGiven cli i.stmt) := by
    apply agree_getHeap_bind
    intro hp hp' hhp
    obtain ⟨hleft, hright, hsql, hprepared⟩ := hhp i hi
    dsimp only
    rw [hleft, hright, hsql, hprepared]
    refine Agree.ite Iff.rfl ?_ (agree_pure rfl)
    apply (agree_cliCall hcli hi (.prepare (nts (hp.stmts i.stmt).sql))).bind
    intro reply reply' hreply
    apply (agree_chk hcli hi hreply.rc false).bind
    rintro rc _ rfl
    exact (hset rc).bind fun _ _ _ => agree_pure rfl
  rw [Runtime.Statement.prepare_eq]
  exact Agree.ite Iff.rfl ((agree_setSql i.stmt sql).bind fun _ _ _ => hgiven) hgiven

theorem agree_rollback :
    Agree (Paired same ids) (fun _ _ => True) (Paired same ids)
      (Runtime.Statement.rollback cli con) (Runtime.Statement.rollback cli con) :=
  fun _ _ hw => ⟨.ok trivial, hcli.rollback hw.drv, hw.texts⟩

theorem agree_dispose (s : StmtId) (h h' : Handle) :
    Agree (Paired same (⟨s, h, h'⟩ :: ids)) (· = ·) (Paired same ids)
      (Runtime.Statement.dispose cli s) (Runtime.Statement.dispose cli s) := by
  apply agree_getHeap_bind
  intro hp hp' hhp
  obtain ⟨hleft, hright, -, -⟩ := hhp ⟨s, h, h'⟩ List.mem_cons_self
  dsimp only at hleft hright ⊢
  rw [hleft, hright]
  refine Agree.orElse ?_ fun e e' => agree_throw Exc.terminated Exc.terminated
  have hfree : Agree (Paired same (⟨s, h, h'⟩ :: ids)) (fun a a' => a'.rc = a.rc)
      (Paired same ids) (cliCall cli (.freeHandle .stmt h)) (cliCall cli (.freeHandle .stmt h')) := by
    intro w w' hw
    obtain ⟨hrc, hsame⟩ := hcli.free hw.drv
    rw [runOn_cliCall, runOn_cliCall]
    exact ⟨.ok hrc, hsame, fun j hj => hw.texts j (List.mem_cons_of_mem _ hj)⟩
  exact hfree.bind fun reply reply' hrc => agree_throwOnError hrc h h' .stmt _ _

/-- A local statement gets a handle in each world, and they are paired in its block. -/
theorem agree_withLocal {α : Type} {V : α → α → Prop} {s : StmtId} (hs : ∀ i ∈ ids, i.stmt ≠ s)
    {body body' : Act (World σ) Exc α}
    (hbody : ∀ h h', Agree (Paired same (⟨s, h, h'⟩ :: ids)) V (Paired same (⟨s, h, h'⟩ :: ids))
      body body') :
    Agree (Paired same ids) V (Paired same ids) (Runtime.Statement.withLocal cli s con body)
      (Runtime.Statement.withLocal cli s con body') := by
  intro w w' hw
  obtain ⟨hrc, hsuccess, hfailure⟩ := hcli.alloc hw.drv
  unfold Runtime.Statement.withLocal
  rw [runOn_bind, runOn_bind, Runtime.runOn_new, Runtime.runOn_new, hrc]
  by_cases hok : (cli.call w.drv (.allocHandle .stmt con)).1.rc = sqlSuccess
  · rw [if_pos hok, if_pos hok]
    have hpaired : Paired same (⟨s, (cli.call w.drv (.allocHandle .stmt con)).1.handle,
        (cli.call w'.drv (.allocHandle .stmt con)).1.handle⟩ :: ids) (constructed cli con s w)
        (constructed cli con s w') := by
      refine ⟨hsuccess hok, List.forall_mem_cons.mpr ⟨?_, fun j hj => ?_⟩⟩
      · rw [constructed_same, constructed_same]
        exact ⟨rfl, rfl, rfl, rfl⟩
      · rw [constructed_ne (hs j hj), constructed_ne (hs j hj)]
        exact hw.texts j hj
    exact (hbody _ _).withCleanup (agree_dispose hcli s _ _) _ _ hpaired
  · rw [if_neg hok, if_neg hok]
    exact ⟨.error _ _, hfailure hok, hw.texts⟩

/-! ## Descriptions in lockstep -/

theorem agree_loadFldDscr (hi : i ∈ ids) (defName : Str) (bt : BufType) (ndx : Nat) :
    Agree (Paired same ids) (· = ·) (Paired same ids) (loadFldDscr cli defName bt i.left ndx)
      (loadFldDscr cli defName bt i.right ndx) := by
  apply (agree_cliCall hcli hi (.describe bt (fieldOrdinal ndx))).bind
  intro reply reply' hreply
  refine Agree.ite (by rw [hreply.rc]) ?_ (agree_throwStmtError _ _)
  rw [hreply.dscr]
  exact agree_fromResult (.refl _)

theorem agree_fetchFields (hi : i ∈ ids) (names : List Str) (bt : BufType) (n cnt : Nat) :
    Agree (Paired same ids) (· = ·) (Paired same ids) (fetchFields cli names bt i.left n cnt)
      (fetchFields cli names bt i.right n cnt) := by
  induction n generalizing cnt with
  | zero => exact agree_pure rfl
  | succ n ih =>
      apply (agree_loadFldDscr hcli hi (names.getD cnt []) bt cnt).bind
      rintro fld _ rfl
      apply (ih (cnt + 1)).bind
      rintro flds _ rfl
      exact agree_pure rfl

theorem agree_describeBuf (hi : i ∈ ids) (hm : i.stmt = stmtM) (b : GsqlQbufDscr) :
    Agree (Paired same ids) (· = ·) (Paired same ids) (describeBuf cli b) (describeBuf cli b) := by
  have hfetch : Agree (Paired same ids) (· = ·) (Paired same ids)
      (fetchParamDscr cli b.names b.type stmtM) (fetchParamDscr cli b.names b.type stmtM) := by
    apply agree_getHeap_bind
    intro hp hp' hhp
    obtain ⟨hleft, hright, -, -⟩ := hhp i hi
    rw [hm] at hleft hright
    dsimp only
    rw [hleft, hright]
    apply (agree_cliCall hcli hi (.count b.type)).bind
    intro reply reply' hreply
    refine Agree.ite (by rw [hreply.rc]) ?_ (agree_throwStmtError _ _)
    rw [hreply.count]
    exact agree_fetchFields hcli hi b.names b.type _ 0
  apply hfetch.bind
  rintro flds _ rfl
  exact agree_fromResult (.refl _)

theorem agree_describeQuery {j : StmtPair} (hi : i ∈ ids) (hm : i.stmt = stmtM) (hj : j ∈ ids)
    (hp : j.stmt = stmtP) (r : GsqlQ) :
    Agree (Paired same ids) (· = ·) (Paired same ids) (describeQuery cli r con)
      (describeQuery cli r con) := by
  have hexec : Agree (Paired same ids) (· = ·) (Paired same ids) (executePrep cli r.sqlPrep)
      (executePrep cli r.sqlPrep) := by
    refine Agree.ite Iff.rfl ?_ (agree_pure rfl)
    rw [← hp]
    exact agree_execDirect hcli hj r.sqlPrep true
  have hprepare := agree_prepare hcli hi r.sql
  rw [hm] at hprepare
  apply hexec.bind
  intro _ _ _
  apply hprepare.bind
  intro _ _ _
  apply (agree_describeBuf hcli hi hm r.par).bind
  rintro par _ rfl
  apply (agree_describeBuf hcli hi hm r.res).bind
  rintro res _ rfl
  exact (agree_rollback hcli).bind fun _ _ _ => (agree_rollback hcli).bind fun _ _ _ =>
    agree_pure rfl

/-- One query described from two worlds whose drivers see the same database. -/
theorem agree_loadQSqlsetFromDb (r : GsqlQ) :
    Agree (Paired same []) (· = ·) (Paired same []) (loadQSqlsetFromDb cli r con)
      (loadQSqlsetFromDb cli r con) := by
  refine Agree.ite Iff.rfl ?_ (agree_pure rfl)
  apply agree_withLocal hcli (by simp)
  intro hm hm'
  apply agree_withLocal hcli (by simp [stmtM, stmtP])
  intro hp hp'
  exact agree_describeQuery hcli (i := ⟨stmtM, hm, hm'⟩) (j := ⟨stmtP, hp, hp'⟩) (by simp) rfl
    (by simp) rfl r

end Lockstep

end Dbgen3.Generator
