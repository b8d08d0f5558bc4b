import Dbgen3.Generator.Independence

/-!
# Describing queries one after another

All queries are described on one connection. Where the driver restores the
database on a rollback, and every description rolls back what it executed, each
description finds the database the first one found.
-/

namespace Dbgen3.Generator

open Act Runs Text
open Dbgen3.Runtime (AnyChange CallStep Cli CliCall Handle Reply World newEvents nts sqlSuccess)
open Relation (ReflTransGen)

variable {σ D : Type}

/-- `db` is the database the connection sees, and `start` the one its transaction began with.
Only executing and ending the transaction change the former, and a rollback that succeeds
restores the latter. What the driver answers depends on the database alone. -/
structure Transactional (cli : Cli σ) (con : Handle) (db start : σ → D)
    (same : List (Handle × Handle) → σ → σ → Prop) : Prop extends Determined cli con same where
  start_eq : ∀ d c, Describes con c → start (cli.call d c).2 = start d
  quiet : ∀ d c, Quiet con c → db (cli.call d c).2 = db d
  restores : ∀ d, (cli.call d (.endTran con .rollback)).1.rc = sqlSuccess →
    db (cli.call d (.endTran con .rollback)).2 = start d
  attempts : ∀ d, db (cli.call d (.endTran con .rollback)).2 = start d ∨
    db (cli.call d (.endTran con .rollback)).2 = db d
  same_of_db : ∀ d d', db d = start d → db d' = start d' → start d = start d' → same [] d d'

section Runs

variable {cli : Cli σ} {con : Handle} {db start : σ → D}
  {same : List (Handle × Handle) → σ → σ → Prop}

/-! ## One description -/

/-- A chain of calls that rolls back what it executes leaves no change behind. -/
theorem idle_of_chain (hcli : Transactional cli con db start same) {w w' : World σ}
    (h : ReflTransGen (CallStep cli (Describes con) AnyChange) w w') :
    ∃ new, w'.trace = w.trace ++ new ∧ (RolledBack con new →
      db w.drv = start w.drv ∨ (∃ e ∈ new, Restores con e) → db w'.drv = start w'.drv) := by
  induction h using ReflTransGen.head_induction_on with
  | refl =>
      refine ⟨[], by simp, fun _ h => h.elim id ?_⟩
      rintro ⟨e, he, -⟩
      cases he
  | @head w w₁ hstep _ ih =>
      obtain ⟨new, hnew, hidle⟩ := ih
      obtain ⟨hdrv, htrace⟩ | ⟨c, hc, hdrv, e, htrace, hcall, hrc⟩ := hstep.drv_trace
      · rw [hdrv] at hidle
        exact ⟨new, by rw [hnew, htrace], hidle⟩
      have hstart := hcli.start_eq w.drv c hc
      refine ⟨e :: new, by rw [hnew, htrace, List.append_assoc, List.singleton_append], ?_⟩
      rintro ⟨hexec, hrolled⟩ h
      rw [hdrv, hstart] at hidle
      apply hidle hrolled
      have hlater : (∃ e' ∈ e :: new, Restores con e') →
          Restores con e ∨ ∃ e' ∈ new, Restores con e' := by simp
      cases hc with
      | quiet hquiet =>
          rw [hcli.quiet w.drv c hquiet]
          have hno : ¬ Restores con e := Quiet.not_restores (hcall ▸ hquiet)
          exact h.imp_right fun h => (hlater h).resolve_left hno
      | execDirect g sql => exact .inr (hexec (hcall ▸ trivial))
      | rollback =>
          by_cases hsuccess : e.rc = sqlSuccess
          · exact .inl (hcli.restores w.drv (hrc ▸ hsuccess))
          · rcases h with h | h
            · exact .inl ((hcli.attempts w.drv).elim id fun hsame => hsame.trans h)
            · exact .inr ((hlater h).resolve_left fun hr => hsuccess hr.2)

/-! ## Runs -/

variable (cli con) in
/-- The world after the description of one query, however it ends. -/
def describeStep (w : World σ) (r : GsqlQ) : World σ := (runOn (loadQSqlsetFromDb cli r con) w).2

variable (cli con) in
/-- The description of a query, where there is one. -/
def description (w : World σ) (r : GsqlQ) : Option GsqlQ :=
  (runOn (loadQSqlsetFromDb cli r con) w).1.toOption

theorem describeStep_start (hcli : Transactional cli con db start same) (w : World σ) (r : GsqlQ) :
    start (describeStep cli con w r).drv = start w.drv :=
  Runtime.view_eq_of_chain hcli.start_eq (calls_loadQSqlsetFromDb r w)

/-- A description that rolls back leaves no change behind. -/
theorem describeStep_idle (hcli : Transactional cli con db start same) {w : World σ} {r : GsqlQ}
    (hidle : db w.drv = start w.drv) (hr : RollsBack cli con r w.drv) :
    db (describeStep cli con w r).drv = start (describeStep cli con w r).drv := by
  obtain ⟨new, htrace, h⟩ := idle_of_chain hcli (calls_loadQSqlsetFromDb r w)
  have hrolled := (loadQSqlsetFromDb_rolledBack_iff cli con r w).mpr hr
  rw [newEvents, newEntries_eq htrace] at hrolled
  exact h hrolled (.inl hidle)

/-- Where no change is left over from one world to the other, a query is described alike. -/
theorem description_eq (hcli : Transactional cli con db start same) {w w' : World σ}
    (hw : db w.drv = start w.drv) (hw' : db w'.drv = start w'.drv)
    (hstart : start w'.drv = start w.drv) (r : GsqlQ) :
    description cli con w' r = description cli con w r := by
  have hpaired : Paired same [] w w' :=
    ⟨hcli.same_of_db _ _ hw hw' hstart.symm, List.forall_mem_nil _⟩
  exact (agree_loadQSqlsetFromDb hcli.toDetermined r w w' hpaired).1.toOption_eq.symm

/-- Every description rolls back what it executed, no description leaves a change behind, and
any query is described as it would have been before all the others. -/
structure KeepsTransactions (cli : Cli σ) (con : Handle) (db start : σ → D) (qs : List GsqlQ)
    (w : World σ) : Prop where
  rolledBack : AllSteps (describeStep cli con)
    (fun w r => RolledBack con (newEvents w (describeStep cli con w r))) qs w
  idle : ∀ pre post, qs = pre ++ post →
    db (pre.foldl (describeStep cli con) w).drv = start (pre.foldl (describeStep cli con) w).drv
  same : ∀ pre post r, qs = pre ++ post →
    description cli con (pre.foldl (describeStep cli con) w) r = description cli con w r

/-- This holds of a run exactly when each of its descriptions gets to a successful rollback
after it has executed a text. -/
theorem keepsTransactions_iff (hcli : Transactional cli con db start same) (qs : List GsqlQ)
    (w : World σ) (hidle : db w.drv = start w.drv) :
    KeepsTransactions cli con db start qs w ↔
      AllSteps (describeStep cli con) (fun w r => RollsBack cli con r w.drv) qs w := by
  have hsteps : AllSteps (describeStep cli con)
        (fun w r => RolledBack con (newEvents w (describeStep cli con w r))) qs w ↔
      AllSteps (describeStep cli con) (fun w r => RollsBack cli con r w.drv) qs w :=
    AllSteps.congr fun w r _ => loadQSqlsetFromDb_rolledBack_iff cli con r w
  constructor
  · exact fun h => hsteps.mp h.rolledBack
  · intro h
    have hinv {pre post : List GsqlQ} (hsplit : qs = pre ++ post) :
        db (pre.foldl (describeStep cli con) w).drv =
            start (pre.foldl (describeStep cli con) w).drv ∧
          start (pre.foldl (describeStep cli con) w).drv = start w.drv := by
      refine h.invariant (I := fun t => db t.drv = start t.drv ∧ start t.drv = start w.drv)
        (fun t r ht hr => ?_) ⟨hidle, rfl⟩ hsplit
      exact ⟨describeStep_idle hcli ht.1 hr, (describeStep_start hcli t r).trans ht.2⟩
    refine ⟨hsteps.mpr h, fun pre post hsplit => (hinv hsplit).1, fun pre post r hsplit => ?_⟩
    exact description_eq hcli hidle (hinv hsplit).1 (hinv hsplit).2 r

end Runs

/-! ## A driver with transactions -/

/-- A driver that keeps the texts executed on its database, and which statements have a
prepared text. -/
structure TranDriver where
  db : List Str := []
  start : List Str := []
  prepared : Handle → Bool := fun _ => false
  next : Handle := 2

namespace TranDriver

/-- The texts that can be prepared. -/
def understands (sql : Str) : Bool := "select ".toList.isPrefixOf sql

/-- Whether the statement has a prepared text. -/
def ready (d : TranDriver) (h : Handle) : Runtime.Ret :=
  if d.prepared h then sqlSuccess else Runtime.sqlError

/-- The answer to one call. Every prepared text has one column, as wide as the database. -/
def call (d : TranDriver) : CliCall → Reply × TranDriver
  | .allocHandle _ _ =>
      ({ rc := sqlSuccess, handle := d.next },
        { d with prepared := Function.update d.prepared d.next false, next := d.next + 1 })
  | .execDirect _ sql => ({ rc := sqlSuccess }, { d with db := d.db ++ [sql] })
  | .prepare h sql =>
      ({ rc := if understands sql then sqlSuccess else Runtime.sqlError },
        { d with prepared := Function.update d.prepared h (understands sql) })
  | .numParams h => ({ rc := d.ready h }, d)
  | .numResultCols h => ({ rc := d.ready h, count := 1 }, d)
  | .describeCol _ _ =>
      ({ rc := sqlSuccess
         dscr := { name := "C", type := 4, width := d.db.length } }, d)
  | .endTran _ .rollback => ({ rc := sqlSuccess }, { d with db := d.start })
  | .endTran _ .commit => ({ rc := sqlSuccess }, { d with start := d.db })
  | _ => ({ rc := sqlSuccess }, d)

def cli : Cli TranDriver := ⟨call, fun _ _ _ => []⟩

/-- The same database, and the same history of the paired handles. -/
structure Same (ps : List (Handle × Handle)) (d d' : TranDriver) : Prop where
  db : d'.db = d.db
  start : d'.start = d.start
  prepared : ∀ p ∈ ps, d'.prepared p.2 = d.prepared p.1
  used : ∀ p ∈ ps, p.1 < d.next ∧ p.2 < d'.next
  paired : ∀ p ∈ ps, ∀ q ∈ ps, p.1 = q.1 ↔ p.2 = q.2

variable {ps : List (Handle × Handle)} {d d' : TranDriver} {h h' : Handle}

theorem Same.prepare (hs : Same ps d d') (hh : (h, h') ∈ ps) (b : Bool) :
    Same ps { d with prepared := Function.update d.prepared h b }
      { d' with prepared := Function.update d'.prepared h' b } := by
  refine { hs with prepared := fun p hp => ?_ }
  have hpaired := hs.paired p hp (h, h') hh
  by_cases heq : p.1 = h
  · rw [heq, hpaired.mp heq]
    simp
  · simp [heq, mt hpaired.mpr heq, hs.prepared p hp]

theorem Same.alloc (hs : Same ps d d') :
    Same ((d.next, d'.next) :: ps) (call d (.allocHandle .stmt 1)).2
      (call d' (.allocHandle .stmt 1)).2 where
  db := hs.db
  start := hs.start
  prepared := by
    refine List.forall_mem_cons.mpr ⟨by simp [call], fun p hp => ?_⟩
    obtain ⟨hleft, hright⟩ := hs.used p hp
    simp [call, hleft.ne, hright.ne, hs.prepared p hp]
  used := by
    refine List.forall_mem_cons.mpr ⟨⟨Int.lt_succ _, Int.lt_succ _⟩, fun p hp => ?_⟩
    exact ⟨(hs.used p hp).1.trans (Int.lt_succ _), (hs.used p hp).2.trans (Int.lt_succ _)⟩
  paired := by
    have hnew : ∀ p ∈ ps, (p.1 = d.next ↔ p.2 = d'.next) := fun p hp =>
      iff_of_false (hs.used p hp).1.ne (hs.used p hp).2.ne
    refine List.forall_mem_cons.mpr ⟨?_, fun p hp => ?_⟩
    · exact List.forall_mem_cons.mpr ⟨by simp, fun p hp => by simpa [eq_comm] using hnew p hp⟩
    · exact List.forall_mem_cons.mpr ⟨hnew p hp, hs.paired p hp⟩

theorem determined : Determined cli 1 Same where
  call := by
    intro ps d d' h h' c hs hh
    cases c with
    | execDirect sql => exact ⟨⟨rfl, rfl, rfl⟩, { hs with db := congrArg (· ++ [sql]) hs.db }⟩
    | prepare sql => exact ⟨⟨rfl, rfl, rfl⟩, hs.prepare hh _⟩
    | count bt =>
        have hready : d'.ready h' = d.ready h := by rw [ready, ready, hs.prepared _ hh]
        cases bt <;> exact ⟨⟨hready, rfl, rfl⟩, hs⟩
    | describe bt ordinal =>
        have hdscr : (call d' (.describeCol h' ordinal)).1.dscr =
            (call d (.describeCol h ordinal)).1.dscr := by
          simp only [call, hs.db]
        cases bt
        · exact ⟨⟨rfl, rfl, rfl⟩, hs⟩
        · exact ⟨⟨rfl, rfl, hdscr⟩, hs⟩
  diag _ _ := rfl
  alloc hs := ⟨rfl, fun _ => hs.alloc, fun hrc => absurd rfl hrc⟩
  free hs := ⟨rfl, { hs with
    prepared := fun p hp => hs.prepared p (List.mem_cons_of_mem _ hp)
    used := fun p hp => hs.used p (List.mem_cons_of_mem _ hp)
    paired := fun p hp q hq =>
      hs.paired p (List.mem_cons_of_mem _ hp) q (List.mem_cons_of_mem _ hq) }⟩
  rollback hs := { hs with db := hs.start }

/-- This driver restores its database on a rollback. -/
theorem transactional : Transactional cli 1 db start Same where
  toDetermined := determined
  start_eq := by
    intro d c hc
    cases hc with
    | quiet h =>
        cases c with
        | endTran => exact False.elim h
        | _ => rfl
    | execDirect => rfl
    | rollback => rfl
  quiet := by
    intro d c h
    cases c with
    | execDirect => exact False.elim h
    | endTran => exact False.elim h
    | _ => rfl
  restores _ _ := rfl
  attempts _ := .inl rfl
  same_of_db := by
    intro d d' hd hd' hstart
    exact ⟨by rw [hd, hd', hstart], hstart.symm, by simp, by simp, by simp⟩

/-- A query with a prepare text. -/
def query (sqlPrep sql : Str) : GsqlQ where
  par := .new .par false
  res := .new .res false
  sqlSet :=
    { dbType := .sql
      empty := false
      sqlDscr := .new .sql (View.ofStr sql) (View.ofStr sqlPrep) }

end TranDriver

/-- Two queries that can be described. -/
theorem keepsTransactions_two :
    KeepsTransactions TranDriver.cli 1 TranDriver.db TranDriver.start
      [TranDriver.query "create table t (a int)" "select a from t",
        TranDriver.query "create table u (b int)" "select b from u"] (World.start {}) :=
  (keepsTransactions_iff TranDriver.transactional _ _ rfl).mpr
    ((allSteps_cons _ _ _ _).mpr ⟨by decide +kernel,
      (allSteps_cons _ _ _ _).mpr ⟨by decide +kernel, allSteps_nil _ _⟩⟩)

/-- A text that cannot be prepared ends the description with the table still there. -/
theorem not_keepsTransactions_unprepared :
    Transactional TranDriver.cli 1 TranDriver.db TranDriver.start TranDriver.Same ∧
      ¬ KeepsTransactions TranDriver.cli 1 TranDriver.db TranDriver.start
        [TranDriver.query "create table t (a int)" "selct a from t"] (World.start {}) := by
  refine ⟨TranDriver.transactional, fun h => ?_⟩
  have hidle := h.idle [TranDriver.query "create table t (a int)" "selct a from t"] [] rfl
  revert hidle
  decide +kernel

end Dbgen3.Generator
