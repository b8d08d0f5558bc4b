import Dbgen3.Runtime.EnvRelease
import Dbgen3.Runtime.Settled

/-!
# The counter over a whole program

The live connections of a program that copies none are the allocated connection
handles. Every operation keeps this as long as a connection is idle when it is
destroyed, and the first one that is not breaks the count.
-/

namespace Dbgen3.Runtime

open Act ConnWorld Runs
open Relation (ReflTransGen)

variable {σ : Type} {cli : Cli σ} {view : σ → Books} {active : σ → Handle → Prop}

/-- Operations that make no second object for a connection handle. -/
def Op.NoCopy : Op → Prop
  | .copyConnection .. | .moveConnection .. | .assignConnection .. | .moveAssignConnection .. =>
      False
  | _ => True

namespace Session

/-- The counter is the number of allocated connection handles, and an environment handle is
allocated exactly when that number is positive. -/
def Counted (view : σ → Books) (s : Session σ) : Prop :=
  (s.base.books view).Counted s.base.henvRefCnt

/-- An operation of the programs in question: no connection is copied, and a constructor that
fails raises an `error_exception`. -/
structure Regular (cli : Cli σ) (s : Session σ) (op : Op) : Prop where
  noCopy : op.NoCopy
  raises : ∀ c database user password, op = .connect c database user password →
    s.conns c = none → ∀ e t,
      (Connection.openConnection cli database user password).runOn s.base = (.error e, t) →
        ∃ what, e = .errorException what

/-- The connection is idle when it is destroyed, and a failing allocation hands out no handle. -/
def ClosesIdle (cli : Cli σ) (active : σ → Handle → Prop) (s : Session σ) : Op → Prop
  | .destroyConnection c => ∀ h, s.conns c = some h → ¬ active s.base.world.drv h
  | .connect c database user password => s.conns c = none → ∀ f : Failure σ,
      s.base.opening cli database user password = .error f → f.Clean s.base
  | _ => True

/-- The live connections are the allocated connection handles. -/
structure Tidy (view : σ → Books) (s : Session σ) : Prop where
  settled : (s.base.books view).Settled s.base.henvRefCnt s.base.henv
  live : ∀ x, x ∈ (s.base.books view).dbcs ↔ ∃ c, s.conns c = some x
  inj : ∀ c c' x, s.conns c = some x → s.conns c' = some x → c = c'

variable {s : Session σ}

/-- Nothing is allocated when the program starts. -/
theorem tidy_start {d : σ} (hd : view d = {}) : Tidy view { base := .start d } := by
  have hb : (ConnWorld.start d).books view = {} := hd
  refine ⟨⟨⟨?_, ?_, ?_⟩, ?_, ?_⟩, ?_, ?_⟩
  · rw [hb]
    rfl
  · rw [hb]
    simp
  · rw [hb]
    simp
  · rw [hb]
    rfl
  · rw [hb]
  · intro x
    change x ∈ ((ConnWorld.start d).books view).dbcs ↔ _
    rw [hb]
    simp
  · simp

/-! ## Statements and transactions -/

/-- They change none of the components that matter here. -/
theorem books_of_chain (hk : Keeps cli view) {w w' : World σ}
    (h : ReflTransGen (CallStep cli CliCall.isStatement AnyChange) w w') :
    ∃ stmts dbcOf, view w'.drv = { view w.drv with stmts := stmts, dbcOf := dbcOf } := by
  have hview := view_eq_of_chain
    (v := fun d => ((view d).envs, (view d).dbcs, (view d).connected, (view d).envOf)) ?_ h
  · obtain ⟨he, hd, hc, ho⟩ : _ ∧ _ ∧ _ ∧ _ := by simpa using hview
    exact ⟨(view w'.drv).stmts, (view w'.drv).dbcOf, Books.ext he hd rfl hc ho rfl⟩
  · intro d c hc
    simp only [hk.records]
    apply Books.record_component fun b => (b.envs, b.dbcs, b.connected, b.envOf)
    intro handle
    cases c with
    | allocHandle type input => cases type <;> first | rfl | exact hc.elim
    | freeHandle type h => cases type <;> first | rfl | exact hc.elim
    | connect => exact hc.elim
    | disconnect => exact hc.elim
    | _ => rfl

theorem conns_of_noCopy {op : Op} (hop : op.OnStatements) (hno : op.NoCopy) :
    (s.step cli op).conns = s.conns := by
  unfold step
  split
  · rfl
  · cases op with
    | connect => exact hop.elim
    | destroyConnection => exact hop.elim
    | copyConnection => exact hno.elim
    | moveConnection => exact hno.elim
    | assignConnection => exact hno.elim
    | moveAssignConnection => exact hno.elim
    | newStatement st c sql =>
        simp only [perform, newStatement]
        split
        · split <;> rfl
        · rfl
    | copyStatement st source | moveStatement st source =>
        simp only [perform, duplicateStatement]
        split <;> rfl
    | destroyStatement st =>
        simp only [perform, destroyStatement]
        split
        · split <;> rfl
        · rfl
    | execute st op =>
        simp only [perform, execute]
        split <;> rfl
    | commit c | rollback c =>
        simp only [perform, endTran]
        split <;> rfl

theorem tidy_statement (hk : Keeps cli view) (h : s.Tidy view) {op : Op} (hop : op.OnStatements)
    (hno : op.NoCopy) : (s.step cli op).Tidy view := by
  obtain ⟨w, hbase, hchain⟩ := statement_chain cli s hop
  obtain ⟨stmts, dbcOf, hbooks⟩ := books_of_chain hk hchain
  have hb : (s.step cli op).base.books view =
      { s.base.books view with stmts := stmts, dbcOf := dbcOf } := by
    rw [hbase]
    exact hbooks
  have hconns : (s.step cli op).conns = s.conns := conns_of_noCopy hop hno
  constructor
  · rw [hb, hbase]
    exact ⟨⟨h.settled.count, h.settled.envOf, h.settled.range⟩, h.settled.envs, h.settled.connected⟩
  · rw [hb, hconns]
    exact h.live
  · rw [hconns]
    exact h.inj

/-! ## Connections -/

section Connections

variable (ho : Odbc cli view active) (h : s.Tidy view) {c : ConnId}
include ho h

theorem tidy_connect_ok {database user password : Str} (hc : s.conns c = none) {x : Handle}
    {t : ConnWorld σ} (hopen : s.base.opening cli database user password = .ok (x, t)) :
    (s.connect cli c database user password).Tidy view := by
  obtain ⟨hsettled, hdbcs, hfresh⟩ := opening_settled ho h.settled hopen
  have hnew : ∀ c', s.conns c' ≠ some x := fun c' hc' => hfresh ((h.live x).mpr ⟨c', hc'⟩)
  rw [connect_ok hc hopen]
  constructor
  · exact hsettled
  · intro y
    change y ∈ (t.books view).dbcs ↔ ∃ c', Function.update s.conns c (some x) c' = some y
    rw [hdbcs, Finset.mem_insert]
    constructor
    · rintro (rfl | hy)
      · exact ⟨c, Function.update_self _ _ _⟩
      · obtain ⟨c', hc'⟩ := (h.live y).mp hy
        have hne : c' ≠ c := fun heq => by simp [heq, hc] at hc'
        exact ⟨c', (Function.update_of_ne hne _ _).trans hc'⟩
    · rintro ⟨c', hc'⟩
      by_cases hne : c' = c
      · subst hne
        rw [Function.update_self] at hc'
        exact .inl (Option.some.inj hc').symm
      · rw [Function.update_of_ne hne] at hc'
        exact .inr ((h.live y).mpr ⟨c', hc'⟩)
  · intro c₁ c₂ y h₁ h₂
    change Function.update s.conns c (some x) c₁ = some y at h₁
    change Function.update s.conns c (some x) c₂ = some y at h₂
    by_cases hne₁ : c₁ = c <;> by_cases hne₂ : c₂ = c
    · exact hne₁.trans hne₂.symm
    · subst hne₁
      rw [Function.update_self] at h₁
      rw [Function.update_of_ne hne₂] at h₂
      obtain rfl := Option.some.inj h₁
      exact absurd h₂ (hnew c₂)
    · subst hne₂
      rw [Function.update_self] at h₂
      rw [Function.update_of_ne hne₁] at h₁
      obtain rfl := Option.some.inj h₂
      exact absurd h₁ (hnew c₁)
    · rw [Function.update_of_ne hne₁] at h₁
      rw [Function.update_of_ne hne₂] at h₂
      exact h.inj c₁ c₂ y h₁ h₂

/-- A constructor that fails with nothing left over. -/
theorem tidy_connect_error {database user password : Str} (hc : s.conns c = none) {f : Failure σ}
    (hopen : s.base.opening cli database user password = .error f) (hr : f.Readable cli)
    (hclean : f.Clean s.base) : (s.connect cli c database user password).Tidy view := by
  obtain ⟨hsettled, hdbcs⟩ := left_settled ho h.settled (opening_error hopen) hr hclean
  rw [connect_error hc hopen]
  refine ⟨hsettled, fun x => ?_, h.inj⟩
  change x ∈ ((f.left cli).books view).dbcs ↔ _
  rw [hdbcs]
  exact h.live x

theorem tidy_destroyConnection {x : Handle} (hc : s.conns c = some x)
    (hidle : ¬ active s.base.world.drv x) : (s.destroyConnection cli c).Tidy view := by
  have hx : x ∈ (s.base.books view).dbcs := (h.live x).mpr ⟨c, hc⟩
  have hne : (s.base.books view).dbcs ≠ ∅ := Finset.ne_empty_of_mem hx
  obtain ⟨hsettled, hdbcs⟩ := closed_idle ho h.settled.toOn
    (h.settled.envs.trans (if_neg hne)) hx (fun _ => hidle) (by rw [h.settled.connected])
  rw [destroyConnection_eq hc]
  constructor
  · exact hsettled
  · intro y
    change y ∈ ((s.base.closed cli x).books view).dbcs ↔
      ∃ c', Function.update s.conns c none c' = some y
    rw [hdbcs, Finset.mem_erase, h.live y]
    constructor
    · rintro ⟨hyx, c', hc'⟩
      have hcc : c' ≠ c := fun heq => hyx (Option.some.inj (hc'.symm.trans (heq ▸ hc)))
      exact ⟨c', (Function.update_of_ne hcc _ _).trans hc'⟩
    · rintro ⟨c', hc'⟩
      by_cases hcc : c' = c
      · subst hcc
        rw [Function.update_self] at hc'
        cases hc'
      · rw [Function.update_of_ne hcc] at hc'
        exact ⟨fun hyx => hcc (h.inj c' c x (hyx ▸ hc') hc), c', hc'⟩
  · intro c₁ c₂ y h₁ h₂
    change Function.update s.conns c none c₁ = some y at h₁
    change Function.update s.conns c none c₂ = some y at h₂
    by_cases hne₁ : c₁ = c
    · subst hne₁
      rw [Function.update_self] at h₁
      cases h₁
    by_cases hne₂ : c₂ = c
    · subst hne₂
      rw [Function.update_self] at h₂
      cases h₂
    rw [Function.update_of_ne hne₁] at h₁
    rw [Function.update_of_ne hne₂] at h₂
    exact h.inj c₁ c₂ y h₁ h₂

end Connections

/-! ## Every operation -/

theorem Regular.readable {c : ConnId} {database user password : Str}
    (h : s.Regular cli (.connect c database user password)) (hc : s.conns c = none) {f : Failure σ}
    (hopen : s.base.opening cli database user password = .error f) : f.Readable cli := by
  have hrun : (Connection.openConnection cli database user password).runOn s.base = _ :=
    Connection.runOn_openConnection database user password s.base
  rw [hopen] at hrun
  obtain ⟨what, hexc⟩ := h.raises c database user password rfl hc _ _ hrun
  exact Failure.readable_of_exc hexc

theorem step_of_ended (he : s.ended = true) (op : Op) : s.step cli op = s := if_pos he

/-- An operation that closes idle connections only keeps the program tidy. -/
theorem tidy_step (ho : Odbc cli view active) {op : Op} (h : s.Tidy view)
    (hreg : s.Regular cli op) (hidle : s.ended = false → s.ClosesIdle cli active op) :
    (s.step cli op).Tidy view := by
  cases he : s.ended with
  | true => exact (step_of_ended he op).symm ▸ h
  | false =>
      by_cases hop : op.OnStatements
      · exact tidy_statement ho.toKeeps h hop hreg.noCopy
      rw [step_of_not_ended he]
      cases op with
      | connect c database user password =>
          simp only [perform]
          cases hc : s.conns c with
          | some x => simpa only [connect, hc] using h
          | none =>
              cases hopen : s.base.opening cli database user password with
              | ok r => exact tidy_connect_ok ho h hc hopen
              | error f =>
                  exact tidy_connect_error ho h hc hopen (hreg.readable hc hopen)
                    (hidle he hc f hopen)
      | destroyConnection c =>
          simp only [perform]
          cases hc : s.conns c with
          | none => simpa only [destroyConnection, hc] using h
          | some x => exact tidy_destroyConnection ho h hc (hidle he x hc)
      | _ => exact absurd trivial hop

/-- An operation that does not breaks the count at once. -/
theorem not_counted_step (ho : Odbc cli view active) {op : Op} (h : s.Tidy view)
    (hreg : s.Regular cli op) (hbad : ¬ (s.ended = false → s.ClosesIdle cli active op)) :
    ¬ (s.step cli op).Counted view := by
  obtain ⟨he, hbad⟩ := Classical.not_imp.mp hbad
  rw [step_of_not_ended he]
  cases op with
  | connect c database user password =>
      simp only [ClosesIdle, Classical.not_forall] at hbad
      obtain ⟨hc, f, hopen, hunclean⟩ := hbad
      have hr := hreg.readable hc hopen
      have hleft : (s.perform cli (.connect c database user password)).base =
          f.reached.closed cli f.dbHandle :=
        (congrArg base (connect_error hc hopen)).trans (Failure.left_of_readable hr)
      unfold Counted
      rw [hleft]
      cases opening_error hopen with
      | environment h0 hrc =>
          have hacc : (s.base.reply cli (.allocHandle .env 0)).Accepted := by
            by_contra hrej
            exact hunclean ⟨nofun, fun _ hacc => absurd hacc hrej⟩
          refine environment_not_counted ho h.settled h0 hacc fun heq => ?_
          exact hunclean ⟨nofun, fun _ _ => heq⟩
      | version hu hrc => exact absurd ⟨nofun, nofun⟩ hunclean
      | @handle u hu hrc =>
          have hacc : (u.reply cli (.allocHandle .dbc u.henv)).Accepted := by
            by_contra hrej
            exact hunclean ⟨fun _ => hrej, nofun⟩
          exact handle_not_counted ho h.settled hu hacc
      | connect hu ha hrc => exact absurd ⟨nofun, nofun⟩ hunclean
      | autocommit hu ha hc hrc => exact absurd ⟨nofun, nofun⟩ hunclean
  | destroyConnection c =>
      simp only [ClosesIdle, Classical.not_forall, not_not] at hbad
      obtain ⟨x, hc, hact⟩ := hbad
      have hbase : (s.perform cli (.destroyConnection c)).base = s.base.closed cli x :=
        congrArg base (destroyConnection_eq hc)
      unfold Counted
      rw [hbase]
      exact closed_active_not_counted ho h.settled ((h.live x).mpr ⟨c, hc⟩) hact
  | _ => exact absurd trivial hbad

/-- Over a program of any operations that copies no connection, with a driver that follows the
rules of ODBC: the counter counts the allocated connection handles in every state reached
exactly when every connection is idle when it is destroyed and no failing allocation hands
out a handle. -/
theorem counts_handles_iff (ho : Odbc cli view active) {d : σ} (hd : view d = {}) (ops : List Op)
    (hreg : AllSteps (step cli) (Regular cli) ops { base := .start d }) :
    (∀ pre post, ops = pre ++ post →
        (run cli { base := .start d } pre).Counted view) ↔
      AllSteps (step cli) (fun s op => s.ended = false → s.ClosesIdle cli active op) ops
        { base := .start d } :=
  AllSteps.holds_throughout_iff (I := Tidy view) (P := Counted view)
    (fun _ h => h.settled.counted) (fun _ _ h hreg hidle => tidy_step ho h hreg hidle)
    (fun _ _ h hreg hbad => not_counted_step ho h hreg hbad) hreg (tidy_start hd)

/-- Operations without an open raise nothing. -/
theorem regular_of_ne_connect {op : Op} (hno : op.NoCopy)
    (hne : ∀ c database user password, op ≠ .connect c database user password) :
    s.Regular cli op :=
  ⟨hno, fun c database user password h => absurd h (hne c database user password)⟩

/-- A successful open raises nothing. -/
theorem regular_connect {c : ConnId} {database user password : Str} {x : Handle}
    (h : ((Connection.openConnection cli database user password).runOn s.base).1 = .ok x) :
    s.Regular cli (.connect c database user password) := by
  refine ⟨trivial, fun _ _ _ _ heq _ e t hrun => ?_⟩
  obtain ⟨-, rfl, rfl, rfl⟩ := Op.connect.inj heq
  rw [hrun] at h
  cases h

theorem counts_handles_one :
    (∀ pre post, [Op.connect 0 [] [] [], .destroyConnection 0] = pre ++ post →
        (run deskCli { base := .start {} } pre).Counted Desk.books) ↔
      AllSteps (step deskCli)
        (fun s op => s.ended = false → s.ClosesIdle deskCli (fun d h => h ∈ d.active) op)
        [.connect 0 [] [] [], .destroyConnection 0] { base := .start {} } := by
  refine counts_handles_iff deskCli_odbc rfl _ ?_
  simp only [allSteps_cons, allSteps_nil, and_true]
  refine ⟨regular_connect (x := 2) (by decide +kernel), ?_⟩
  exact regular_of_ne_connect trivial (by simp)

/-- A connection is destroyed while its transaction is active: the driver keeps the handle,
and the counter says that there is none. -/
theorem destroyed_active_not_counted :
    AllSteps (step deskCli) (Regular deskCli)
        [.connect 0 [] [] [], .newStatement 0 0 [], .execute 0 .exec, .destroyConnection 0]
        { base := .start {} } ∧
      ¬ (run deskCli { base := .start {} }
        [.connect 0 [] [] [], .newStatement 0 0 [], .execute 0 .exec,
          .destroyConnection 0]).Counted Desk.books := by
  constructor
  · simp only [allSteps_cons, allSteps_nil, and_true]
    refine ⟨regular_connect (x := 2) (by decide +kernel), ?_, ?_, ?_⟩
    · exact regular_of_ne_connect trivial (by simp)
    · exact regular_of_ne_connect trivial (by simp)
    · exact regular_of_ne_connect trivial (by simp)
  · exact fun h => absurd h.count (by decide +kernel)

end Session

end Dbgen3.Runtime
