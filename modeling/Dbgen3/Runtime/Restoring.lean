import Dbgen3.Runtime.Books

/-!
# What a failed open leaves behind

The state at the failing call differs from the state before the open by what the
call has got so far: an environment handle, a connection handle, one count. The
handler gives these back, or it does not run at all.
-/

namespace Dbgen3.Runtime

open Act ConnWorld

variable {σ : Type} {cli : Cli σ} {view : σ → Books}

/-- The counter and the allocated connection handles are the same, and no environment
handle is left that was not there before. -/
structure Restored (view : σ → Books) (t t' : ConnWorld σ) : Prop where
  count : t'.henvRefCnt = t.henvRefCnt
  connections : (t'.books view).dbcs = (t.books view).dbcs
  environment : (t'.books view).envs ⊆ (t.books view).envs

namespace Failure

/-- A connection handle was allocated. -/
def HoldsConnection (f : Failure σ) : Prop :=
  f.Counted ∨ f.stage = .handle ∧ f.answer.Accepted

/-- An environment handle was allocated, in an open from state `t`. -/
def HoldsEnvironment (t : ConnWorld σ) (f : Failure σ) : Prop :=
  t.henvRefCnt = 0 ∧ (f.stage = .environment → f.answer.Accepted)

/-- That handle. A failing allocation does not store it. -/
def newEnvironment (f : Failure σ) : Handle :=
  if f.stage = .environment then f.answer.handle else f.reached.henv

/-- The handler gives back what the open has got: it runs, it counts down exactly what was
counted, and the driver accepts the releases. -/
structure Undone (cli : Cli σ) (t : ConnWorld σ) (f : Failure σ) : Prop where
  readable : f.HoldsConnection ∨ f.HoldsEnvironment t → f.Readable cli
  counted : f.Readable cli → (f.Counted ↔ f.dbHandle ≠ 0)
  connection : f.HoldsConnection → f.dbHandle ≠ 0 ∧
    (((f.reached.issue cli (.disconnect f.dbHandle)).uncounted).reply cli
      (.freeHandle .dbc f.dbHandle)).Accepted
  environment : f.HoldsEnvironment t → f.newEnvironment = f.reached.henv ∧
    ((f.reached.dropped cli f.dbHandle).reply cli (.freeHandle .env f.reached.henv)).Accepted

/-- What an open has got at its failing call. -/
structure Holdings (view : σ → Books) (t : ConnWorld σ) (f : Failure σ) : Prop where
  connections : (f.HoldsConnection →
      (f.reached.books view).dbcs = insert f.dbHandle (t.books view).dbcs ∧
        f.dbHandle ∉ (t.books view).dbcs) ∧
    (¬ f.HoldsConnection → (f.reached.books view).dbcs = (t.books view).dbcs)
  environments : (f.HoldsEnvironment t →
      (f.reached.books view).envs = insert f.newEnvironment (t.books view).envs ∧
        f.newEnvironment ∉ (t.books view).envs) ∧
    (¬ f.HoldsEnvironment t → (f.reached.books view).envs = (t.books view).envs)

end Failure

section Closing

variable (hk : Keeps cli view) (t : ConnWorld σ) (h : Handle)
include hk

theorem closed_dbcs_zero : ((t.closed cli 0).books view).dbcs = (t.books view).dbcs :=
  books_issue_dbcs hk t fun _ _ => rfl

theorem dropped_dbcs (hh : h ≠ 0) :
    ((t.dropped cli h).books view).dbcs =
      if (((t.issue cli (.disconnect h)).uncounted).reply cli (.freeHandle .dbc h)).Accepted then
        (t.books view).dbcs.erase h else (t.books view).dbcs := by
  have hdisc : ((t.issue cli (.disconnect h)).books view).dbcs = (t.books view).dbcs :=
    books_issue_dbcs hk t fun _ _ => rfl
  rw [dropped_of_ne cli t hh, books_issue hk, books_uncounted]
  by_cases ha : (((t.issue cli (.disconnect h)).uncounted).reply cli (.freeHandle .dbc h)).Accepted
  · rw [if_pos ha, Books.record_of_accepted ha, ← hdisc]
    rfl
  · rw [if_neg ha, Books.record_of_not_accepted ha, hdisc]

theorem closed_dbcs (hh : h ≠ 0) :
    ((t.closed cli h).books view).dbcs =
      if (((t.issue cli (.disconnect h)).uncounted).reply cli (.freeHandle .dbc h)).Accepted then
        (t.books view).dbcs.erase h else (t.books view).dbcs :=
  (books_issue_dbcs hk _ fun _ _ => rfl).trans (dropped_dbcs hk t h hh)

theorem dropped_envs : ((t.dropped cli h).books view).envs = (t.books view).envs := by
  by_cases hh : h = 0
  · subst hh
    rfl
  · rw [dropped_of_ne cli t hh]
    calc ((((t.issue cli (.disconnect h)).uncounted).issue cli (.freeHandle .dbc h)).books view).envs
        = (((t.issue cli (.disconnect h)).uncounted).books view).envs :=
          books_issue_envs hk _ fun _ _ => rfl
      _ = ((t.issue cli (.disconnect h)).books view).envs := by rw [books_uncounted]
      _ = (t.books view).envs := books_issue_envs hk t fun _ _ => rfl

theorem closed_envs :
    ((t.closed cli h).books view).envs =
      if ((t.dropped cli h).reply cli (.freeHandle .env t.henv)).Accepted then
        (t.books view).envs.erase t.henv else (t.books view).envs := by
  unfold closed
  rw [books_issue hk, dropped_henv, ← dropped_envs hk t h]
  by_cases ha : ((t.dropped cli h).reply cli (.freeHandle .env t.henv)).Accepted
  · rw [if_pos ha, Books.record_of_accepted ha]
    rfl
  · rw [if_neg ha, Books.record_of_not_accepted ha]

end Closing

/-! ## What an open has got -/

/-- An environment handle is new when nobody held one. -/
structure HasEnvironment (view : σ → Books) (t u : ConnWorld σ) : Prop where
  new : t.henvRefCnt = 0 →
    (u.books view).envs = insert u.henv (t.books view).envs ∧ u.henv ∉ (t.books view).envs
  shared : t.henvRefCnt ≠ 0 → (u.books view).envs = (t.books view).envs ∧ u.henv = t.henv

section Holdings

variable (hk : Keeps cli view) {t u : ConnWorld σ}
include hk

theorem HasEnvironment.issue (he : HasEnvironment view t u) {c : CliCall}
    (hc : ∀ (b : Books) handle, (b.enter handle c).envs = b.envs) :
    HasEnvironment view t (u.issue cli c) where
  new h0 := ⟨(books_issue_envs hk u hc).trans (he.new h0).1, (he.new h0).2⟩
  shared h0 := ⟨(books_issue_envs hk u hc).trans (he.shared h0).1, (he.shared h0).2⟩

theorem hasEnvironment_of_withEnvironment (h : t.withEnvironment cli = .ok u) :
    HasEnvironment view t u ∧ (u.books view).dbcs = (t.books view).dbcs := by
  obtain ⟨h0, rfl⟩ | ⟨h0, hrc, rfl⟩ := withEnvironment_ok h
  · exact ⟨⟨fun h => absurd h h0, fun _ => ⟨rfl, rfl⟩⟩, rfl⟩
  · have hacc := Reply.Accepted.of_success hrc
    have henvs := (books_issue hk t (.allocHandle .env 0)).trans (Books.record_of_accepted hacc)
    refine ⟨⟨fun _ => ⟨congrArg Books.envs henvs, hk.fresh t.world.drv .env 0 hacc⟩,
      fun h => absurd h0 h⟩, books_issue_dbcs hk t fun _ _ => rfl⟩

theorem hasEnvironment_of_requesting (h : t.requesting cli = .ok u) :
    HasEnvironment view t u ∧ (u.books view).dbcs = (t.books view).dbcs := by
  obtain ⟨t₁, ht₁, -, rfl⟩ := requesting_ok h
  obtain ⟨he, hd⟩ := hasEnvironment_of_withEnvironment hk ht₁
  exact ⟨he.issue hk fun _ _ => rfl, (books_issue_dbcs hk t₁ fun _ _ => rfl).trans hd⟩

omit hk in
/-- The environment handle of an open that failed later. -/
theorem HasEnvironment.holdings {f : Failure σ} (he : HasEnvironment view t f.reached)
    (hs : f.stage ≠ .environment) :
    (f.HoldsEnvironment t →
      (f.reached.books view).envs = insert f.newEnvironment (t.books view).envs ∧
        f.newEnvironment ∉ (t.books view).envs) ∧
    (¬ f.HoldsEnvironment t → (f.reached.books view).envs = (t.books view).envs) := by
  have hnew : f.newEnvironment = f.reached.henv := if_neg hs
  constructor
  · intro hh
    rw [hnew]
    exact he.new hh.1
  · intro hh
    exact (he.shared fun h0 => hh ⟨h0, fun h => absurd h hs⟩).1

/-- The connection handle of an open that got one. -/
theorem dbcs_allocated (hd : (u.books view).dbcs = (t.books view).dbcs)
    (ha : (u.reply cli (.allocHandle .dbc u.henv)).Accepted) :
    ((u.issue cli (.allocHandle .dbc u.henv)).books view).dbcs =
        insert (u.newHandle cli) (t.books view).dbcs ∧
      u.newHandle cli ∉ (t.books view).dbcs := by
  rw [books_issue hk, Books.record_of_accepted ha, ← hd]
  exact ⟨rfl, hk.fresh u.world.drv .dbc u.henv ha⟩

/-- What an open has got once `SQLConnect` was called. -/
theorem got_connected (database user password : Str) (hu : t.requesting cli = .ok u)
    (ha : (u.reply cli (.allocHandle .dbc u.henv)).rc = sqlSuccess) :
    HasEnvironment view t (u.connected cli database user password) ∧
      ((u.connected cli database user password).books view).dbcs =
        insert (u.newHandle cli) (t.books view).dbcs ∧
      u.newHandle cli ∉ (t.books view).dbcs := by
  obtain ⟨he, hs⟩ := hasEnvironment_of_requesting hk hu
  obtain ⟨d, us, pw, hc⟩ := connectCall_eq (u.newHandle cli) database user password
  obtain ⟨hd, hfresh⟩ := dbcs_allocated hk hs (.of_success ha)
  have henv : HasEnvironment view t (u.allocated cli) :=
    let he' := he.issue hk (c := .allocHandle .dbc u.henv) fun _ _ => rfl
    ⟨he'.new, he'.shared⟩
  unfold connected
  rw [hc]
  exact ⟨henv.issue hk fun _ _ => rfl,
    (books_issue_dbcs hk (u.allocated cli) fun _ _ => rfl).trans hd, hfresh⟩

omit hk in
/-- An open that failed after its connection was counted. -/
theorem holdings_of_counted {f : Failure σ} (hc : f.Counted) (he : HasEnvironment view t f.reached)
    (hd : (f.reached.books view).dbcs = insert f.dbHandle (t.books view).dbcs)
    (hfresh : f.dbHandle ∉ (t.books view).dbcs) : f.Holdings view t := by
  refine ⟨⟨fun _ => ⟨hd, hfresh⟩, fun h => absurd (.inl hc) h⟩, he.holdings fun hs => ?_⟩
  rcases hc with h | h
  · cases h.symm.trans hs
  · cases h.symm.trans hs

/-- What an open has got when it fails. -/
theorem holdings_of_fails {database user password : Str} {f : Failure σ}
    (hf : Fails cli database user password t f) : f.Holdings view t := by
  cases hf with
  | environment h0 hrc =>
      refine ⟨⟨?_, fun _ => ?_⟩, ⟨fun h => ?_, fun h => ?_⟩⟩
      · rintro ((h | h) | ⟨h, -⟩) <;> cases h
      · exact books_issue_dbcs hk t fun _ _ => rfl
      · have hacc := h.2 rfl
        have hbooks := (books_issue hk t (.allocHandle .env 0)).trans (Books.record_of_accepted hacc)
        exact ⟨congrArg Books.envs hbooks, hk.fresh t.world.drv .env 0 hacc⟩
      · have hrej : ¬ (t.reply cli (.allocHandle .env 0)).Accepted := fun hacc => h ⟨h0, fun _ => hacc⟩
        have hbooks := (books_issue hk t (.allocHandle .env 0)).trans
          (Books.record_of_not_accepted hrej)
        exact congrArg Books.envs hbooks
  | @version u hu hrc =>
      obtain ⟨he, hd⟩ := hasEnvironment_of_withEnvironment hk hu
      refine ⟨⟨?_, fun _ => ?_⟩, ?_⟩
      · rintro ((h | h) | ⟨h, -⟩) <;> cases h
      · exact (books_issue_dbcs hk u fun _ _ => rfl).trans hd
      · exact (he.issue hk fun _ _ => rfl).holdings nofun
  | @handle u hu hrc =>
      obtain ⟨he, hd⟩ := hasEnvironment_of_requesting hk hu
      refine ⟨⟨fun h => ?_, fun h => ?_⟩, ?_⟩
      · obtain (h | h) | ⟨-, hacc⟩ := h
        · cases h
        · cases h
        · exact dbcs_allocated hk hd hacc
      · have hrej : ¬ (u.reply cli (.allocHandle .dbc u.henv)).Accepted :=
          fun hacc => h (.inr ⟨rfl, hacc⟩)
        have hbooks := (books_issue hk u _).trans (Books.record_of_not_accepted hrej)
        exact (congrArg Books.dbcs hbooks).trans hd
      · exact (he.issue hk fun _ _ => rfl).holdings nofun
  | @connect u hu ha hrc =>
      obtain ⟨he, hd, hfresh⟩ := got_connected hk database user password hu ha
      exact holdings_of_counted (.inl rfl) he hd hfresh
  | @autocommit u hu ha hc hrc =>
      obtain ⟨he, hd, hfresh⟩ := got_connected hk database user password hu ha
      refine holdings_of_counted (.inr rfl) (he.issue hk fun _ _ => rfl) ?_ hfresh
      exact (books_issue_dbcs hk _ fun _ _ => rfl).trans hd

end Holdings

/-! ## What the handler gives back -/

namespace Failure

variable {t : ConnWorld σ} {f : Failure σ}

section Handler

variable {database user password : Str}

/-- The handler leaves the counter as it was when it counts down what was counted. -/
theorem closed_count_iff (hf : Fails cli database user password t f) (hn : t.henvRefCnt < 2 ^ 32) :
    (f.reached.closed cli f.dbHandle).henvRefCnt = t.henvRefCnt ↔
      (f.Counted ↔ f.dbHandle ≠ 0) := by
  rw [closed_henvRefCnt, hf.henvRefCnt]
  by_cases hc : f.Counted <;> by_cases hd : f.dbHandle ≠ 0
  · simp [hc, hd, countDown_countUp hn]
  · simp [hc, hd, countUp_ne]
  · simp [hc, hd, countDown_ne]
  · simp [hc, hd]

variable (hk : Keeps cli view) (hh : f.Holdings view t)
include hh

/-- Without the handler everything stays. -/
theorem restored_of_not_readable (hf : Fails cli database user password t f)
    (hr : ¬ f.Readable cli) : Restored view t (f.left cli) ↔ f.Undone cli t := by
  rw [left_of_not_readable hr]
  constructor
  · rintro ⟨-, hdbc, henv⟩
    have hnc : ¬ f.HoldsConnection := by
      intro hc
      obtain ⟨hd, hfresh⟩ := hh.connections.1 hc
      rw [hd] at hdbc
      exact hfresh (hdbc ▸ Finset.mem_insert_self _ _)
    have hne : ¬ f.HoldsEnvironment t := by
      intro he
      obtain ⟨hd, hfresh⟩ := hh.environments.1 he
      rw [hd] at henv
      exact hfresh (henv (Finset.mem_insert_self _ _))
    exact ⟨fun h => (h.elim hnc hne).elim, fun h => absurd h hr, fun h => absurd h hnc,
      fun h => absurd h hne⟩
  · intro hu
    have hno : ¬ (f.HoldsConnection ∨ f.HoldsEnvironment t) := fun h => hr (hu.readable h)
    have hnc : ¬ f.HoldsConnection := fun h => hno (.inl h)
    have hne : ¬ f.HoldsEnvironment t := fun h => hno (.inr h)
    refine ⟨?_, hh.connections.2 hnc, ?_⟩
    · rw [hf.henvRefCnt, if_neg fun hc => hnc (.inl hc)]
    · rw [hh.environments.2 hne]

include hk

/-- It takes the connection handle back when the driver accepts its release. -/
theorem closed_dbcs_iff (hc : f.Counted ↔ f.dbHandle ≠ 0) :
    ((f.reached.closed cli f.dbHandle).books view).dbcs = (t.books view).dbcs ↔
      (f.HoldsConnection → f.dbHandle ≠ 0 ∧
        (((f.reached.issue cli (.disconnect f.dbHandle)).uncounted).reply cli
          (.freeHandle .dbc f.dbHandle)).Accepted) := by
  by_cases hd : f.dbHandle = 0
  · have hclosed : ((f.reached.closed cli f.dbHandle).books view).dbcs =
        (f.reached.books view).dbcs := by
      rw [hd]
      exact closed_dbcs_zero hk f.reached
    rw [hclosed]
    constructor
    · intro heq hhold
      obtain ⟨hins, hfresh⟩ := hh.connections.1 hhold
      rw [hins] at heq
      exact absurd (heq ▸ Finset.mem_insert_self _ _) hfresh
    · exact fun himp => hh.connections.2 fun hhold => (himp hhold).1 hd
  · have hhold : f.HoldsConnection := .inl (hc.mpr hd)
    obtain ⟨hins, hfresh⟩ := hh.connections.1 hhold
    rw [closed_dbcs hk f.reached _ hd, hins]
    split
    · next hacc => simp [hd, hacc, Finset.erase_insert hfresh]
    · next hacc =>
      constructor
      · intro heq
        exact absurd (heq ▸ Finset.mem_insert_self _ _) hfresh
      · exact fun himp => absurd (himp hhold).2 hacc

/-- It takes the environment handle back when it is the stored one and the driver accepts. -/
theorem closed_envs_iff :
    ((f.reached.closed cli f.dbHandle).books view).envs ⊆ (t.books view).envs ↔
      (f.HoldsEnvironment t → f.newEnvironment = f.reached.henv ∧
        ((f.reached.dropped cli f.dbHandle).reply cli
          (.freeHandle .env f.reached.henv)).Accepted) := by
  rw [closed_envs hk]
  by_cases he : f.HoldsEnvironment t
  · obtain ⟨hins, hfresh⟩ := hh.environments.1 he
    rw [hins]
    constructor
    · intro hsub _
      by_cases hacc : ((f.reached.dropped cli f.dbHandle).reply cli
          (.freeHandle .env f.reached.henv)).Accepted
      · rw [if_pos hacc] at hsub
        refine ⟨?_, hacc⟩
        by_contra hne
        exact hfresh (hsub (Finset.mem_erase.mpr ⟨hne, Finset.mem_insert_self _ _⟩))
      · rw [if_neg hacc] at hsub
        exact absurd (hsub (Finset.mem_insert_self _ _)) hfresh
    · intro himp
      obtain ⟨heq, hacc⟩ := himp he
      rw [if_pos hacc, heq]
      exact (Finset.erase_insert_subset _ _)
  · rw [hh.environments.2 he]
    refine iff_of_true ?_ fun h => absurd h he
    split
    · exact Finset.erase_subset _ _
    · exact Finset.Subset.refl _

end Handler

/-- A failed open leaves things as they were exactly when what it got was undone. -/
theorem restored_left_iff (hk : Keeps cli view) {database user password : Str}
    (hf : Fails cli database user password t f) (hn : t.henvRefCnt < 2 ^ 32) :
    Restored view t (f.left cli) ↔ f.Undone cli t := by
  have hh := holdings_of_fails hk hf
  by_cases hr : f.Readable cli
  · rw [left_of_readable hr]
    constructor
    · rintro ⟨hcount, hdbc, henv⟩
      have hc := (closed_count_iff hf hn).mp hcount
      exact ⟨fun _ => hr, fun _ => hc, (closed_dbcs_iff hk hh hc).mp hdbc,
        (closed_envs_iff hk hh).mp henv⟩
    · rintro ⟨-, hc, hdbc, henv⟩
      exact ⟨(closed_count_iff hf hn).mpr (hc hr), (closed_dbcs_iff hk hh (hc hr)).mpr hdbc,
        (closed_envs_iff hk hh).mpr henv⟩
  · exact restored_of_not_readable hh hf hr

end Failure

namespace Connection

/-- An open that ends in an exception leaves the counter and the handles as they were exactly
when what it had got at its failing call was undone. -/
theorem openConnection_restores_iff (hk : Keeps cli view) (database user password : Str)
    {t t' : ConnWorld σ} {e : Exc} (hn : t.henvRefCnt < 2 ^ 32)
    (h : (openConnection cli database user password).runOn t = (.error e, t')) :
    Restored view t t' ↔
      ∀ f, t.opening cli database user password = .error f → f.Undone cli t := by
  rw [runOn_openConnection] at h
  cases ho : t.opening cli database user password with
  | ok r =>
      rw [ho] at h
      cases h
  | error f =>
      rw [ho] at h
      obtain ⟨-, rfl⟩ := Prod.mk.inj h
      have hiff := Failure.restored_left_iff hk (opening_error ho) hn
      constructor
      · intro hres g hg
        obtain rfl := Except.error.inj hg
        exact hiff.mp hres
      · exact fun hall => hiff.mpr (hall f rfl)

/-- A driver that refuses to switch off auto commit, with a diagnostic text that does not
fit the buffer. -/
def refusingCli : Cli Books :=
  bookCli
    (fun _ c => match c with
      | .setConnectAttr _ => -1
      | _ => sqlSuccess)
    [.successWithInfo 2000]

theorem openConnection_restores_refusing :
    Restored id (.start ({} : Books))
        ((openConnection refusingCli [] [] []).runOn (.start ({} : Books))).2 ↔
      ∀ f, (ConnWorld.start ({} : Books)).opening refusingCli [] [] [] = .error f →
        f.Undone refusingCli (.start ({} : Books)) :=
  openConnection_restores_iff (e := .runtimeError
      "buffer for error description is to short. we need 2000")
    (bookCli_keeps _ _) [] [] [] (by decide) (Prod.ext (by decide +kernel) rfl)

/-- The open raises a `std::runtime_error`, which no handler cleans up after. -/
theorem openConnection_refusing_not_restored :
    ((openConnection refusingCli [] [] []).runOn (.start ({} : Books))).1 =
        .error (.runtimeError "buffer for error description is to short. we need 2000") ∧
      ¬ Restored id (.start ({} : Books))
        ((openConnection refusingCli [] [] []).runOn (.start ({} : Books))).2 := by
  refine ⟨by decide +kernel, fun h => ?_⟩
  exact absurd h.count (by decide +kernel)

end Connection

end Dbgen3.Runtime
