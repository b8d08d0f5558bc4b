import Dbgen3.Runtime.Ledger
import Dbgen3.Runtime.EnvRelease

/-!
# Who owns a handle

Copies share the handle of their source, and each destructor gives it up. In a
program where the last live object with a handle is the one that gives it up,
nothing is given up twice and the counter counts.
-/

namespace Dbgen3.Runtime

open Act ConnWorld Runs
open Relation (ReflTransGen)

variable {σ : Type} {cli : Cli σ} {view : σ → Books} {active : σ → Handle → Prop}

/-! ## The counter over the calls -/

/-- The counter never went below zero, and it is `n` now. -/
structure Balanced (cli : Cli σ) (w : World σ) (n : Int) : Prop where
  nonneg : ∀ pre post, w.trace = pre ++ post → 0 ≤ balance cli pre
  eq : balance cli w.trace = n

theorem Balanced.issue {w : World σ} {c : CliCall} {n m : Int} (h : Balanced cli w n)
    (hm : n + (w.event cli c).change cli = m) (h0 : 0 ≤ m) : Balanced cli (w.issue cli c) m := by
  have heq : balance cli (w.issue cli c).trace = m := by rw [balance_issue, h.eq, hm]
  refine ⟨fun pre post htrace => ?_, heq⟩
  rcases List.eq_nil_or_concat' post with rfl | ⟨post', ev, rfl⟩
  · rw [List.append_nil] at htrace
    exact htrace ▸ heq ▸ h0
  · rw [issue_trace, ← List.append_assoc] at htrace
    exact h.nonneg pre post' (List.append_inj' htrace rfl).1

/-- The program owns what it counts: the counter is the number of the counted handles. -/
structure Owning (cli : Cli σ) (view : σ → Books) (t : ConnWorld σ) (L : Finset Handle)
    (C S : Set Handle) : Prop where
  holds : Holds cli view t.world t.henv L C S
  balanced : Balanced cli t.world t.henvRefCnt
  count : t.henvRefCnt = L.card

section Holds

variable {w : World σ} {e : Handle} {L : Finset Handle} {C S : Set Handle}

theorem Holds.mono {L' : Finset Handle} {C' S' : Set Handle} (h : Holds cli view w e L C S)
    (hL : L' ⊆ L) (hC : ∀ x ∈ C', x ∈ C ∧ x ∈ L') (hS : S' ⊆ S) :
    Holds cli view w e L' C' S' where
  once := h.once
  envs := h.envs
  range := h.range
  counted x hx := h.counted x (hL hx)
  onEnv x hx := h.onEnv x (hL hx)
  conns x hx := ⟨(hC x hx).2, (h.conns x (hC x hx).1).2⟩
  stmts x hx := h.stmts x (hS hx)

/-- Fewer handles than the counter can count. -/
theorem Holds.card_lt (h : Holds cli view w e L C S) : L.card < 2 ^ 32 :=
  Books.card_lt_of_range (by decide) (by decide) fun x hx => h.range x (h.counted x hx).1

/-- The environment of the counted connections was not given up. -/
theorem Holds.env_notMem_freed (h : Holds cli view w e L C S) {x : Handle}
    (hx : x ∈ (view w.drv).envs) : (.env, x) ∉ freed cli view w.trace :=
  fun hmem => h.envs x hmem hx

end Holds

section Calls

variable {t u : ConnWorld σ} {L : Finset Handle} {C S : Set Handle} {c : CliCall}

/-- Objects that are gone, and handles that nobody has any more. -/
theorem Owning.mono {C' S' : Set Handle} (h : Owning cli view t L C S) (hC : C' ⊆ C)
    (hS : S' ⊆ S) : Owning cli view t L C' S' where
  holds := h.holds.mono subset_rfl (fun x hx => ⟨hC hx, (h.holds.conns x (hC hx)).1⟩) hS
  balanced := h.balanced
  count := h.count

/-- A connection object for a counted handle. -/
theorem Owning.insertConn (h : Owning cli view t L C S) {x : Handle} (hx : x ∈ L)
    (hc : x ∈ (t.books view).connected) : Owning cli view t L (insert x C) S where
  holds :=
    { h.holds with
      conns := fun y hy => by
        rcases hy with rfl | hy
        · exact ⟨hx, hc⟩
        · exact h.holds.conns y hy }
  balanced := h.balanced
  count := h.count

variable (ho : Odbc cli view active)
include ho

/-- A call that spares what is held and leaves the counter alone. -/
theorem Owning.issue (h : Owning cli view t L C S) (hc : Spares cli view t.world L C S c)
    (h0 : (t.world.event cli c).change cli = 0) : Owning cli view (t.issue cli c) L C S where
  holds := h.holds.issue ho hc
  balanced := h.balanced.issue (by rw [h0, add_zero, issue_henvRefCnt]) (Int.natCast_nonneg _)
  count := h.count

/-! ### Opening -/

theorem Owning.withEnvironment (h : Owning cli view t L C S) (hu : t.withEnvironment cli = .ok u) :
    Owning cli view u L C S ∧ u.henv ∈ (u.books view).envs := by
  obtain ⟨h0, rfl⟩ | ⟨h0, hrc, rfl⟩ := withEnvironment_ok hu
  · obtain ⟨x, hx⟩ : L.Nonempty := by
      rw [← Finset.card_pos, ← h.count]
      exact Nat.pos_of_ne_zero h0
    exact ⟨h, (h.holds.onEnv x hx).2⟩
  · have hL : L = ∅ := Finset.card_eq_zero.mp (h.count.symm.trans h0)
    subst hL
    have hacc := Reply.Accepted.of_success hrc
    have hissue := h.issue ho (c := .allocHandle .env 0) trivial rfl
    have hbooks := (books_issue ho.toKeeps t (.allocHandle .env 0)).trans
      (Books.record_of_accepted hacc)
    refine ⟨⟨{ hissue.holds with onEnv := ?_ }, hissue.balanced, hissue.count⟩, ?_⟩
    · exact fun x hx => absurd hx (Finset.notMem_empty x)
    · have hmem : (t.environed cli).henv ∈ ((t.issue cli (.allocHandle .env 0)).books view).envs := by
        rw [hbooks]
        exact Finset.mem_insert_self _ _
      exact hmem

theorem Owning.requesting (h : Owning cli view t L C S) (hu : t.requesting cli = .ok u) :
    Owning cli view u L C S ∧ u.henv ∈ (u.books view).envs := by
  obtain ⟨t₁, ht₁, -, rfl⟩ := requesting_ok hu
  obtain ⟨hown, henv⟩ := h.withEnvironment ho ht₁
  refine ⟨hown.issue ho trivial rfl, ?_⟩
  rw [books_issue_envs ho.toKeeps t₁ fun _ _ => rfl]
  exact henv

omit ho in
theorem change_alloc (t : ConnWorld σ) (env : Handle) :
    (t.world.event cli (.allocHandle .dbc env)).change cli =
      if (t.reply cli (.allocHandle .dbc env)).rc = sqlSuccess then 1 else 0 := rfl

/-- The new connection handle is counted. -/
theorem Owning.allocated (h : Owning cli view u L C S) (henv : u.henv ∈ (u.books view).envs)
    (ha : (u.reply cli (.allocHandle .dbc u.henv)).rc = sqlSuccess) :
    Owning cli view (u.allocated cli) (insert (u.newHandle cli) L) C S := by
  have hacc : (u.reply cli (.allocHandle .dbc u.henv)).Accepted := .of_success ha
  have hholds := h.holds.issue ho (c := .allocHandle .dbc u.henv) trivial
  have hfresh : u.newHandle cli ∉ (u.books view).dbcs := ho.fresh u.world.drv .dbc u.henv hacc
  have hnew : u.newHandle cli ∉ L := fun hmem => hfresh (h.holds.counted _ hmem).1
  have hbooks : (u.issue cli (.allocHandle .dbc u.henv)).books view =
      (u.books view).enter (u.newHandle cli) (.allocHandle .dbc u.henv) :=
    (books_issue ho.toKeeps u _).trans (Books.record_of_accepted hacc)
  have hdrv : view (u.world.issue cli (.allocHandle .dbc u.henv)).drv =
      (u.books view).enter (u.newHandle cli) (.allocHandle .dbc u.henv) := hbooks
  have hall : Holds cli view (u.allocated cli).world (u.allocated cli).henv
      (insert (u.newHandle cli) L) C S := by
    refine { hholds with counted := ?_, onEnv := ?_, conns := ?_ }
    · intro x hx
      rcases Finset.mem_insert.mp hx with rfl | hx
      · refine ⟨?_, notMem_freed_alloc .dbc hacc⟩
        change u.newHandle cli ∈ (view (u.world.issue cli (.allocHandle .dbc u.henv)).drv).dbcs
        rw [hdrv]
        exact Finset.mem_insert_self _ _
      · exact hholds.counted x hx
    · intro x hx
      rcases Finset.mem_insert.mp hx with rfl | hx
      · change (view (u.world.issue cli (.allocHandle .dbc u.henv)).drv).envOf _ = u.henv ∧
          u.henv ∈ (view (u.world.issue cli (.allocHandle .dbc u.henv)).drv).envs
        rw [hdrv]
        exact ⟨Function.update_self _ _ _, henv⟩
      · exact hholds.onEnv x hx
    · intro x hx
      obtain ⟨hl, hc⟩ := hholds.conns x hx
      exact ⟨Finset.mem_insert_of_mem hl, hc⟩
  have hcard : (insert (u.newHandle cli) L).card = L.card + 1 := Finset.card_insert_of_notMem hnew
  have hlt := hall.card_lt
  have hcount : (u.allocated cli).henvRefCnt = u.henvRefCnt + 1 :=
    countUp_of_lt (by rw [issue_henvRefCnt, h.count]; omega)
  refine ⟨hall, h.balanced.issue ?_ (Int.natCast_nonneg _), ?_⟩
  · rw [change_alloc, if_pos ha, hcount]
    exact (Int.natCast_succ _).symm
  · rw [hcount, h.count, hcard]

theorem Owning.connected (h : Owning cli view u L C S) (henv : u.henv ∈ (u.books view).envs)
    (ha : (u.reply cli (.allocHandle .dbc u.henv)).rc = sqlSuccess) (database user password : Str) :
    Owning cli view (u.connected cli database user password) (insert (u.newHandle cli) L) C S := by
  obtain ⟨d, us, pw, hcall⟩ := connectCall_eq (u.newHandle cli) database user password
  unfold ConnWorld.connected
  rw [hcall]
  exact (h.allocated ho henv ha).issue ho trivial rfl

/-- A successful constructor owns its handle. -/
theorem Owning.opening {database user password : Str} {x : Handle} {t' : ConnWorld σ}
    (h : Owning cli view t L C S) (hopen : t.opening cli database user password = .ok (x, t')) :
    Owning cli view t' (insert x L) (insert x C) S := by
  obtain ⟨u, hu, ha, hc, -, rfl, rfl⟩ := opening_ok hopen
  obtain ⟨hown, henv⟩ := h.requesting ho hu
  have hconn := (hown.connected ho henv ha database user password).issue ho
    (c := .setConnectAttr (u.newHandle cli)) trivial rfl
  refine hconn.insertConn (Finset.mem_insert_self _ _) ?_
  rw [books_issue_same ho.toKeeps _ fun _ _ => rfl]
  obtain ⟨d, us, pw, hcall⟩ := connectCall_eq (u.newHandle cli) database user password
  unfold ConnWorld.connected
  rw [hcall] at hc ⊢
  rw [books_issue ho.toKeeps, Books.record_of_accepted (.of_success hc)]
  exact Finset.mem_insert_self _ _

/-- What a constructor owns at its failing call. -/
theorem Owning.reached {database user password : Str} {f : Failure σ} (h : Owning cli view t L C S)
    (hf : Fails cli database user password t f) :
    Owning cli view f.reached (if f.Counted then insert f.dbHandle L else L) C S ∧
      (f.stage ≠ .environment → f.reached.henv ∈ (f.reached.books view).envs) := by
  have hsame : ∀ {u : ConnWorld σ} {c : CliCall},
      (∀ (b : Books) handle, (b.enter handle c).envs = b.envs) →
      u.henv ∈ (u.books view).envs → (u.issue cli c).henv ∈ ((u.issue cli c).books view).envs := by
    intro u c hc henv
    rw [books_issue_envs ho.toKeeps u hc]
    exact henv
  cases hf with
  | environment h0 hrc =>
      rw [if_neg (by simp [Failure.Counted, failed])]
      exact ⟨h.issue ho trivial rfl, fun hs => absurd rfl hs⟩
  | version hu hrc =>
      obtain ⟨hown, henv⟩ := h.withEnvironment ho hu
      rw [if_neg (by simp [Failure.Counted, failed])]
      exact ⟨hown.issue ho trivial rfl, fun _ => hsame (fun _ _ => rfl) henv⟩
  | handle hu hrc =>
      obtain ⟨hown, henv⟩ := h.requesting ho hu
      rw [if_neg (by simp [Failure.Counted, failed])]
      exact ⟨hown.issue ho trivial ((change_alloc _ _).trans (if_neg hrc)),
        fun _ => hsame (fun _ _ => rfl) henv⟩
  | @connect u hu ha hrc =>
      obtain ⟨hown, henv⟩ := h.requesting ho hu
      have hconn := hown.connected ho henv ha database user password
      rw [if_pos (.inl rfl)]
      refine ⟨hconn, fun _ => ?_⟩
      exact (hconn.holds.onEnv _ (Finset.mem_insert_self _ _)).2
  | @autocommit u hu ha hc hrc =>
      obtain ⟨hown, henv⟩ := h.requesting ho hu
      have hconn := hown.connected ho henv ha database user password
      rw [if_pos (.inr rfl)]
      refine ⟨hconn.issue ho trivial rfl, fun _ => hsame (fun _ _ => rfl) ?_⟩
      exact (hconn.holds.onEnv _ (Finset.mem_insert_self _ _)).2

/-! ### Closing -/

/-- A close without a connection handle asks for the environment only. -/
theorem Owning.closed_zero (h : Owning cli view t L C S)
    (henv : (.env, t.henv) ∉ freed cli view t.world.trace) :
    Owning cli view (t.closed cli 0) L C S :=
  h.issue ho henv rfl

/-- The sole owner of a handle gives it up. Its statements are gone, or the driver refuses
to disconnect. -/
theorem Owning.closed (h : Owning cli view t L C S) {x : Handle} (hx : x ∈ L) (hC : x ∉ C)
    (hS : (∀ s ∈ S, (t.books view).dbcOf s ≠ x) ∨
      x ∈ (t.books view).connected ∧ ¬ (t.reply cli (.disconnect x)).Accepted) :
    Owning cli view (t.closed cli x) (L.erase x) C S := by
  have hne : x ≠ 0 := (h.holds.range x (h.holds.counted x hx).1).1
  have hpos : 0 < L.card := Finset.card_pos.mpr ⟨x, hx⟩
  have hdown : countDown t.henvRefCnt = L.card - 1 :=
    (countDown_of_pos (h.count ▸ h.holds.card_lt) (by rw [h.count]; omega)).trans (by rw [h.count])
  have hcount : (L.erase x).card = L.card - 1 := Finset.card_erase_of_mem hx
  -- disconnecting
  have hdisc : Spares cli view t.world L C S (.disconnect x) := by
    intro hacc
    refine ⟨hC, ?_⟩
    rcases hS with hS | ⟨-, hrej⟩
    · exact hS
    · exact absurd hacc hrej
  have h₁ := h.issue ho hdisc rfl
  have hbooks₁ := books_issue ho.toKeeps t (.disconnect x)
  -- freeing the connection handle
  have hS₁ : ((cli.call (t.issue cli (.disconnect x)).world.drv (.freeHandle .dbc x)).1.Accepted) →
      ∀ s ∈ S, ((t.issue cli (.disconnect x)).books view).dbcOf s ≠ x := by
    intro hacc
    rcases hS with hS | ⟨hconn, hrej⟩
    · intro s hs
      have hsame : ((t.issue cli (.disconnect x)).books view).dbcOf = (t.books view).dbcOf :=
        (congrArg Books.dbcOf hbooks₁).trans (Books.record_component Books.dbcOf fun _ => rfl)
      rw [hsame]
      exact hS s hs
    · have hstill : x ∈ ((t.issue cli (.disconnect x)).books view).connected := by
        rw [hbooks₁, Books.record_of_not_accepted hrej]
        exact hconn
      exact absurd hacc (ho.free_connected _ x hstill)
  have hless : Holds cli view (t.issue cli (.disconnect x)).world t.henv (L.erase x) C S :=
    h₁.holds.mono (Finset.erase_subset x L)
      (fun y hy => ⟨hy, Finset.mem_erase.mpr ⟨fun heq => hC (heq ▸ hy), (h.holds.conns y hy).1⟩⟩)
      subset_rfl
  have h₂ : Owning cli view (t.dropped cli x) (L.erase x) C S := by
    rw [dropped_of_ne cli t hne]
    refine ⟨?_, ?_, hdown.trans hcount.symm⟩
    · exact hless.issue ho ⟨(h₁.holds.counted x hx).2, Finset.notMem_erase x L, hS₁⟩
    · refine h₁.balanced.issue ?_ (Int.natCast_nonneg _)
      change (t.henvRefCnt : Int) + -1 = (countDown t.henvRefCnt : Int)
      rw [hdown, h.count]
      omega
  -- asking for the environment
  have henv : t.henv ∈ ((t.dropped cli x).books view).envs := by
    rw [dropped_envs ho.toKeeps]
    exact (h.holds.onEnv x hx).2
  refine h₂.issue ho ?_ rfl
  have hfree := h₂.holds.env_notMem_freed henv
  rw [dropped_henv]
  exact hfree

/-- A failed constructor whose handler gives up only what was handed to it. -/
def Failure.Owned (cli : Cli σ) (view : σ → Books) (t : ConnWorld σ) (f : Failure σ) : Prop :=
  f.Readable cli → (f.stage = .handle → ¬ f.answer.Accepted) ∧
    (f.stage = .environment → (.env, t.henv) ∉ freed cli view t.world.trace)

/-- What a constructor that raises an exception leaves. -/
theorem Owning.left {database user password : Str} {f : Failure σ} (h : Owning cli view t L C S)
    (hf : Fails cli database user password t f) (hown : f.Owned cli view t) :
    ∃ L', Owning cli view (f.left cli) L' C S := by
  obtain ⟨hreached, henv⟩ := h.reached ho hf
  by_cases hr : f.Readable cli
  · obtain ⟨hhandle, hfree⟩ := hown hr
    rw [Failure.left_of_readable hr]
    by_cases hc : f.Counted
    · rw [if_pos hc] at hreached
      have hhold : f.HoldsConnection := .inl hc
      obtain ⟨-, hfresh⟩ := (holdings_of_fails ho.toKeeps hf).connections.1 hhold
      have hdbcOf : (f.reached.books view).dbcOf = (t.books view).dbcOf := by
        refine view_eq_of_chain (v := fun d => (view d).dbcOf) ?_ (opens_fails hf)
        intro d c hc
        simp only [ho.records]
        refine Books.record_component Books.dbcOf fun handle => ?_
        cases c with
        | allocHandle type _ => cases type <;> first | rfl | exact hc.elim
        | freeHandle type _ => cases type <;> exact hc.elim
        | _ => rfl
      refine ⟨_, hreached.closed ho (Finset.mem_insert_self _ _) ?_ (.inl ?_)⟩
      · exact fun hmem => hfresh (h.holds.counted _ (h.holds.conns _ hmem).1).1
      · intro s hs heq
        rw [hdbcOf] at heq
        exact hfresh (heq ▸ (h.holds.stmts s hs).2.1)
    · rw [if_neg hc] at hreached
      refine ⟨L, ?_⟩
      have hzero : f.dbHandle = 0 := by
        cases hf with
        | environment => rfl
        | version => rfl
        | @handle u => exact ho.null u.world.drv .dbc u.henv (hhandle rfl)
        | connect => exact absurd (.inl rfl) hc
        | autocommit => exact absurd (.inr rfl) hc
      rw [hzero]
      apply hreached.closed_zero ho
      by_cases hs : f.stage = .environment
      · cases hf with
        | environment h0 hrc =>
            exact notMem_freed_issue (hfree rfl) (by simp [mem_givesUp_env, World.event])
        | _ => cases hs
      · exact hreached.holds.env_notMem_freed (henv hs)
  · rw [Failure.left_of_not_readable hr]
    exact ⟨_, hreached⟩

/-! ### Statements -/

omit ho in
/-- The objects of the program play no part. -/
theorem Owning.withHeap {w : World σ} (h : Owning cli view { t with world := w } L C S) (hp : Heap) :
    Owning cli view { t with world := { w with heap := hp } } L C S where
  holds :=
    { once := h.holds.once
      envs := h.holds.envs
      range := h.holds.range
      counted := h.holds.counted
      onEnv := h.holds.onEnv
      conns := h.holds.conns
      stmts := h.holds.stmts }
  balanced :=
    { nonneg := h.balanced.nonneg
      eq := h.balanced.eq }
  count := h.count

/-- The methods of a statement and of a connection. -/
theorem Owning.of_chain {w : World σ} (h : Owning cli view t L C S)
    (hchain : ReflTransGen (CallStep cli CliCall.isMethod SameHandles) t.world w) :
    Owning cli view { t with world := w } L C S := by
  have hcall : ∀ {w : World σ} {c : CliCall}, c.isMethod →
      Owning cli view { t with world := w } L C S →
      Owning cli view { t with world := w.issue cli c } L C S := by
    intro w c hc hown
    refine hown.issue ho ?_ ?_
    · cases c <;> trivial
    · cases c <;> first | rfl | exact hc.elim
  induction hchain with
  | refl => exact h
  | tail _ hstep ih =>
      cases hstep with
      | call hc => exact hcall hc ih
      | writing hc => exact (hcall hc ih).withHeap _
      | heap _ => exact ih.withHeap _

omit ho in
/-- Methods and the driver's answers leave the handles of the statements alone. -/
theorem handles_of_chain {P : CliCall → Prop} {w w' : World σ}
    (h : ReflTransGen (CallStep cli P SameHandles) w w') :
    SameHandles w.heap w'.heap := by
  induction h with
  | refl => exact fun _ => rfl
  | tail _ hstep ih =>
      cases hstep with
      | call _ => exact ih
      | writing _ =>
          intro s
          rw [issueWriting_stmts]
          exact ih s
      | heap hsame => exact fun s => (hsame s).trans (ih s)

/-- The constructor of a statement owns the handle it stores. -/
theorem Owning.newStatement (h : Owning cli view t L C S) {x : Handle} (hx : x ∈ C)
    (ha : (t.reply cli (.allocHandle .stmt x)).Accepted) :
    Owning cli view (t.issue cli (.allocHandle .stmt x)) L C
      (insert (t.reply cli (.allocHandle .stmt x)).handle S) := by
  have hissue := h.issue ho (c := .allocHandle .stmt x) trivial rfl
  refine ⟨{ hissue.holds with stmts := ?_ }, hissue.balanced, hissue.count⟩
  intro y hy
  rcases hy with rfl | hy
  · have hbooks := (books_issue ho.toKeeps t (.allocHandle .stmt x)).trans
      (Books.record_of_accepted ha)
    change _ ∈ ((t.issue cli (.allocHandle .stmt x)).books view).stmts ∧
      ((t.issue cli (.allocHandle .stmt x)).books view).dbcOf _ ∈
        ((t.issue cli (.allocHandle .stmt x)).books view).dbcs ∧ _
    rw [hbooks]
    refine ⟨Finset.mem_insert_self _ _, ?_, notMem_freed_alloc .stmt ha⟩
    have hself : Function.update (t.books view).dbcOf (t.reply cli (.allocHandle .stmt x)).handle x
        (t.reply cli (.allocHandle .stmt x)).handle = x := Function.update_self _ _ _
    have hdbc : x ∈ (t.books view).dbcs := (h.holds.counted x (h.holds.conns x hx).1).1
    change Function.update (t.books view).dbcOf (t.reply cli (.allocHandle .stmt x)).handle x
      (t.reply cli (.allocHandle .stmt x)).handle ∈ (t.books view).dbcs
    rw [hself]
    exact hdbc
  · exact hissue.holds.stmts y hy

/-- The sole owner of a statement handle gives it up. -/
theorem Owning.dispose (h : Owning cli view t L C S) {x : Handle} {S' : Set Handle} (hx : x ∈ S)
    (hS : S' ⊆ S) (hsole : x ∉ S') :
    Owning cli view (t.issue cli (.freeHandle .stmt x)) L C S' :=
  (h.mono subset_rfl hS).issue ho ⟨(h.holds.stmts x hx).2.2, hsole⟩ rfl

end Calls

/-! ## Programs -/

theorem ConnWorld.closed_heap (t : ConnWorld σ) (h : Handle) :
    (t.closed cli h).world.heap = t.world.heap := by
  unfold closed dropped
  split <;> rfl

theorem Failure.left_heap (f : Failure σ) :
    (f.left cli).world.heap = f.reached.world.heap := by
  unfold left
  split
  · exact f.reached.closed_heap f.dbHandle
  · rfl

namespace Session

/-- The handles of the live connections. -/
def connHandles (s : Session σ) : Set Handle := {h | ∃ c, s.conns c = some h}

/-- The handle of a statement object. -/
def stmtHandle (s : Session σ) (st : StmtId) : Handle := (s.base.world.heap.stmts st).handle

/-- The handles of the live statements. -/
def stmtHandles (s : Session σ) : Set Handle := {h | ∃ st, s.stmts st = true ∧ s.stmtHandle st = h}

/-- No handle is given up twice, no live object has a handle that was given up, and the
counter, which is the number of times it went up less those it went down, never went below
zero. -/
structure Owned (cli : Cli σ) (view : σ → Books) (s : Session σ) : Prop where
  once : ∀ pre e post type h, s.trace = pre ++ e :: post → e.call = .freeHandle type h →
    (type, h) ∉ freed cli view pre
  conns : ∀ h ∈ s.connHandles, (.dbc, h) ∉ freed cli view s.trace
  stmts : ∀ h ∈ s.stmtHandles, (.stmt, h) ∉ freed cli view s.trace
  count : (s.base.henvRefCnt : Int) = balance cli s.trace
  nonneg : ∀ pre post, s.trace = pre ++ post → 0 ≤ balance cli pre

/-- The destroyed object is the only live one with its handle, and an idle connection is
outlived by none of its statements. A constructor that fails gives up what it was given. -/
def SoleOwner (cli : Cli σ) (view : σ → Books) (active : σ → Handle → Prop) (s : Session σ) :
    Op → Prop
  | .destroyConnection c => ∀ h, s.conns c = some h →
      (∀ c', s.conns c' = some h → c' = c) ∧
        (¬ active s.base.world.drv h → ∀ x ∈ s.stmtHandles, (s.base.books view).dbcOf x ≠ h)
  | .destroyStatement st => s.stmts st = true →
      ∀ st', s.stmts st' = true → s.stmtHandle st' = s.stmtHandle st → st' = st
  | .connect c database user password => s.conns c = none → ∀ f : Failure σ,
      s.base.opening cli database user password = .error f → f.Owned cli view s.base
  | _ => True

/-- The program owns the handles of its live objects. -/
def Keeping (cli : Cli σ) (view : σ → Books) (s : Session σ) : Prop :=
  ∃ L, Owning cli view s.base L s.connHandles s.stmtHandles

variable {s : Session σ}

theorem Keeping.owned (h : s.Keeping cli view) : s.Owned cli view := by
  obtain ⟨L, hown⟩ := h
  exact ⟨hown.holds.once,
    fun x hx => (hown.holds.counted x (hown.holds.conns x hx).1).2,
    fun x hx => (hown.holds.stmts x hx).2.2, hown.balanced.eq.symm, hown.balanced.nonneg⟩

theorem keeping_start {d : σ} (hd : view d = {}) : Keeping cli view { base := .start d } := by
  have hno : ∀ x : Handle, x ∉ (∅ : Finset Handle) := Finset.notMem_empty
  refine ⟨∅, ⟨⟨?_, ?_, ?_, ?_, ?_, ?_, ?_⟩, ⟨?_, rfl⟩, rfl⟩⟩
  · intro pre e post type h htrace
    simp [ConnWorld.start, World.start] at htrace
  · intro h hmem
    exact absurd hmem (Finset.notMem_empty _)
  · intro h hmem
    change h ∈ (view d).dbcs at hmem
    rw [hd] at hmem
    exact absurd hmem (hno h)
  · exact fun h hmem => absurd hmem (hno h)
  · exact fun h hmem => absurd hmem (hno h)
  · rintro h ⟨c, hc⟩
    cases hc
  · rintro h ⟨st, hst, -⟩
    cases hst
  · intro pre post htrace
    obtain ⟨rfl, -⟩ := List.append_eq_nil_iff.mp htrace.symm
    exact le_refl _

section Update

variable {c : ConnId} {h : Handle}

/-- The handles after an object got one. -/
theorem connHandles_update_some {base : ConnWorld σ} :
    ({ s with base := base, conns := Function.update s.conns c (some h) } : Session σ).connHandles ⊆
      insert h s.connHandles := by
  rintro x ⟨c', hc'⟩
  by_cases hne : c' = c
  · subst hne
    exact .inl (Option.some.inj ((Function.update_self c' (some h) s.conns).symm.trans hc')).symm
  · exact .inr ⟨c', (Function.update_of_ne hne (some h) s.conns).symm.trans hc'⟩

/-- The handles after an object is gone. -/
theorem connHandles_update_none {base : ConnWorld σ} {x : Handle}
    (hx : x ∈ ({ s with
      base := base, conns := Function.update s.conns c none } : Session σ).connHandles) :
    ∃ c', c' ≠ c ∧ s.conns c' = some x := by
  obtain ⟨c', hc'⟩ := hx
  by_cases hne : c' = c
  · subst hne
    cases (Function.update_self c' none s.conns).symm.trans hc'
  · exact ⟨c', hne, (Function.update_of_ne hne none s.conns).symm.trans hc'⟩

theorem stmtHandles_closed (h : Handle) :
    ({ s with base := s.base.closed cli h, conns := Function.update s.conns c none } :
      Session σ).stmtHandles = s.stmtHandles := by
  have hheap : (s.base.closed cli h).world.heap = s.base.world.heap := s.base.closed_heap h
  ext x
  simp only [stmtHandles, stmtHandle, hheap]

/-- Copies and assignments only share handles. -/
theorem keeping_share (hk : s.Keeping cli view) {source : ConnId} (hsource : s.conns source = some h) :
    Keeping cli view { s with conns := Function.update s.conns c (some h) } := by
  obtain ⟨L, hown⟩ := hk
  refine ⟨L, hown.mono (connHandles_update_some.trans ?_) subset_rfl⟩
  rintro x (rfl | hx)
  · exact ⟨source, hsource⟩
  · exact hx

end Update

section Steps

variable (ho : Odbc cli view active) (hk : s.Keeping cli view)
include ho hk

theorem keeping_connect {c : ConnId} {database user password : Str}
    (hsole : s.SoleOwner cli view active (.connect c database user password)) :
    (s.connect cli c database user password).Keeping cli view := by
  obtain ⟨L, hown⟩ := hk
  cases hc : s.conns c with
  | some h =>
      simp only [connect, hc]
      exact ⟨L, hown⟩
  | none =>
      cases hopen : s.base.opening cli database user password with
      | ok r =>
          obtain ⟨h, t⟩ := r
          rw [connect_ok hc hopen]
          refine ⟨insert h L, (hown.opening ho hopen).mono connHandles_update_some ?_⟩
          rintro x ⟨st, hlive, rfl⟩
          exact ⟨st, hlive, (handles_of_chain (opens_opening hopen) st).symm⟩
      | error f =>
          rw [connect_error hc hopen]
          obtain ⟨L', hleft⟩ := hown.left ho (opening_error hopen) (hsole hc f hopen)
          refine ⟨L', hleft.mono subset_rfl ?_⟩
          rintro x ⟨st, hlive, rfl⟩
          refine ⟨st, hlive, ?_⟩
          have hsame := handles_of_chain (opens_fails (opening_error hopen)) st
          rw [← Failure.left_heap f] at hsame
          exact hsame.symm

theorem keeping_destroyConnection {c : ConnId}
    (hsole : s.SoleOwner cli view active (.destroyConnection c)) :
    (s.destroyConnection cli c).Keeping cli view := by
  obtain ⟨L, hown⟩ := hk
  cases hc : s.conns c with
  | none =>
      simp only [destroyConnection, hc]
      exact ⟨L, hown⟩
  | some h =>
      obtain ⟨hothers, hidle⟩ := hsole h hc
      obtain ⟨hmem, hconn⟩ := hown.holds.conns h ⟨c, hc⟩
      have hdrop : (∀ x ∈ s.stmtHandles, (s.base.books view).dbcOf x ≠ h) ∨
          h ∈ (s.base.books view).connected ∧ ¬ (s.base.reply cli (.disconnect h)).Accepted := by
        by_cases hact : active s.base.world.drv h
        · exact .inr ⟨hconn, ho.disconnect_active _ _ hact⟩
        · exact .inl (hidle hact)
      rw [destroyConnection_eq hc]
      refine ⟨L.erase h, (hown.mono ?_ ?_).closed ho hmem ?_ (hdrop.imp_left fun hS x hx => ?_)⟩
      · intro x hx
        obtain ⟨c', -, hc'⟩ := connHandles_update_none hx
        exact ⟨c', hc'⟩
      · exact (stmtHandles_closed h).subset
      · intro hx
        obtain ⟨c', hne, hc'⟩ := connHandles_update_none hx
        exact hne (hothers c' hc')
      · exact hS x ((stmtHandles_closed h).subset hx)

theorem keeping_newStatement {st : StmtId} {c : ConnId} {sql : Str} :
    (s.newStatement cli st c sql).Keeping cli view := by
  obtain ⟨L, hown⟩ := hk
  cases hst : s.stmts st with
  | true =>
      simp only [newStatement, hst]
      exact ⟨L, hown⟩
  | false =>
      cases hc : s.conns c with
      | none =>
          simp only [newStatement, hst, hc]
          exact ⟨L, hown⟩
      | some h =>
          have hrun := runOn_onWorld (Statement.new cli st h sql) s.base
          rw [runOn_new] at hrun
          by_cases hrc : (cli.call s.base.world.drv (.allocHandle .stmt h)).1.rc = sqlSuccess
          · rw [if_pos hrc] at hrun
            have hnew := hown.newStatement ho (x := h) ⟨c, hc⟩ (.of_success hrc)
            simp only [newStatement, hst, hc, hrun]
            refine ⟨L, (hnew.withHeap _).mono subset_rfl ?_⟩
            rintro x ⟨st', hlive, rfl⟩
            by_cases hne : st' = st
            · subst hne
              refine .inl ?_
              simp [stmtHandle, ConnWorld.reply]
            · refine .inr ⟨st', ?_, ?_⟩
              · exact (Function.update_of_ne hne true s.stmts).symm.trans hlive
              · simp [stmtHandle, hne]
          · rw [if_neg hrc] at hrun
            simp only [newStatement, hst, hc, hrun]
            exact ⟨L, hown.issue ho (c := .allocHandle .stmt h) trivial rfl⟩

omit ho in
theorem keeping_duplicateStatement {st source : StmtId} :
    (s.duplicateStatement st source).Keeping cli view := by
  obtain ⟨L, hown⟩ := hk
  cases hst : s.stmts st with
  | true =>
      simp only [duplicateStatement, hst]
      exact ⟨L, hown⟩
  | false =>
      cases hsource : s.stmts source with
      | false =>
          simp only [duplicateStatement, hst, hsource]
          exact ⟨L, hown⟩
      | true =>
          simp only [duplicateStatement, hst, hsource, onBase, runOn_onWorld, runOn_modifyHeap]
          refine ⟨L, (hown.withHeap _).mono subset_rfl ?_⟩
          rintro x ⟨st', hlive, rfl⟩
          by_cases hne : st' = st
          · subst hne
            exact ⟨source, hsource, by simp [stmtHandle]⟩
          · refine ⟨st', (Function.update_of_ne hne true s.stmts).symm.trans hlive, ?_⟩
            simp [stmtHandle, hne]

theorem keeping_destroyStatement {st : StmtId}
    (hsole : s.SoleOwner cli view active (.destroyStatement st)) :
    (s.destroyStatement cli st).Keeping cli view := by
  obtain ⟨L, hown⟩ := hk
  cases hst : s.stmts st with
  | false =>
      simp only [destroyStatement, hst]
      exact ⟨L, hown⟩
  | true =>
      have hfree : ∀ ended, Keeping cli view
          { s with
            base := s.base.issue cli (.freeHandle .stmt (s.stmtHandle st))
            stmts := Function.update s.stmts st false
            ended := ended } := by
        intro ended
        have hothers : ∀ st', Function.update s.stmts st false st' = true →
            st' ≠ st ∧ s.stmts st' = true := by
          intro st' hlive
          by_cases hne : st' = st
          · subst hne
            rw [Function.update_self] at hlive
            cases hlive
          · rw [Function.update_of_ne hne] at hlive
            exact ⟨hne, hlive⟩
        refine ⟨L, hown.dispose ho ⟨st, hst, rfl⟩ ?_ ?_⟩
        · rintro x ⟨st', hlive, rfl⟩
          exact ⟨st', (hothers st' hlive).2, rfl⟩
        · rintro ⟨st', hlive, heq⟩
          obtain ⟨hne, hlive'⟩ := hothers st' hlive
          exact hne (hsole hst st' hlive' heq)
      have hrun := runOn_onWorld (Statement.dispose cli st) s.base
      rw [runOn_dispose_state] at hrun
      simp only [destroyStatement, hst]
      cases hd : ((Statement.dispose cli st).runOn s.base.world).1 with
      | ok v =>
          rw [hd] at hrun
          rw [hrun]
          exact hfree s.ended
      | error e =>
          rw [hd] at hrun
          rw [hrun]
          exact hfree true

/-- The methods of the live objects. -/
theorem keeping_method {α : Type} {m : Act (World σ) Exc α}
    (hm : Within (CallStep cli CliCall.isMethod SameHandles) m) :
    (s.onBase (onWorld m)).Keeping cli view := by
  obtain ⟨L, hown⟩ := hk
  have hchain := hm s.base.world
  have hsame := handles_of_chain hchain
  simp only [onBase, runOn_onWorld]
  refine ⟨L, (hown.of_chain ho hchain).mono subset_rfl ?_⟩
  rintro x ⟨st, hlive, rfl⟩
  exact ⟨st, hlive, (hsame st).symm⟩

/-- An operation that keeps to its own handles. -/
theorem keeping_step {op : Op} (hsole : s.ended = false → s.SoleOwner cli view active op) :
    (s.step cli op).Keeping cli view := by
  cases he : s.ended with
  | true =>
      have hsame : s.step cli op = s := if_pos he
      rw [hsame]
      exact hk
  | false =>
      rw [step_of_not_ended he]
      have hown := hsole he
      cases op with
      | connect => exact keeping_connect ho hk hown
      | destroyConnection => exact keeping_destroyConnection ho hk hown
      | copyConnection c source | moveConnection c source =>
          simp only [perform, duplicate]
          split
          · next hsource => exact keeping_share hk hsource
          · exact hk
      | assignConnection c source | moveAssignConnection c source =>
          simp only [perform, assign]
          split
          · next hsource => exact keeping_share hk hsource
          · exact hk
      | newStatement => exact keeping_newStatement ho hk
      | copyStatement => exact keeping_duplicateStatement hk
      | moveStatement => exact keeping_duplicateStatement hk
      | destroyStatement => exact keeping_destroyStatement ho hk hown
      | execute st op =>
          simp only [perform, execute]
          split
          · exact keeping_method ho hk (calls_run st op)
          · exact hk
      | commit c =>
          simp only [perform, endTran]
          split
          · exact keeping_method ho hk (calls_commit _)
          · exact hk
      | rollback c =>
          simp only [perform, endTran]
          split
          · exact keeping_method ho hk (calls_rollback _)
          · exact hk

end Steps

/-- A program whose objects give up their own handles only: nothing is given up twice, no live
object has a handle that was given up, and the counter never goes below zero. -/
theorem owned_of_soleOwner (ho : Odbc cli view active) {d : σ} (hd : view d = {}) (ops : List Op)
    (hsole : AllSteps (step cli) (fun s op => s.ended = false → s.SoleOwner cli view active op) ops
      { base := .start d }) :
    ∀ pre post, ops = pre ++ post → (run cli { base := .start d } pre).Owned cli view := by
  have hrun : ∀ (ops : List Op) (s : Session σ), s.Keeping cli view →
      AllSteps (step cli) (fun s op => s.ended = false → s.SoleOwner cli view active op) ops s →
      (run cli s ops).Keeping cli view := by
    intro ops
    induction ops with
    | nil => exact fun s hk _ => hk
    | cons op ops ih =>
        intro s hk hall
        obtain ⟨hhead, htail⟩ := (allSteps_cons _ op ops s).mp hall
        exact ih _ (keeping_step ho hk hhead) htail
  intro pre post hsplit
  refine (hrun pre _ (keeping_start hd) fun pre' op post' hpre => ?_).owned
  exact hsole pre' op (post' ++ post) (by simp [hsplit, hpre])

/-- A constructor concerns its own object. -/
theorem connect_others {c c' : ConnId} (hne : c' ≠ c) (database user password : Str) :
    (s.connect cli c database user password).conns c' = s.conns c' ∧
      (s.connect cli c database user password).stmts = s.stmts := by
  unfold connect
  split
  · exact ⟨rfl, rfl⟩
  · split
    · exact ⟨Function.update_of_ne hne _ _, rfl⟩
    · exact ⟨rfl, rfl⟩

/-- A successful constructor gives nothing up. -/
theorem soleOwner_connect {c : ConnId} {database user password : Str} {x : Handle}
    (h : ((Connection.openConnection cli database user password).runOn s.base).1 = .ok x) :
    s.SoleOwner cli view active (.connect c database user password) := by
  intro _ f hopen
  rw [Connection.runOn_openConnection, hopen] at h
  cases h

/-- One connection, opened and destroyed. -/
theorem soleOwner_one :
    AllSteps (step deskCli)
      (fun s op => s.ended = false →
        s.SoleOwner deskCli Desk.books (fun d h => h ∈ d.active) op)
      [.connect 0 [] [] [], .destroyConnection 0] { base := .start {} } := by
  simp only [allSteps_cons, allSteps_nil, and_true]
  constructor
  · exact fun _ => soleOwner_connect (x := 2) (by decide +kernel)
  · intro _ h _
    have hothers : ∀ c', c' ≠ 0 →
        (connect deskCli { base := .start {} } 0 [] [] []).conns c' = none ∧
          (connect deskCli { base := .start {} } 0 [] [] []).stmts = fun _ => false :=
      fun c' hne => connect_others hne [] [] []
    constructor
    · intro c' hc'
      by_contra hne
      cases (hothers c' hne).1.symm.trans hc'
    · rintro - x ⟨st, hlive, -⟩
      cases (congrFun (hothers 1 (by decide)).2 st).symm.trans hlive

theorem owned_of_soleOwner_one :
    (run deskCli { base := .start {} } [.connect 0 [] [] [], .destroyConnection 0]).Owned deskCli
      Desk.books :=
  owned_of_soleOwner deskCli_odbc rfl _ soleOwner_one _ [] (List.append_nil _).symm

/-- A connection is copied and both objects are destroyed: the copy has a handle that was
given up, gives it up again, and the counter is one below zero. -/
theorem copied_connection_not_owned :
    ¬ (run deskCli { base := .start {} }
        [.connect 0 [] [] [], .copyConnection 1 0, .destroyConnection 0]).Owned deskCli Desk.books ∧
      balance deskCli (run deskCli { base := .start {} }
        [.connect 0 [] [] [], .copyConnection 1 0, .destroyConnection 0,
          .destroyConnection 1]).trace = -1 := by
  refine ⟨fun h => ?_, by decide +kernel⟩
  have hlive := h.conns 2 ⟨1, by decide +kernel⟩
  exact hlive (by decide +kernel)

end Session

end Dbgen3.Runtime
