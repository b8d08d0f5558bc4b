import Dbgen3.Runtime.Restoring
import Mathlib.Data.Int.Interval

/-!
# Opening and closing under the rules of ODBC

A state is settled when the counter is the number of allocated connection
handles, all of them open, and the environment is held for them only. Opening
and closing an idle connection lead from one settled state to another.
-/

namespace Dbgen3.Runtime

open ConnWorld

variable {σ : Type} {cli : Cli σ} {view : σ → Books} {active : σ → Handle → Prop}

/-- What ODBC says of handles and connections. `active d h` says that a transaction is
active on connection `h`. -/
structure Odbc (cli : Cli σ) (view : σ → Books) (active : σ → Handle → Prop) : Prop
    extends Keeps cli view where
  /-- Handles are 32-bit numbers other than the null handle. -/
  range : ∀ d type input, (cli.call d (.allocHandle type input)).1.Accepted →
    (cli.call d (.allocHandle type input)).1.handle ≠ 0 ∧
      -(2 ^ 31) ≤ (cli.call d (.allocHandle type input)).1.handle ∧
      (cli.call d (.allocHandle type input)).1.handle < 2 ^ 31
  null : ∀ d type input, ¬ (cli.call d (.allocHandle type input)).1.Accepted →
    (cli.call d (.allocHandle type input)).1.handle = 0
  unknown : ∀ d type h, h ∉ (view d).allocated type →
    ¬ (cli.call d (.freeHandle type h)).1.Accepted
  disconnect_active : ∀ d h, active d h → ¬ (cli.call d (.disconnect h)).1.Accepted
  disconnect_idle : ∀ d h, h ∈ (view d).connected → ¬ active d h →
    (cli.call d (.disconnect h)).1.Accepted
  free_connected : ∀ d h, h ∈ (view d).connected → ¬ (cli.call d (.freeHandle .dbc h)).1.Accepted
  free_disconnected : ∀ d h, h ∈ (view d).dbcs → h ∉ (view d).connected →
    (cli.call d (.freeHandle .dbc h)).1.Accepted
  free_busy : ∀ d e, (∃ h ∈ (view d).dbcs, (view d).envOf h = e) →
    ¬ (cli.call d (.freeHandle .env e)).1.Accepted
  free_unused : ∀ d e, e ∈ (view d).envs → (∀ h ∈ (view d).dbcs, (view d).envOf h ≠ e) →
    (cli.call d (.freeHandle .env e)).1.Accepted
  /-- No transaction is active on a connection that was just opened. -/
  connect_idle : ∀ d h db us pw, (cli.call d (.connect h db us pw)).1.Accepted →
    ¬ active (cli.call d (.connect h db us pw)).2 h
  attr_idle : ∀ d h, ¬ active d h → ¬ active (cli.call d (.setConnectAttr h)).2 h

namespace Books

/-- The counter `n` is the number of allocated connection handles, and an environment handle
is allocated exactly when there is one. -/
structure Counted (n : Nat) (b : Books) : Prop where
  count : n = b.dbcs.card
  environment : b.envs.Nonempty ↔ 0 < b.dbcs.card

/-- The connection handles are counted, in range and allocated on environment `e`. -/
structure On (n : Nat) (e : Handle) (b : Books) : Prop where
  count : n = b.dbcs.card
  envOf : ∀ h ∈ b.dbcs, b.envOf h = e
  range : ∀ h ∈ b.dbcs, h ≠ 0 ∧ -(2 ^ 31) ≤ h ∧ h < 2 ^ 31

/-- Between two operations the environment handle is held only for a connection, and every
connection is open. -/
structure Settled (n : Nat) (e : Handle) (b : Books) : Prop extends On n e b where
  envs : b.envs = if b.dbcs = ∅ then ∅ else {e}
  connected : b.connected = b.dbcs

variable {n : Nat} {e : Handle} {b : Books}

theorem Settled.counted (h : Settled n e b) : Counted n b := by
  refine ⟨h.count, ?_⟩
  rw [h.envs, Finset.card_pos]
  by_cases hd : b.dbcs = ∅
  · simp [hd]
  · simp [hd, Finset.nonempty_iff_ne_empty]

theorem On.settled (h : On n e b) (he : b.envs = {e}) (hc : b.connected = b.dbcs)
    (hd : b.dbcs ≠ ∅) : Settled n e b :=
  { h with
    envs := he.trans (if_neg hd).symm
    connected := hc }

/-- A range that holds zero holds fewer numbers other than zero than its length. -/
theorem card_lt_of_range {s : Finset Handle} {lo hi : Int} (hlo : lo ≤ 0) (hhi : 0 < hi)
    (h : ∀ x ∈ s, x ≠ 0 ∧ lo ≤ x ∧ x < hi) : s.card < (hi - lo).toNat := by
  have hsub : s ⊆ (Finset.Ico lo hi).erase 0 := by
    intro x hx
    obtain ⟨h0, hlo, hhi⟩ := h x hx
    exact Finset.mem_erase.mpr ⟨h0, Finset.mem_Ico.mpr ⟨hlo, hhi⟩⟩
  have hcard := Finset.card_le_card hsub
  rw [Finset.card_erase_of_mem (Finset.mem_Ico.mpr ⟨hlo, hhi⟩), Int.card_Ico] at hcard
  omega

/-- Fewer handles than the counter can count. -/
theorem On.card_lt (h : On n e b) : b.dbcs.card < 2 ^ 32 :=
  card_lt_of_range (by decide) (by decide) h.range

/-- One handle more. -/
theorem On.allocate {x : Handle} (h : On n e b) (hx : x ∉ b.dbcs)
    (hr : x ≠ 0 ∧ -(2 ^ 31) ≤ x ∧ x < 2 ^ 31) :
    On (countUp n) e (b.enter x (.allocHandle .dbc e)) := by
  have hrange : ∀ y ∈ insert x b.dbcs, y ≠ 0 ∧ -(2 ^ 31) ≤ y ∧ y < 2 ^ 31 := by
    intro y hy
    rcases Finset.mem_insert.mp hy with rfl | hy
    · exact hr
    · exact h.range y hy
  have henv : ∀ y ∈ insert x b.dbcs, Function.update b.envOf x e y = e := by
    intro y hy
    rcases Finset.mem_insert.mp hy with rfl | hy
    · exact Function.update_self _ _ _
    · have hne : y ≠ x := fun heq => hx (heq ▸ hy)
      rw [Function.update_of_ne hne]
      exact h.envOf y hy
  have hcard : (insert x b.dbcs).card = b.dbcs.card + 1 := Finset.card_insert_of_notMem hx
  have hlt : (insert x b.dbcs).card < 2 ^ 32 := card_lt_of_range (by decide) (by decide) hrange
  refine ⟨?_, henv, hrange⟩
  calc countUp n = n + 1 := countUp_of_lt (by rw [h.count]; omega)
    _ = (insert x b.dbcs).card := by rw [hcard, h.count]

/-- One handle less. -/
theorem On.free {x : Handle} (h : On n e b) (hx : x ∈ b.dbcs) :
    On (countDown n) e (b.enter 0 (.freeHandle .dbc x)) := by
  have hpos : 0 < b.dbcs.card := Finset.card_pos.mpr ⟨x, hx⟩
  refine ⟨?_, fun y hy => h.envOf y (Finset.mem_of_mem_erase hy),
    fun y hy => h.range y (Finset.mem_of_mem_erase hy)⟩
  calc countDown n = n - 1 := countDown_of_pos (h.count ▸ h.card_lt) (by rw [h.count]; omega)
    _ = (b.dbcs.erase x).card := by rw [Finset.card_erase_of_mem hx, h.count]

end Books

section Handles

variable (ho : Odbc cli view active) {t u : ConnWorld σ} {e : Handle}
include ho

/-- The release that ends every close. -/
theorem settled_release (h : (t.books view).On t.henvRefCnt e)
    (henv : (t.books view).envs = {e}) (hc : (t.books view).connected = (t.books view).dbcs) :
    ((t.issue cli (.freeHandle .env e)).books view).Settled t.henvRefCnt e := by
  rw [books_issue ho.toKeeps]
  by_cases hd : (t.books view).dbcs = ∅
  · have hacc : (t.reply cli (.freeHandle .env e)).Accepted := by
      apply ho.free_unused
      · exact henv ▸ Finset.mem_singleton_self e
      · intro x hx
        exact absurd (hd ▸ hx) (Finset.notMem_empty x)
    rw [Books.record_of_accepted hacc]
    refine ⟨⟨h.count, h.envOf, h.range⟩, ?_, hc⟩
    change (t.books view).envs.erase e = if (t.books view).dbcs = ∅ then ∅ else {e}
    rw [if_pos hd, henv, Finset.erase_singleton]
  · have hrej : ¬ (t.reply cli (.freeHandle .env e)).Accepted := by
      obtain ⟨x, hx⟩ := Finset.nonempty_iff_ne_empty.mpr hd
      exact ho.free_busy _ _ ⟨x, hx, h.envOf x hx⟩
    rw [Books.record_of_not_accepted hrej]
    exact h.settled henv hc hd

/-- Disconnecting changes the books only in the open connections and the statements. -/
theorem disconnected_idle {x : Handle}
    (hidle : x ∈ (t.books view).connected → ¬ active t.world.drv x) :
    ∃ stmts, (t.issue cli (.disconnect x)).books view =
      { t.books view with
        connected := (t.books view).connected.erase x
        stmts := stmts } := by
  rw [books_issue ho.toKeeps]
  by_cases hacc : (t.reply cli (.disconnect x)).Accepted
  · rw [Books.record_of_accepted hacc]
    exact ⟨_, rfl⟩
  · have hx : x ∉ (t.books view).connected := fun hmem =>
      hacc (ho.disconnect_idle _ _ hmem (hidle hmem))
    rw [Books.record_of_not_accepted hacc, Finset.erase_eq_of_notMem hx]
    exact ⟨_, rfl⟩

/-- Then the driver takes the handle back. -/
theorem freed_idle {x : Handle} (hx : x ∈ (t.books view).dbcs)
    (hidle : x ∈ (t.books view).connected → ¬ active t.world.drv x) :
    (((t.issue cli (.disconnect x)).uncounted).reply cli (.freeHandle .dbc x)).Accepted := by
  obtain ⟨stmts, hbooks⟩ := disconnected_idle ho hidle
  apply ho.free_disconnected
  · change x ∈ (((t.issue cli (.disconnect x)).uncounted).books view).dbcs
    rw [books_uncounted, hbooks]
    exact hx
  · change x ∉ (((t.issue cli (.disconnect x)).uncounted).books view).connected
    rw [books_uncounted, hbooks]
    exact Finset.notMem_erase x _

/-- A connection that is closed while idle gives its handle back. -/
theorem dropped_idle (h : (t.books view).On t.henvRefCnt e) {x : Handle}
    (hx : x ∈ (t.books view).dbcs)
    (hidle : x ∈ (t.books view).connected → ¬ active t.world.drv x) :
    ((t.dropped cli x).books view).On (t.dropped cli x).henvRefCnt e ∧
      ((t.dropped cli x).books view).envs = (t.books view).envs ∧
      ((t.dropped cli x).books view).dbcs = (t.books view).dbcs.erase x ∧
      ((t.dropped cli x).books view).connected = (t.books view).connected.erase x := by
  obtain ⟨stmts, hbooks⟩ := disconnected_idle ho hidle
  have hacc := freed_idle ho hx hidle
  rw [dropped_of_ne cli t (h.range x hx).1, books_issue ho.toKeeps, Books.record_of_accepted hacc,
    books_uncounted, hbooks]
  exact ⟨Books.On.free ⟨h.count, h.envOf, h.range⟩ hx, rfl, rfl, rfl⟩

/-- A close of a connection that is idle, in a state with the environment handle. -/
theorem closed_idle (h : (t.books view).On t.henvRefCnt t.henv)
    (henv : (t.books view).envs = {t.henv}) {x : Handle} (hx : x ∈ (t.books view).dbcs)
    (hidle : x ∈ (t.books view).connected → ¬ active t.world.drv x)
    (hc : (t.books view).connected.erase x = (t.books view).dbcs.erase x) :
    ((t.closed cli x).books view).Settled (t.closed cli x).henvRefCnt (t.closed cli x).henv ∧
      ((t.closed cli x).books view).dbcs = (t.books view).dbcs.erase x := by
  obtain ⟨hon, henvs, hdbcs, hconn⟩ := dropped_idle ho h hx hidle
  have hclosed := settled_release ho hon (henvs.trans henv) (by rw [hconn, hdbcs, hc])
  rw [closed_henv]
  unfold closed
  rw [dropped_henv]
  exact ⟨hclosed, (books_issue_dbcs ho.toKeeps _ fun _ _ => rfl).trans hdbcs⟩

/-! ### Opening -/

omit ho in
/-- The state of an open before it allocates its connection. -/
structure Requested (view : σ → Books) (t u : ConnWorld σ) : Prop where
  on : (u.books view).On u.henvRefCnt u.henv
  envs : (u.books view).envs = {u.henv}
  dbcs : (u.books view).dbcs = (t.books view).dbcs
  connected : (u.books view).connected = (u.books view).dbcs

theorem Requested.issue (h : Requested view t u) {c : CliCall}
    (hc : ∀ (b : Books) handle, b.enter handle c = b) : Requested view t (u.issue cli c) := by
  have hbooks := books_issue_same ho.toKeeps u hc
  constructor
  · exact hbooks ▸ h.on
  · exact hbooks ▸ h.envs
  · exact hbooks ▸ h.dbcs
  · exact hbooks ▸ h.connected

/-- The handler of an open that has not got a connection handle. -/
theorem Requested.closed (h : Requested view t u) :
    ((u.closed cli 0).books view).Settled (u.closed cli 0).henvRefCnt (u.closed cli 0).henv ∧
      ((u.closed cli 0).books view).dbcs = (t.books view).dbcs :=
  ⟨settled_release ho h.on h.envs h.connected,
    (books_issue_dbcs ho.toKeeps u fun _ _ => rfl).trans h.dbcs⟩

theorem requested_of_withEnvironment (hs : (t.books view).Settled t.henvRefCnt t.henv)
    (h : t.withEnvironment cli = .ok u) : Requested view t u := by
  obtain ⟨h0, rfl⟩ | ⟨h0, hrc, rfl⟩ := withEnvironment_ok h
  · have hne : (u.books view).dbcs ≠ ∅ := by
      intro hempty
      exact h0 (by rw [hs.count, hempty, Finset.card_empty])
    exact ⟨hs.toOn, hs.envs.trans (if_neg hne), rfl, hs.connected⟩
  · have hempty : (t.books view).dbcs = ∅ := Finset.card_eq_zero.mp (hs.count ▸ h0)
    have hbooks := (books_issue ho.toKeeps t (.allocHandle .env 0)).trans
      (Books.record_of_accepted (.of_success hrc))
    have hb : (t.environed cli).books view =
        { t.books view with envs := insert (t.environed cli).henv (t.books view).envs } := hbooks
    have henvs : (t.books view).envs = ∅ := hs.envs.trans (if_pos hempty)
    have hno : ∀ x, x ∉ (t.books view).dbcs := fun x hx => by simp [hempty] at hx
    constructor
    · rw [hb]
      exact ⟨hs.count, fun x hx => absurd hx (hno x), hs.range⟩
    · rw [hb, henvs]
      rfl
    · rw [hb]
    · rw [hb]
      exact hs.connected

theorem requested_of_requesting (hs : (t.books view).Settled t.henvRefCnt t.henv)
    (h : t.requesting cli = .ok u) : Requested view t u := by
  obtain ⟨t₁, ht₁, -, rfl⟩ := requesting_ok h
  exact (requested_of_withEnvironment ho hs ht₁).issue ho fun _ _ => rfl

omit ho in
/-- The state of an open that has called `SQLConnect` for handle `x`. -/
structure Opened (view : σ → Books) (active : σ → Handle → Prop) (t v : ConnWorld σ)
    (x : Handle) : Prop where
  on : (v.books view).On v.henvRefCnt v.henv
  envs : (v.books view).envs = {v.henv}
  dbcs : (v.books view).dbcs = insert x (t.books view).dbcs
  fresh : x ∉ (t.books view).dbcs
  connected : (v.books view).connected.erase x = (t.books view).dbcs
  idle : x ∈ (v.books view).connected → ¬ active v.world.drv x

/-- The handler of an open that has got a connection handle. -/
theorem Opened.closed {v : ConnWorld σ} {x : Handle} (h : Opened view active t v x) :
    ((v.closed cli x).books view).Settled (v.closed cli x).henvRefCnt (v.closed cli x).henv ∧
      ((v.closed cli x).books view).dbcs = (t.books view).dbcs := by
  have herase : (v.books view).dbcs.erase x = (t.books view).dbcs := by
    rw [h.dbcs, Finset.erase_insert h.fresh]
  have hx : x ∈ (v.books view).dbcs := h.dbcs ▸ Finset.mem_insert_self x _
  obtain ⟨hsettled, hdbcs⟩ := closed_idle ho h.on h.envs hx h.idle (h.connected.trans herase.symm)
  exact ⟨hsettled, hdbcs.trans herase⟩

/-- `SQLConnect` on a newly allocated handle. -/
theorem opened_of_requested (database user password : Str) (h : Requested view t u)
    (ha : (u.reply cli (.allocHandle .dbc u.henv)).rc = sqlSuccess) :
    Opened view active t (u.connected cli database user password) (u.newHandle cli) ∧
      (((u.allocated cli).reply cli
          (connectCall (u.newHandle cli) database user password)).Accepted →
        u.newHandle cli ∈ ((u.connected cli database user password).books view).connected) := by
  have hacc : (u.reply cli (.allocHandle .dbc u.henv)).Accepted := .of_success ha
  have hfresh : u.newHandle cli ∉ (u.books view).dbcs := ho.fresh u.world.drv .dbc u.henv hacc
  have hon := h.on.allocate hfresh (ho.range u.world.drv .dbc u.henv hacc)
  have hbooks : (u.allocated cli).books view =
      (u.books view).enter (u.newHandle cli) (.allocHandle .dbc u.henv) :=
    (books_issue ho.toKeeps u _).trans (Books.record_of_accepted hacc)
  have hconn : u.newHandle cli ∉ (u.books view).connected := h.connected ▸ hfresh
  have herase : (u.books view).connected.erase (u.newHandle cli) = (t.books view).dbcs := by
    rw [Finset.erase_eq_of_notMem hconn, h.connected, h.dbcs]
  have hdbcs : insert (u.newHandle cli) (u.books view).dbcs =
      insert (u.newHandle cli) (t.books view).dbcs := by rw [h.dbcs]
  obtain ⟨d, us, pw, hcall⟩ := connectCall_eq (u.newHandle cli) database user password
  unfold connected
  rw [hcall]
  by_cases hr : ((u.allocated cli).reply cli (.connect (u.newHandle cli) d us pw)).Accepted
  · have hv : ((u.allocated cli).issue cli (.connect (u.newHandle cli) d us pw)).books view =
        ((u.books view).enter (u.newHandle cli) (.allocHandle .dbc u.henv)).enter 0
          (.connect (u.newHandle cli) d us pw) := by
      rw [books_issue ho.toKeeps, Books.record_of_accepted hr, hbooks]
      rfl
    refine ⟨⟨?_, ?_, ?_, h.dbcs ▸ hfresh, ?_, fun _ => ho.connect_idle _ _ _ _ _ hr⟩, fun _ => ?_⟩
    · rw [hv]
      exact ⟨hon.count, hon.envOf, hon.range⟩
    · rw [hv]
      exact h.envs
    · rw [hv]
      exact hdbcs
    · rw [hv]
      exact (Finset.erase_insert hconn).trans (h.connected.trans h.dbcs)
    · rw [hv]
      exact Finset.mem_insert_self _ _
  · have hv : ((u.allocated cli).issue cli (.connect (u.newHandle cli) d us pw)).books view =
        (u.books view).enter (u.newHandle cli) (.allocHandle .dbc u.henv) := by
      rw [books_issue ho.toKeeps, Books.record_of_not_accepted hr, hbooks]
    refine ⟨⟨?_, ?_, ?_, h.dbcs ▸ hfresh, ?_, fun hmem => ?_⟩, fun hacc => absurd hacc hr⟩
    · rw [hv]
      exact hon
    · rw [hv]
      exact h.envs
    · rw [hv]
      exact hdbcs
    · rw [hv]
      exact herase
    · rw [hv] at hmem
      exact absurd hmem hconn

/-- Switching off auto commit starts no transaction. -/
theorem Opened.setConnectAttr {v : ConnWorld σ} {x : Handle} (h : Opened view active t v x)
    (hidle : ¬ active v.world.drv x) :
    Opened view active t (v.issue cli (.setConnectAttr x)) x := by
  have hbooks : (v.issue cli (.setConnectAttr x)).books view = v.books view :=
    books_issue_same ho.toKeeps v fun _ _ => rfl
  constructor
  · exact hbooks ▸ h.on
  · exact hbooks ▸ h.envs
  · exact hbooks ▸ h.dbcs
  · exact h.fresh
  · exact hbooks ▸ h.connected
  · exact fun _ => ho.attr_idle _ _ hidle

/-- A successful open adds its handle. -/
theorem opening_settled {database user password : Str} {x : Handle} {t' : ConnWorld σ}
    (hs : (t.books view).Settled t.henvRefCnt t.henv)
    (h : t.opening cli database user password = .ok (x, t')) :
    (t'.books view).Settled t'.henvRefCnt t'.henv ∧
      (t'.books view).dbcs = insert x (t.books view).dbcs ∧ x ∉ (t.books view).dbcs := by
  obtain ⟨u, hu, ha, hc, -, rfl, rfl⟩ := opening_ok h
  obtain ⟨hopened, hmem⟩ := opened_of_requested ho database user password
    (requested_of_requesting ho hs hu) ha
  have hx := hmem (.of_success hc)
  have hfinal := hopened.setConnectAttr ho (hopened.idle hx)
  have hconn : (((u.connected cli database user password).issue cli
      (.setConnectAttr (u.newHandle cli))).books view).connected =
      (((u.connected cli database user password).issue cli
        (.setConnectAttr (u.newHandle cli))).books view).dbcs := by
    have hsame := books_issue_same ho.toKeeps (u.connected cli database user password)
      (c := .setConnectAttr (u.newHandle cli)) fun _ _ => rfl
    calc _ = ((u.connected cli database user password).books view).connected := by rw [hsame]
      _ = insert (u.newHandle cli) (t.books view).dbcs := by
          rw [← hopened.connected, Finset.insert_erase hx]
      _ = _ := hfinal.dbcs.symm
  refine ⟨hfinal.on.settled hfinal.envs hconn ?_, hfinal.dbcs, hfinal.fresh⟩
  rw [hfinal.dbcs]
  exact Finset.insert_ne_empty _ _

omit ho in
/-- A failing allocation hands out no handle, unless it is the one stored for the environment. -/
def Failure.Clean (t : ConnWorld σ) (f : Failure σ) : Prop :=
  (f.stage = .handle → ¬ f.answer.Accepted) ∧
    (f.stage = .environment → f.answer.Accepted → f.answer.handle = t.henv)

/-- The environment handle could not be allocated. -/
theorem environment_settled (hs : (t.books view).Settled t.henvRefCnt t.henv)
    (h0 : t.henvRefCnt = 0)
    (hclean : (t.reply cli (.allocHandle .env 0)).Accepted →
      (t.reply cli (.allocHandle .env 0)).handle = t.henv) :
    (((t.issue cli (.allocHandle .env 0)).closed cli 0).books view).Settled t.henvRefCnt t.henv ∧
      (((t.issue cli (.allocHandle .env 0)).closed cli 0).books view).dbcs = (t.books view).dbcs := by
  have hempty : (t.books view).dbcs = ∅ := Finset.card_eq_zero.mp (hs.count ▸ h0)
  have henvs : (t.books view).envs = ∅ := hs.envs.trans (if_pos hempty)
  have hbooks := books_issue ho.toKeeps t (.allocHandle .env 0)
  have hdbcs : ((t.issue cli (.allocHandle .env 0)).books view).dbcs = (t.books view).dbcs :=
    books_issue_dbcs ho.toKeeps t fun _ _ => rfl
  refine ⟨?_, (books_issue_dbcs ho.toKeeps _ fun _ _ => rfl).trans hdbcs⟩
  by_cases hacc : (t.reply cli (.allocHandle .env 0)).Accepted
  · rw [Books.record_of_accepted hacc, hclean hacc] at hbooks
    apply settled_release ho (t := t.issue cli (.allocHandle .env 0))
    · rw [hbooks]
      exact ⟨hs.count, hs.envOf, hs.range⟩
    · rw [hbooks]
      exact congrArg (insert t.henv) henvs
    · rw [hbooks]
      exact hs.connected
  · rw [Books.record_of_not_accepted hacc] at hbooks
    have hrej :
        ¬ ((t.issue cli (.allocHandle .env 0)).reply cli (.freeHandle .env t.henv)).Accepted := by
      apply ho.unknown
      change t.henv ∉ ((t.issue cli (.allocHandle .env 0)).books view).envs
      rw [hbooks, henvs]
      exact Finset.notMem_empty _
    have hclosed : ((t.issue cli (.allocHandle .env 0)).closed cli 0).books view = t.books view :=
      (books_issue ho.toKeeps _ _).trans ((Books.record_of_not_accepted hrej).trans hbooks)
    rw [hclosed]
    exact hs

/-- A failed open whose handler runs leaves things settled. -/
theorem left_settled {database user password : Str} {f : Failure σ}
    (hs : (t.books view).Settled t.henvRefCnt t.henv)
    (hf : Fails cli database user password t f) (hr : f.Readable cli) (hclean : f.Clean t) :
    ((f.left cli).books view).Settled (f.left cli).henvRefCnt (f.left cli).henv ∧
      ((f.left cli).books view).dbcs = (t.books view).dbcs := by
  rw [Failure.left_of_readable hr]
  cases hf with
  | environment h0 hrc => exact environment_settled ho hs h0 (hclean.2 rfl)
  | version hu hrc =>
      exact ((requested_of_withEnvironment ho hs hu).issue ho fun _ _ => rfl).closed ho
  | @handle u hu hrc =>
      have hrej := hclean.1 rfl
      have hnull : u.newHandle cli = 0 := ho.null u.world.drv .dbc u.henv hrej
      have hbooks := (books_issue ho.toKeeps u (.allocHandle .dbc u.henv)).trans
        (Books.record_of_not_accepted hrej)
      have hq := requested_of_requesting ho hs hu
      have hq' : Requested view t (u.issue cli (.allocHandle .dbc u.henv)) :=
        ⟨hbooks ▸ hq.on, hbooks ▸ hq.envs, hbooks ▸ hq.dbcs, hbooks ▸ hq.connected⟩
      simp only [failed, hnull]
      exact hq'.closed ho
  | @connect u hu ha hrc =>
      exact (opened_of_requested ho database user password
        (requested_of_requesting ho hs hu) ha).1.closed ho
  | @autocommit u hu ha hc hrc =>
      obtain ⟨hopened, hmem⟩ := opened_of_requested ho database user password
        (requested_of_requesting ho hs hu) ha
      exact (hopened.setConnectAttr ho (hopened.idle (hmem (.of_success hc)))).closed ho

/-! ### What unsettles the counter -/

omit ho in
/-- A counter that goes down while the handles stay the same does not count them. -/
theorem not_counted_of_countDown {b : Books} {n m : Nat} (hn : n = b.dbcs.card)
    (hm : m = countDown n) : ¬ b.Counted m :=
  fun h => countDown_ne n (hm ▸ h.count.trans hn.symm)

/-- An allocation that hands out a connection handle with a code other than `SQL_SUCCESS`:
the handle is freed and counted down, but was never counted. -/
theorem handle_not_counted (hs : (t.books view).Settled t.henvRefCnt t.henv)
    (hu : t.requesting cli = .ok u) (hacc : (u.reply cli (.allocHandle .dbc u.henv)).Accepted) :
    ¬ (((u.issue cli (.allocHandle .dbc u.henv)).closed cli (u.newHandle cli)).books view).Counted
      ((u.issue cli (.allocHandle .dbc u.henv)).closed cli (u.newHandle cli)).henvRefCnt := by
  have hq := requested_of_requesting ho hs hu
  have hne : u.newHandle cli ≠ 0 := (ho.range u.world.drv .dbc u.henv hacc).1
  have hfresh : u.newHandle cli ∉ (u.books view).dbcs := ho.fresh u.world.drv .dbc u.henv hacc
  have hbooks := (books_issue ho.toKeeps u (.allocHandle .dbc u.henv)).trans
    (Books.record_of_accepted hacc)
  have hidle : u.newHandle cli ∈ ((u.issue cli (.allocHandle .dbc u.henv)).books view).connected →
      ¬ active (u.issue cli (.allocHandle .dbc u.henv)).world.drv (u.newHandle cli) := by
    intro hmem
    rw [hbooks] at hmem
    exact absurd (hq.connected ▸ hmem) hfresh
  have hmem : u.newHandle cli ∈ ((u.issue cli (.allocHandle .dbc u.henv)).books view).dbcs := by
    rw [hbooks]
    exact Finset.mem_insert_self _ _
  have hdbcs : (((u.issue cli (.allocHandle .dbc u.henv)).closed cli (u.newHandle cli)).books
      view).dbcs = (u.books view).dbcs := by
    rw [closed_dbcs ho.toKeeps _ _ hne, if_pos (freed_idle ho hmem hidle), hbooks]
    exact Finset.erase_insert hfresh
  apply not_counted_of_countDown (n := u.henvRefCnt)
  · rw [hdbcs]
    exact hq.on.count
  · exact (closed_henvRefCnt cli _ _).trans (if_pos hne)

/-- An environment handle that nobody stores: it stays allocated without a connection. -/
theorem environment_not_counted (hs : (t.books view).Settled t.henvRefCnt t.henv)
    (h0 : t.henvRefCnt = 0) (hacc : (t.reply cli (.allocHandle .env 0)).Accepted)
    (hne : (t.reply cli (.allocHandle .env 0)).handle ≠ t.henv) {n : Nat} :
    ¬ (((t.issue cli (.allocHandle .env 0)).closed cli 0).books view).Counted n := by
  have hempty : (t.books view).dbcs = ∅ := Finset.card_eq_zero.mp (hs.count ▸ h0)
  have henvs : (t.books view).envs = ∅ := hs.envs.trans (if_pos hempty)
  have hbooks := (books_issue ho.toKeeps t (.allocHandle .env 0)).trans
    (Books.record_of_accepted hacc)
  have hrej : ¬ ((t.issue cli (.allocHandle .env 0)).reply cli (.freeHandle .env t.henv)).Accepted := by
    apply ho.unknown
    change t.henv ∉ ((t.issue cli (.allocHandle .env 0)).books view).envs
    rw [hbooks]
    change t.henv ∉ insert (t.reply cli (.allocHandle .env 0)).handle (t.books view).envs
    rw [henvs]
    simpa using hne.symm
  have hclosed := (books_issue ho.toKeeps (t.issue cli (.allocHandle .env 0))
    (.freeHandle .env t.henv)).trans ((Books.record_of_not_accepted hrej).trans hbooks)
  intro h
  have hpos : 0 < (((t.issue cli (.allocHandle .env 0)).closed cli 0).books view).dbcs.card := by
    rw [← h.environment]
    refine ⟨(t.reply cli (.allocHandle .env 0)).handle, ?_⟩
    unfold closed
    rw [dropped_zero, issue_henv, hclosed]
    exact Finset.mem_insert_self _ _
  have hcard : (((t.issue cli (.allocHandle .env 0)).closed cli 0).books view).dbcs = ∅ := by
    unfold closed
    rw [dropped_zero, issue_henv, hclosed]
    exact hempty
  rw [hcard] at hpos
  exact absurd hpos (by simp)

/-- A connection with an active transaction: its handle stays, but is counted down. -/
theorem closed_active_not_counted (hs : (t.books view).Settled t.henvRefCnt t.henv) {x : Handle}
    (hx : x ∈ (t.books view).dbcs) (hact : active t.world.drv x) :
    ¬ ((t.closed cli x).books view).Counted (t.closed cli x).henvRefCnt := by
  have hne : x ≠ 0 := (hs.range x hx).1
  have hdisc := (books_issue ho.toKeeps t (.disconnect x)).trans
    (Books.record_of_not_accepted (ho.disconnect_active _ _ hact))
  have hrej : ¬ (((t.issue cli (.disconnect x)).uncounted).reply cli
      (.freeHandle .dbc x)).Accepted := by
    apply ho.free_connected
    change x ∈ (((t.issue cli (.disconnect x)).uncounted).books view).connected
    rw [books_uncounted, hdisc, hs.connected]
    exact hx
  apply not_counted_of_countDown (n := t.henvRefCnt)
  · rw [closed_dbcs ho.toKeeps t x hne, if_neg hrej]
    exact hs.count
  · exact (closed_henvRefCnt cli t x).trans (if_pos hne)

end Handles

/-! ## A driver that follows the rules -/

/-- Its state: the books, and the connections with an active transaction. -/
structure Desk where
  books : Books := {}
  active : Finset Handle := ∅

/-- The end of the handles. -/
def handleEnd : Handle := 2 ^ 31

/-- Its return codes. -/
def Desk.answer (d : Desk) : CliCall → Ret
  | .allocHandle _ _ => if d.books.next < handleEnd then sqlSuccess else -1
  | .freeHandle .env e =>
      if e ∈ d.books.envs ∧ ∀ h ∈ d.books.dbcs, d.books.envOf h ≠ e then sqlSuccess else -1
  | .freeHandle .dbc h =>
      if h ∈ d.books.dbcs ∧ h ∉ d.books.connected then sqlSuccess else -1
  | .freeHandle .stmt h => if h ∈ d.books.stmts then sqlSuccess else -1
  | .connect h _ _ _ => if h ∈ d.books.connected then -1 else sqlSuccess
  | .disconnect h =>
      if h ∈ d.books.connected ∧ h ∉ d.active then sqlSuccess else -1
  | _ => sqlSuccess

/-- The connections with an active transaction after an accepted call: executing a statement
starts one, ending it and opening the connection leave none. -/
def Desk.activeAfter (d : Desk) : CliCall → Finset Handle
  | .execDirect s _ | .execute s => insert (d.books.dbcOf s) d.active
  | .endTran h _ | .connect h _ _ _ => d.active.erase h
  | _ => d.active

/-- The driver. -/
def deskCli : Cli Desk where
  call d c :=
    let rc := d.answer c
    let handle := match c with
      | .allocHandle _ _ => if rc = sqlSuccess then d.books.next else 0
      | _ => 0
    ({ rc, handle }, { books := d.books.record c { rc, handle }, active := d.activeAfter c })
  diag _ _ _ := []

theorem Desk.accepted_iff {c : Prop} [Decidable c] {h : Handle} :
    ({ rc := if c then sqlSuccess else -1, handle := h } : Reply).Accepted ↔ c := by
  by_cases hc : c <;> simp [Reply.Accepted, hc, sqlSuccess, sqlSuccessWithInfo]

/-- The handle that answers an accepted allocation. -/
theorem deskCli_handle (d : Desk) (type : HandleType) (input : Handle) :
    (deskCli.call d (.allocHandle type input)).1.handle =
      if d.answer (.allocHandle type input) = sqlSuccess then d.books.next else 0 := rfl

theorem Desk.answer_alloc (d : Desk) (type : HandleType) (input : Handle) :
    d.answer (.allocHandle type input) = if d.books.next < handleEnd then sqlSuccess else -1 := rfl

theorem deskCli_alloc {d : Desk} {type : HandleType} {input : Handle}
    (h : (deskCli.call d (.allocHandle type input)).1.Accepted) :
    d.books.next < handleEnd ∧ (deskCli.call d (.allocHandle type input)).1.handle = d.books.next := by
  have hlt : d.books.next < handleEnd := Desk.accepted_iff.mp h
  refine ⟨hlt, ?_⟩
  rw [deskCli_handle, Desk.answer_alloc, if_pos hlt, if_pos rfl]

theorem deskCli_odbc : Odbc deskCli Desk.books (fun d h => h ∈ d.active) where
  records _ _ := rfl
  fresh d type input h := by
    rw [(deskCli_alloc h).2]
    exact d.books.next_notMem type
  range d type input h := by
    obtain ⟨hlt, hhandle⟩ := deskCli_alloc h
    have hpos : (0 : Int) < d.books.next := d.books.next_pos
    have hmin : -(2 ^ 31 : Int) ≤ d.books.next := by omega
    rw [hhandle]
    exact ⟨ne_of_gt hpos, hmin, hlt⟩
  null d type input h := by
    have hge : ¬ d.books.next < handleEnd := fun hlt => h (Desk.accepted_iff.mpr hlt)
    rw [deskCli_handle, Desk.answer_alloc, if_neg hge, if_neg (by decide)]
  unknown d type h hnot hacc := by
    cases type with
    | env => exact hnot (Desk.accepted_iff.mp hacc).1
    | dbc => exact hnot (Desk.accepted_iff.mp hacc).1
    | stmt => exact hnot (Desk.accepted_iff.mp hacc)
  disconnect_active d h hact hacc := (Desk.accepted_iff.mp hacc).2 hact
  disconnect_idle d h hmem hidle := Desk.accepted_iff.mpr ⟨hmem, hidle⟩
  free_connected d h hmem hacc := (Desk.accepted_iff.mp hacc).2 hmem
  free_disconnected d h hmem hnot := Desk.accepted_iff.mpr ⟨hmem, hnot⟩
  free_busy d e hbusy hacc := by
    obtain ⟨h, hmem, heq⟩ := hbusy
    exact (Desk.accepted_iff.mp hacc).2 h hmem heq
  free_unused d e hmem hunused := Desk.accepted_iff.mpr ⟨hmem, hunused⟩
  connect_idle d h db us pw _ := Finset.notMem_erase h d.active
  attr_idle d h hidle := hidle

end Dbgen3.Runtime
