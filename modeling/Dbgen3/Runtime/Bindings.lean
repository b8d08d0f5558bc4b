import Dbgen3.Runtime.Driver
import Dbgen3.Runtime.Runs
import Dbgen3.Runtime.Setup

/-!
# Bindings

The flag that a buffer is bound belongs to the buffer, the bindings belong to a
statement handle. A flagged buffer is bound to the handle it was bound to last,
as long as no other buffer of its kind was bound to that handle later.
-/

namespace Dbgen3.Runtime

open Act Runs Relation

variable {σ : Type} {cli : Cli σ} {bound : σ → Handle → BufType → Int → Option DataAddr}

/-! ## The bind calls of a trace -/

/-- The bind calls of a trace, in order. -/
def bindingsOf (tr : List (Event σ)) : List Binding := tr.filterMap fun e => e.call.binding

/-- A part of the last binding that satisfies `p`. -/
def lastOf {α : Type} (p : Binding → Bool) (f : Binding → α) (bs : List Binding) : Option α :=
  (bs.filter p).getLast?.map f

/-- The handle that buffer `b` was bound to last. -/
def lastHandle (b : BufId) : List Binding → Option Handle :=
  lastOf (fun x => x.data.buf == b) Binding.handle

/-- The buffer of kind `k` that was bound to handle `h` last. -/
def lastBuffer (h : Handle) (k : BufType) : List Binding → Option BufId :=
  lastOf (fun x => x.handle == h && x.kind == k) fun x => x.data.buf

/-- Buffer `b` was bound last to `h`, and `h` was bound last to `b`. -/
def Owns (bs : List Binding) (h : Handle) (k : BufType) (b : BufId) : Prop :=
  lastHandle b bs = some h ∧ lastBuffer h k bs = some b

theorem lastOf_append_of_none {α : Type} {p : Binding → Bool} {f : Binding → α}
    (bs : List Binding) {new : List Binding} (h : ∀ x ∈ new, p x = false) :
    lastOf p f (bs ++ new) = lastOf p f bs := by
  have hnil : new.filter p = [] := by
    apply List.filter_eq_nil_iff.mpr
    intro x hx
    simp [h x hx]
  unfold lastOf
  rw [List.filter_append, hnil, List.append_nil]

theorem lastOf_append_of_all {α : Type} {p : Binding → Bool} {f : Binding → α} {a : α}
    (bs : List Binding) {new : List Binding} (hne : new ≠ []) (h : ∀ x ∈ new, p x = true ∧ f x = a) :
    lastOf p f (bs ++ new) = some a := by
  have hall : new.filter p = new := by
    apply List.filter_eq_self.mpr
    exact fun x hx => (h x hx).1
  unfold lastOf
  rw [List.filter_append, hall, List.getLast?_append, List.getLast?_eq_some_getLast hne,
    Option.some_or, Option.map_some]
  exact congrArg some (h _ (List.getLast_mem hne)).2

/-! ## One pass over the attributes of a buffer -/

theorem bindCall_binding {n : Nat} (a : AttrRoot n) (bt : BufType) (h : Handle) (ndx : Int)
    (data : DataAddr) : (a.bindCall bt h ndx data).binding = some ⟨h, bt, int16 ndx, data⟩ := by
  cases bt <;> rfl

theorem bindCall_onStatement {n : Nat} (a : AttrRoot n) (bt : BufType) (h : Handle) (ndx : Int)
    (data : DataAddr) : (a.bindCall bt h ndx data).onStatement := by
  cases bt <;> trivial

/-- What binding `n` attributes of buffer `b` from position `pos` on may do, and what
it has done when it ends with `SQL_SUCCESS`. -/
structure Pass (bound : σ → Handle → BufType → Int → Option DataAddr) (b : BufId) (bt : BufType)
    (h : Handle) (pos n : Nat) (w w' : World σ) (rc : Ret) : Prop where
  heap : w'.heap = w.heap
  others : ∀ h' k ndx, ¬ (h' = h ∧ k = bt) → bound w'.drv h' k ndx = bound w.drv h' k ndx
  lower : pos + n < 2 ^ 15 → ∀ j : Nat, j ≤ pos → bound w'.drv h bt j = bound w.drv h bt j
  new : ∃ new, bindingsOf w'.trace = bindingsOf w.trace ++ new ∧
    (∀ x ∈ new, x.handle = h ∧ x.kind = bt ∧ x.data.buf = b) ∧ (n ≠ 0 → new ≠ [])
  idle : n = 0 → w' = w
  done : rc = sqlSuccess → pos + n < 2 ^ 15 →
    ∀ k < n, bound w'.drv h bt ((pos + k : Nat) + 1) = some ⟨b, pos + k⟩

theorem Pass.none {b : BufId} {bt : BufType} {h : Handle} {pos : Nat} (w : World σ) :
    Pass bound b bt h pos 0 w w sqlSuccess where
  heap := rfl
  others _ _ _ _ := rfl
  lower _ _ _ := rfl
  new := ⟨[], by simp, by simp, by simp⟩
  idle _ := rfl
  done _ _ k hk := absurd hk (Nat.not_lt_zero k)

section OneCall

variable {b : BufId} {bt : BufType} {h : Handle} {pos n : Nat} {w w' : World σ} {c : CliCall}
  {rc : Ret} (hk : KeepsBindings cli bound) (hon : c.onStatement)
  (hc : c.binding = some ⟨h, bt, int16 ((pos : Int) + 1), ⟨b, pos⟩⟩)

include hk hon hc

theorem bound_issue_others (h' : Handle) (k : BufType) (ndx : Int) (hne : ¬ (h' = h ∧ k = bt)) :
    bound (w.issue cli c).drv h' k ndx = bound w.drv h' k ndx := by
  apply hk.keep _ _ _ _ _ hon
  intro x hx hsame
  rw [hc] at hx
  obtain rfl := Option.some.inj hx
  exact hne ⟨hsame.1.symm, hsame.2.1.symm⟩

theorem bound_issue_lower (hlt : pos + 1 < 2 ^ 15) (j : Nat) (hj : j ≤ pos) :
    bound (w.issue cli c).drv h bt j = bound w.drv h bt j := by
  apply hk.keep _ _ _ _ _ hon
  intro x hx hsame
  rw [hc] at hx
  obtain rfl := Option.some.inj hx
  have hordinal := hsame.2.2
  dsimp only at hordinal
  rw [int16_eq_self (by omega) (by omega)] at hordinal
  omega

omit hk hon in
theorem bindingsOf_issue :
    bindingsOf (w.issue cli c).trace =
      bindingsOf w.trace ++ [⟨h, bt, int16 ((pos : Int) + 1), ⟨b, pos⟩⟩] := by
  simp [bindingsOf, hc]

/-- The call that fails is the last one of the pass. -/
theorem Pass.stopped (hrc : rc ≠ sqlSuccess) :
    Pass bound b bt h pos (n + 1) w (w.issue cli c) rc where
  heap := rfl
  others := bound_issue_others hk hon hc
  lower hlt j hj := bound_issue_lower hk hon hc (by omega) j hj
  new := ⟨_, bindingsOf_issue hc, by simp, by simp⟩
  idle hn := absurd hn (Nat.succ_ne_zero n)
  done hok := absurd hok hrc

/-- A call that succeeds, and the pass over the rest. -/
theorem Pass.cons (hrc : (cli.call w.drv c).1.rc = sqlSuccess)
    (hpass : Pass bound b bt h (pos + 1) n (w.issue cli c) w' rc) :
    Pass bound b bt h pos (n + 1) w w' rc where
  heap := hpass.heap
  others h' k ndx hne :=
    (hpass.others h' k ndx hne).trans (bound_issue_others hk hon hc h' k ndx hne)
  lower hlt j hj :=
    (hpass.lower (by omega) j (by omega)).trans
      (bound_issue_lower hk hon hc (by omega) j hj)
  new := by
    obtain ⟨new, hnew, hall, -⟩ := hpass.new
    refine ⟨_, by rw [hnew, bindingsOf_issue hc, List.append_assoc], ?_, by simp⟩
    intro x hx
    rcases List.mem_append.mp hx with hx | hx
    · obtain rfl := List.mem_singleton.mp hx
      exact ⟨rfl, rfl, rfl⟩
    · exact hall x hx
  idle hn := absurd hn (Nat.succ_ne_zero n)
  done := by
    intro hok hlt k hk'
    cases k with
    | zero =>
        have hbind := hk.bind w.drv c _ hc hrc
        dsimp only at hbind
        -- the later calls leave the ordinal of the first one alone
        calc bound w'.drv h bt ((pos + 0 : Nat) + 1)
            = bound w'.drv h bt (pos + 1 : Nat) := rfl
          _ = bound (w.issue cli c).drv h bt (pos + 1 : Nat) :=
              hpass.lower (by omega) (pos + 1) (by omega)
          _ = bound (w.issue cli c).drv h bt (int16 ((pos : Int) + 1)) := by
              rw [int16_eq_self (by omega) (by omega)]
              rfl
          _ = some ⟨b, pos⟩ := hbind
    | succ k =>
        have hlater := hpass.done hok (by omega) k (by omega)
        rw [show pos + (k + 1) = pos + 1 + k by omega]
        exact hlater

end OneCall

/-- The loop goes on after a bind call that succeeds. -/
theorem runOn_bindFrom_cons {m : Nat} (b : BufId) (bt : BufType) (h : Handle) (pos : Nat)
    (el : AttrRoot m) (rest : List (AttrRoot m)) (w : World σ) :
    let c := el.bindCall bt h ((pos : Int) + 1) ⟨b, pos⟩
    (bindFrom cli b bt h pos (el :: rest)).runOn w =
      if (cli.call w.drv c).1.rc = sqlSuccess then
        (bindFrom cli b bt h (pos + 1) rest).runOn (w.issue cli c)
      else (.ok (cli.call w.drv c).1.rc, w.issue cli c) := by
  intro c
  rw [bindFrom, runOn_bind_ok (runOn_cliCall cli w c)]
  by_cases hrc : (cli.call w.drv c).1.rc = sqlSuccess
  · rw [if_pos hrc, if_neg (not_not.mpr hrc)]
  · rw [if_neg hrc, if_pos hrc]
    rfl

theorem bindFrom_pass (hk : KeepsBindings cli bound) {m : Nat} (b : BufId) (bt : BufType)
    (h : Handle) (els : List (AttrRoot m)) (pos : Nat) (w : World σ) :
    ∃ rc w', (bindFrom cli b bt h pos els).runOn w = (.ok rc, w') ∧
      Pass bound b bt h pos els.length w w' rc := by
  induction els generalizing pos w with
  | nil => exact ⟨sqlSuccess, w, rfl, .none w⟩
  | cons el rest ih =>
      have hon := bindCall_onStatement el bt h ((pos : Int) + 1) ⟨b, pos⟩
      have hc := bindCall_binding el bt h ((pos : Int) + 1) ⟨b, pos⟩
      rw [runOn_bindFrom_cons]
      split
      · next hrc =>
          obtain ⟨rc, w', hrun, hpass⟩ := ih (pos + 1) (w.issue cli _)
          exact ⟨rc, w', hrun, .cons hk hon hc hrc hpass⟩
      · next hrc => exact ⟨_, _, rfl, .stopped hk hon hc hrc⟩

theorem runOn_bind_flagged {b : BufId} {w : World σ} (hf : (w.heap.bufs b).bind = true) (h : Handle) :
    (bind cli b h).runOn w = (.ok sqlSuccess, w) := by
  unfold bind
  rw [runOn_bind_ok (runOn_getHeap w), if_pos hf]
  rfl

/-- Binding a buffer whose flag is not set is one pass over its attributes, after
which the flag says whether the pass ended with `SQL_SUCCESS`. -/
theorem runOn_bind_unflagged (hk : KeepsBindings cli bound) {b : BufId} {w : World σ}
    (hf : (w.heap.bufs b).bind = false) (h : Handle) :
    ∃ rc w' w'', (bind cli b h).runOn w = (.ok rc, w'') ∧
      Pass bound b (w.heap.bufs b).bt h 0 (w.heap.bufs b).attributes.length w w' rc ∧
      w''.trace = w'.trace ∧ w''.drv = w'.drv ∧
      (∀ c, c ≠ b → w''.heap.bufs c = w.heap.bufs c) ∧
      w''.heap.bufs b = { w.heap.bufs b with bind := decide (rc = sqlSuccess) } := by
  obtain ⟨rc, w', hrun, hpass⟩ :=
    bindFrom_pass hk b (w.heap.bufs b).bt h (w.heap.bufs b).attributes 0 w
  have hbind : (bind cli b h).runOn w = (if rc ≠ sqlSuccess then pure rc else do
      modifyHeap fun hp => hp.updBuf b fun bf => { bf with bind := true }
      pure rc : Act (World σ) Exc Ret).runOn w' := by
    unfold bind rebind
    rw [runOn_bind_ok (runOn_getHeap w), if_neg (by simp [hf]), runOn_bind_ok (runOn_getHeap w),
      runOn_bind_ok hrun]
  by_cases hrc : rc = sqlSuccess
  · refine ⟨rc, w', { w' with heap := w'.heap.updBuf b fun bf => { bf with bind := true } },
      ?_, hpass, rfl, rfl, ?_, ?_⟩
    · rw [hbind, if_neg (by simp [hrc]), runOn_bind_ok (runOn_modifyHeap w' _)]
      rfl
    · intro c hc
      simp [hc, hpass.heap]
    · simp [hrc, hpass.heap]
  · refine ⟨rc, w', w', ?_, hpass, rfl, rfl, ?_, ?_⟩
    · rw [hbind, if_pos hrc]
      rfl
    · intro c _
      rw [hpass.heap]
    · rw [hpass.heap, decide_eq_false hrc, ← hf]

/-! ## The invariant -/

/-- Every attribute of buffer `b` is bound to `h` at its ordinal. -/
def AllBound (bound : σ → Handle → BufType → Int → Option DataAddr) (d : σ) (h : Handle)
    (b : BufId) (bf : Buffer) : Prop :=
  ∀ k < bf.attributes.length, bound d h bf.bt ((k : Int) + 1) = some ⟨b, k⟩

/-- A flagged buffer is bound to the handle it owns. -/
def BoundWhereOwned (bound : σ → Handle → BufType → Int → Option DataAddr) (w : World σ) : Prop :=
  ∀ b h, (w.heap.bufs b).bind = true → (w.heap.bufs b).attributes.length < 2 ^ 15 →
    Owns (bindingsOf w.trace) h (w.heap.bufs b).bt b → AllBound bound w.drv h b (w.heap.bufs b)

/-- The steps `exec` is made of, with the binding of one buffer as a single step. -/
inductive BindStep (cli : Cli σ) : World σ → World σ → Prop
  | call {w : World σ} {c : CliCall} (hs : c.onStatement) (hb : c.binding = none) :
      BindStep cli w (w.issue cli c)
  | execute {w : World σ} (h : Handle) : BindStep cli w (w.issueWriting cli (.execute h))
  | heap {w : World σ} {hp : Heap} (hb : hp.bufs = w.heap.bufs) :
      BindStep cli w { w with heap := hp }
  | pass {w : World σ} (b : BufId) (h : Handle) : BindStep cli w ((bind cli b h).runOn w).2

/-- Two buffers that do not differ in what a binding depends on. -/
structure SameShape (bf bf' : Buffer) : Prop where
  bind : bf'.bind = bf.bind
  bt : bf'.bt = bf.bt
  length : bf'.attributes.length = bf.attributes.length

theorem SameShape.refl (bf : Buffer) : SameShape bf bf := ⟨rfl, rfl, rfl⟩

theorem SameShape.trans {b₁ b₂ b₃ : Buffer} (h : SameShape b₁ b₂) (h' : SameShape b₂ b₃) :
    SameShape b₁ b₃ :=
  ⟨h'.bind.trans h.bind, h'.bt.trans h.bt, h'.length.trans h.length⟩

theorem updBuf_sameShape (hp : Heap) (c : BufId) {f : Buffer → Buffer}
    (hf : ∀ bf, SameShape bf (f bf)) (b : BufId) : SameShape (hp.bufs b) ((hp.updBuf c f).bufs b) := by
  by_cases hbc : b = c
  · subst hbc
    rw [Heap.updBuf_same]
    exact hf _
  · rw [Heap.updBuf_ne _ _ _ hbc]
    exact .refl _

/-- A write of the driver changes no flag and no list of attributes. -/
theorem write_sameShape (hp : Heap) (m : MemWrite) (b : BufId) :
    SameShape (hp.bufs b) ((hp.write m).bufs b) := by
  cases m with
  | processed c v =>
      rw [Heap.write]
      apply updBuf_sameShape
      exact fun bf => ⟨rfl, rfl, rfl⟩
  | status c i v =>
      rw [Heap.write]
      apply updBuf_sameShape
      exact fun bf => ⟨rfl, rfl, rfl⟩
  | occupied c v =>
      rw [Heap.write]
      apply updBuf_sameShape
      exact fun bf => ⟨rfl, rfl, rfl⟩
  | element data row v =>
      rw [Heap.write]
      apply updBuf_sameShape
      exact fun bf => ⟨rfl, rfl, by simp [Buffer.store]⟩

theorem writes_sameShape (ms : List MemWrite) (hp : Heap) (b : BufId) :
    SameShape (hp.bufs b) ((ms.foldl Heap.write hp).bufs b) := by
  induction ms generalizing hp with
  | nil => exact .refl _
  | cons m ms ih => exact (write_sameShape hp m b).trans (ih (hp.write m))

theorem AllBound.congr {d d' : σ} {h : Handle} {b : BufId} {bf bf' : Buffer}
    (hs : SameShape bf bf') (hd : ∀ ndx, bound d' h bf.bt ndx = bound d h bf.bt ndx)
    (hb : AllBound bound d h b bf) : AllBound bound d' h b bf' := by
  intro k hk
  rw [hs.bt, hd]
  exact hb k (by rwa [hs.length] at hk)

/-- Between worlds with the same bind calls, the same bindings and buffers of the same
shape, the invariant carries over. -/
theorem BoundWhereOwned.congr {w w' : World σ} (hw : BoundWhereOwned bound w)
    (hs : ∀ b, SameShape (w.heap.bufs b) (w'.heap.bufs b))
    (ht : bindingsOf w'.trace = bindingsOf w.trace)
    (hd : ∀ h k ndx, bound w'.drv h k ndx = bound w.drv h k ndx) : BoundWhereOwned bound w' := by
  intro b h hflag hlt ho
  rw [(hs b).bind] at hflag
  rw [(hs b).length] at hlt
  rw [(hs b).bt, ht] at ho
  exact (hw b h hflag hlt ho).congr (hs b) fun ndx => hd _ _ _

/-- A pass over the attributes of `b` on `h` cannot touch another buffer that still owns
its handle afterwards. -/
theorem Pass.keeps_owner {b c : BufId} {bt : BufType} {h h' : Handle} {n : Nat} {k : BufType}
    {w w' : World σ} {rc : Ret} (hp : Pass bound b bt h 0 n w w' rc) (hcb : c ≠ b)
    (ho : Owns (bindingsOf w'.trace) h' k c) :
    Owns (bindingsOf w.trace) h' k c ∧ (n = 0 ∨ ¬ (h' = h ∧ k = bt)) := by
  obtain ⟨new, ht, hall, hne⟩ := hp.new
  obtain ⟨hlast, hbuf⟩ := ho
  rw [ht] at hlast hbuf
  have hother : ∀ x ∈ new, (x.data.buf == c) = false := by
    intro x hx
    rw [(hall x hx).2.2]
    exact beq_false_of_ne (Ne.symm hcb)
  rw [lastHandle, lastOf_append_of_none _ hother] at hlast
  by_cases hsame : h' = h ∧ k = bt
  · -- the pass made no call: otherwise `b` would be the last buffer of the handle
    by_cases hn : n = 0
    · have hw := hp.idle hn
      rw [hw] at ht
      have hnil : new = [] := List.self_eq_append_right.mp ht
      rw [hnil, List.append_nil] at hbuf
      exact ⟨⟨hlast, hbuf⟩, .inl hn⟩
    · have hb : lastBuffer h' k (bindingsOf w.trace ++ new) = some b := by
        apply lastOf_append_of_all _ (hne hn)
        intro x hx
        obtain ⟨h₁, h₂, h₃⟩ := hall x hx
        exact ⟨by simp [h₁, h₂, hsame], h₃⟩
      rw [hbuf] at hb
      exact absurd (Option.some.inj hb) hcb
  · have hnone : ∀ x ∈ new, (x.handle == h' && x.kind == k) = false := by
      intro x hx
      obtain ⟨h₁, h₂, -⟩ := hall x hx
      rw [h₁, h₂]
      by_contra hcontra
      simp only [Bool.not_eq_false, Bool.and_eq_true, beq_iff_eq] at hcontra
      exact hsame ⟨hcontra.1.symm, hcontra.2.symm⟩
    rw [lastBuffer, lastOf_append_of_none _ hnone] at hbuf
    exact ⟨⟨hlast, hbuf⟩, .inr hsame⟩

theorem Pass.bound_eq {b : BufId} {bt k : BufType} {h h' : Handle} {n : Nat} {w w' : World σ}
    {rc : Ret} (hp : Pass bound b bt h 0 n w w' rc) (hne : n = 0 ∨ ¬ (h' = h ∧ k = bt)) (ndx : Int) :
    bound w'.drv h' k ndx = bound w.drv h' k ndx := by
  rcases hne with hn | hne
  · rw [hp.idle hn]
  · exact hp.others h' k ndx hne

/-- A completed pass leaves every attribute bound. -/
theorem Pass.allBound {b : BufId} {h : Handle} {w w' : World σ}
    (hp : Pass bound b (w.heap.bufs b).bt h 0 (w.heap.bufs b).attributes.length w w' sqlSuccess)
    (hlt : (w.heap.bufs b).attributes.length < 2 ^ 15) :
    AllBound bound w'.drv h b (w.heap.bufs b) := by
  intro k hk
  simpa using hp.done rfl (by omega) k hk

/-- A pass over an unflagged buffer keeps the invariant. -/
theorem boundWhereOwned_pass (hk : KeepsBindings cli bound) {w : World σ} (c : BufId) (hd : Handle)
    (hw : BoundWhereOwned bound w) : BoundWhereOwned bound ((bind cli c hd).runOn w).2 := by
  cases hf : (w.heap.bufs c).bind with
  | true =>
      rw [runOn_bind_flagged hf]
      exact hw
  | false =>
      obtain ⟨rc, w', w'', hrun, hpass, htrace, hdrv, hother, hself⟩ := runOn_bind_unflagged hk hf hd
      rw [hrun]
      intro b h hflag hlt ho
      dsimp only at hflag hlt ho ⊢
      rw [htrace] at ho
      rw [hdrv]
      by_cases hbc : b = c
      · -- the flag is set by a pass that ended with success
        subst hbc
        rw [hself] at hflag hlt ho ⊢
        obtain rfl := of_decide_eq_true hflag
        obtain ⟨new, hnew, hall, hne⟩ := hpass.new
        intro k hk'
        have hlast : lastHandle b (bindingsOf w'.trace) = some hd := by
          rw [hnew]
          apply lastOf_append_of_all _ (hne (Nat.ne_zero_of_lt hk'))
          intro x hx
          exact ⟨by simp [(hall x hx).2.2], (hall x hx).1⟩
        obtain rfl : h = hd := Option.some.inj (ho.1.symm.trans hlast)
        exact hpass.allBound hlt k hk'
      · -- another buffer: either it no longer owns the handle or it was not touched
        rw [hother b hbc] at hflag hlt ho ⊢
        obtain ⟨ho', hne⟩ := hpass.keeps_owner hbc ho
        exact (hw b h hflag hlt ho').congr (.refl _) fun ndx => hpass.bound_eq hne ndx

theorem boundWhereOwned_step (hk : KeepsBindings cli bound) {w w' : World σ}
    (hstep : BindStep cli w w') (hw : BoundWhereOwned bound w) : BoundWhereOwned bound w' := by
  cases hstep with
  | @call c hs hb =>
      apply hw.congr
      · exact fun b => .refl _
      · simp [bindingsOf, hb]
      · intro h k ndx
        exact hk.keep w.drv c h k ndx hs (by simp [hb])
  | execute hd =>
      apply hw.congr
      · exact fun b => writes_sameShape _ _ b
      · simp [bindingsOf, CliCall.binding]
      · intro h k ndx
        exact hk.keep w.drv (.execute hd) h k ndx trivial (by simp [CliCall.binding])
  | @heap hp hb =>
      apply hw.congr
      · intro b
        dsimp only
        rw [hb]
        exact .refl _
      · rfl
      · exact fun _ _ _ => rfl
  | pass c hd => exact boundWhereOwned_pass hk c hd hw

/-! ## The steps of `exec` -/

theorem within_bindStep {E α : Type} {P : CliCall → Prop} {m : Act (World σ) E α}
    (hm : Within (QuietStep cli P False) m) (hP : ∀ c, P c → c.onStatement ∧ c.binding = none) :
    Within (BindStep cli) m := by
  apply hm.mono
  intro w w' hstep
  cases hstep with
  | call hc => exact .call (hP _ hc).1 (hP _ hc).2
  | heap _ hf => exact .heap (hf.resolve_left id)

theorem within_bindStep_ifOk {u : UtlId} {rc : Ret} {step : Act (World σ) Exc Ret}
    (h : Within (BindStep cli) step) : Within (BindStep cli) (Utl.ifOk u rc step) := by
  apply Within.ite
  · refine h.bind fun rc => Within.bind (fun w => ?_) fun _ => within_pure rc
    exact .single (.heap rfl)
  · exact within_pure rc

theorem within_bindStep_bindSlot (u : UtlId) (slot : Utl → Option BufId) (rc : Ret) :
    Within (BindStep cli) (Utl.bindSlot cli u slot rc) := by
  refine Within.bind (within_of_fixed fun _ => rfl) fun hp => ?_
  cases slot (hp.utls u) with
  | none => exact within_pure rc
  | some b => exact within_bindStep_ifOk fun w => .single (.pass b _)

theorem within_bindStep_exec (u : UtlId) (sql : Str) :
    Within (BindStep cli) (Utl.exec cli u sql) := by
  have hset : ∀ c : CliCall, ((∃ h a v, c = .setStmtAttr h a v) ∨ ∃ h sql, c = .prepare h sql) →
      c.onStatement ∧ c.binding = none := by
    rintro c (⟨h, a, v, rfl⟩ | ⟨h, sql, rfl⟩)
    · exact ⟨trivial, rfl⟩
    · exact ⟨trivial, rfl⟩
  have hprep : Within (BindStep cli) (Utl.prepareAll cli u sql) :=
    within_bindStep (Utl.within_prepareAll (fun h a v => .inl ⟨h, a, v, rfl⟩)
      fun h sql => .inr ⟨h, sql, rfl⟩) hset
  have hsetup : Within (BindStep cli) (Utl.setup cli u sql) :=
    hprep.bind fun rc => (within_bindStep_bindSlot u _ rc).bind fun rc =>
      within_bindStep_bindSlot u _ rc
  have hexec : ∀ s, Within (BindStep cli) (Statement.exec cli s) := by
    intro s
    refine Within.bind (within_of_fixed fun _ => rfl) fun hp => ?_
    refine Within.bind (fun w => ?_) fun r => within_of_fixed (chk_state s r.rc false)
    exact .single (.execute _)
  refine Within.bind (within_of_fixed fun _ => rfl) fun hp => hsetup.bind fun rc => ?_
  refine (within_bindStep_ifOk (hexec _)).bind fun rc => Within.ite ?_ (within_pure _)
  exact within_of_fixed (handleReturnCode_state _ _ _)

/-- Every method call of a client keeps the invariant. -/
theorem boundWhereOwned_op (hk : KeepsBindings cli bound) (u : UtlId) (op : UtlOp) {w : World σ}
    (hw : BoundWhereOwned bound w) : BoundWhereOwned bound (op.step cli u w) := by
  cases op with
  | setOccupied b v =>
      apply hw.congr
      · intro c
        exact updBuf_sameShape w.heap b (f := fun bf => { bf with occupied := v })
          (fun bf => ⟨rfl, rfl, rfl⟩) c
      · rfl
      · exact fun _ _ _ => rfl
  | setParBuf p => exact hw.congr (fun b => .refl _) rfl fun _ _ _ => rfl
  | setResBuf r => exact hw.congr (fun b => .refl _) rfl fun _ _ _ => rfl
  | exec sql =>
      exact (within_bindStep_exec u sql).keeps (I := BoundWhereOwned bound)
        (fun _ _ hstep hs => boundWhereOwned_step hk hstep hs) hw

end Dbgen3.Runtime
