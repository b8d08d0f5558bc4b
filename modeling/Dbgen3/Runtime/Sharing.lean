import Dbgen3.Runtime.Bindings

/-!
# Sharing buffers between statements

`exec` does not bind a buffer whose flag is set. Everything is still bound at
`SQLExecute` as long as such a buffer owns the handle of the statement it is
given to.
-/

namespace Dbgen3.Runtime

open Act Runs Relation

variable {σ : Type} {cli : Cli σ} {bound : σ → Handle → BufType → Int → Option DataAddr}

/-! ## At `SQLExecute` -/

/-- One of the two buffer pointers of query object `u` is `b`. -/
def Heap.Holds (hp : Heap) (u : UtlId) (b : BufId) : Prop :=
  (hp.utls u).parBuf = some b ∨ (hp.utls u).resBuf = some b

/-- Every attribute of the buffers of `u` is bound to its handle. -/
def BoundAt (bound : σ → Handle → BufType → Int → Option DataAddr) (u : UtlId) (d : σ)
    (hp : Heap) : Prop :=
  ∀ b, hp.Holds u b → AllBound bound d (hp.handle u) b (hp.bufs b)

/-- Before `exec`: ordinals fit 16 bits, a flagged buffer owns the handle, and the two
pointers do not compete for the same ordinals. -/
structure Ready (u : UtlId) (w : World σ) : Prop where
  small : ∀ b, w.heap.Holds u b → (w.heap.bufs b).attributes.length < 2 ^ 15
  owned : ∀ b, w.heap.Holds u b → (w.heap.bufs b).bind = true → (w.heap.bufs b).attributes ≠ [] →
    Owns (bindingsOf w.trace) (w.heap.handle u) (w.heap.bufs b).bt b
  apart : ∀ p r, (w.heap.utls u).parBuf = some p → (w.heap.utls u).resBuf = some r → p ≠ r →
    (w.heap.bufs p).bt ≠ (w.heap.bufs r).bt ∨ (w.heap.bufs p).attributes = [] ∨
      (w.heap.bufs r).attributes = []

theorem allBound_of_nil {d : σ} {h : Handle} {b : BufId} {bf : Buffer} (hnil : bf.attributes = []) :
    AllBound bound d h b bf := by
  intro k hk
  simp [hnil] at hk

/-- A successful `bind` leaves the buffer bound, if it was bound where its flag said so. -/
theorem bind_allBound (hk : KeepsBindings cli bound) {b : BufId} {h : Handle} {w w' : World σ}
    (hrun : (bind cli b h).runOn w = (.ok sqlSuccess, w'))
    (hlt : (w.heap.bufs b).attributes.length < 2 ^ 15)
    (hflag : (w.heap.bufs b).bind = true → AllBound bound w.drv h b (w.heap.bufs b)) :
    AllBound bound w'.drv h b (w.heap.bufs b) := by
  cases hf : (w.heap.bufs b).bind with
  | true =>
      rw [runOn_bind_flagged hf, Prod.mk.injEq] at hrun
      rw [← hrun.2]
      exact hflag hf
  | false =>
      obtain ⟨rc, t, w'', hrun', hpass, -, hdrv, -, -⟩ := runOn_bind_unflagged hk hf h
      rw [hrun', Prod.mk.injEq, Except.ok.injEq] at hrun
      obtain ⟨rfl, rfl⟩ := hrun
      rw [hdrv]
      exact hpass.allBound hlt

/-- Binding one buffer leaves a bound buffer of the other kind bound. -/
theorem bind_keeps (hk : KeepsBindings cli bound) {b c : BufId} {h : Handle} {w w' : World σ}
    {rc : Ret} (hrun : (bind cli b h).runOn w = (.ok rc, w'))
    (hapart : (w.heap.bufs c).bt ≠ (w.heap.bufs b).bt ∨ (w.heap.bufs b).attributes = [])
    (hc : AllBound bound w.drv h c (w.heap.bufs c)) :
    AllBound bound w'.drv h c (w.heap.bufs c) := by
  cases hf : (w.heap.bufs b).bind with
  | true =>
      rw [runOn_bind_flagged hf, Prod.mk.injEq] at hrun
      rwa [← hrun.2]
  | false =>
      obtain ⟨rc', t, w'', hrun', hpass, -, hdrv, -, -⟩ := runOn_bind_unflagged hk hf h
      rw [hrun', Prod.mk.injEq] at hrun
      rw [← hrun.2, hdrv]
      apply hc.congr (.refl _)
      intro ndx
      apply hpass.bound_eq
      rcases hapart with hbt | hnil
      · exact .inr fun hsame => hbt hsame.2
      · exact .inl (by simp [hnil])

theorem bindSlot_other_bufs {u : UtlId} {slot : Utl → Option BufId} {w w' : World σ}
    (hk : KeepsBindings cli bound)
    (h : (Utl.bindSlot cli u slot sqlSuccess).runOn w = (.ok sqlSuccess, w')) {c : BufId}
    (hc : slot (w.heap.utls u) ≠ some c) : w'.heap.bufs c = w.heap.bufs c := by
  obtain ⟨-, ⟨-, rfl⟩ | ⟨b, t, hslot, hrun, rfl⟩⟩ := Utl.bindSlot_eq_success h
  · rfl
  · have hcb : c ≠ b := by
      rintro rfl
      exact hc hslot
    rw [World.setRc_bufs]
    cases hf : (w.heap.bufs b).bind with
    | true =>
        rw [runOn_bind_flagged hf, Prod.mk.injEq] at hrun
        rw [← hrun.2]
    | false =>
        obtain ⟨rc, t', w'', hrun', -, -, -, hother, -⟩ :=
          runOn_bind_unflagged hk hf (w.heap.handle u)
        rw [hrun', Prod.mk.injEq] at hrun
        rw [← hrun.2]
        exact hother c hcb

/-- The step for one pointer: its buffer ends up bound. -/
theorem bindSlot_allBound (hk : KeepsBindings cli bound) {u : UtlId} {slot : Utl → Option BufId}
    {w w' : World σ} {b : BufId}
    (h : (Utl.bindSlot cli u slot sqlSuccess).runOn w = (.ok sqlSuccess, w'))
    (hslot : slot (w.heap.utls u) = some b) (hlt : (w.heap.bufs b).attributes.length < 2 ^ 15)
    (hflag : (w.heap.bufs b).bind = true →
      AllBound bound w.drv (w.heap.handle u) b (w.heap.bufs b)) :
    AllBound bound w'.drv (w.heap.handle u) b (w.heap.bufs b) := by
  obtain ⟨-, ⟨hnone, -⟩ | ⟨b', t, hsome, hrun, rfl⟩⟩ := Utl.bindSlot_eq_success h
  · rw [hslot] at hnone
    cases hnone
  · obtain rfl : b = b' := Option.some.inj (hslot.symm.trans hsome)
    rw [World.setRc_drv]
    exact bind_allBound hk hrun hlt hflag

/-- The step for one pointer keeps a bound buffer it does not compete with. -/
theorem bindSlot_keeps (hk : KeepsBindings cli bound) {u : UtlId} {slot : Utl → Option BufId}
    {w w' : World σ} {c : BufId}
    (h : (Utl.bindSlot cli u slot sqlSuccess).runOn w = (.ok sqlSuccess, w'))
    (hapart : ∀ b, slot (w.heap.utls u) = some b →
      (w.heap.bufs c).bt ≠ (w.heap.bufs b).bt ∨ (w.heap.bufs b).attributes = [])
    (hc : AllBound bound w.drv (w.heap.handle u) c (w.heap.bufs c)) :
    AllBound bound w'.drv (w.heap.handle u) c (w.heap.bufs c) := by
  obtain ⟨-, ⟨-, rfl⟩ | ⟨b, t, hsome, hrun, rfl⟩⟩ := Utl.bindSlot_eq_success h
  · exact hc
  · rw [World.setRc_drv]
    exact bind_keeps hk hrun (hapart b hsome) hc

namespace Utl.Phases

variable {u : UtlId} {sql : Str} {w wp wr ws wb w₁ : World σ}

/-- The steps before the binding set no flag. -/
theorem bufs_prep (h : Phases cli u sql w wp wr ws wb w₁) : ws.heap.bufs = w.heap.bufs := by
  have hpar := bufs_of_runOn (P := fun _ => True)
    (within_prepareParameterBuffer fun _ _ _ _ => trivial) h.par
  have hres := bufs_of_runOn (P := fun _ => True)
    (within_prepareResultBuffer fun _ _ _ _ => trivial) h.res
  have hprep := bufs_of_runOn (P := fun _ => True) (within_prepare fun _ _ => trivial) h.prep
  exact hprep.trans (hres.trans hpar)

/-- The steps before the binding bind nothing. -/
theorem bound_prep (hk : KeepsBindings cli bound) (h : Phases cli u sql w wp wr ws wb w₁)
    (hd : Handle) (k : BufType) (ndx : Int) : bound ws.drv hd k ndx = bound w.drv hd k ndx := by
  have hkeep : ∀ d c, (c.onStatement ∧ c.binding = none) →
      bound (cli.call d c).2 hd k ndx = bound d hd k ndx :=
    fun d c hc => hk.keep d c hd k ndx hc.1 (by simp [hc.2])
  have hpar := view_of_runOn (fun d => bound d hd k ndx)
    (within_prepareParameterBuffer (F := True) fun _ _ _ _ => ⟨trivial, rfl⟩) hkeep h.par
  have hres := view_of_runOn (fun d => bound d hd k ndx)
    (within_prepareResultBuffer (F := True) fun _ _ _ _ => ⟨trivial, rfl⟩) hkeep h.res
  have hprep := view_of_runOn (fun d => bound d hd k ndx)
    (within_prepare (F := True) fun _ _ => ⟨trivial, rfl⟩) hkeep h.prep
  exact hprep.trans (hres.trans hpar)

end Utl.Phases

theorem allBound_quiet_iff {hp hp' : Heap} (hq : hp.Quiet hp') {d : σ} {h : Handle} {b : BufId} :
    AllBound bound d h b (hp'.bufs b) ↔ AllBound bound d h b (hp.bufs b) := by
  unfold AllBound
  rw [hq.attributes_length, hq.bt]

/-- Two different buffers of one query object that both have attributes are of different
kinds. -/
theorem Ready.bt_ne {u : UtlId} {w : World σ} (hr : Ready u w) {p r : BufId}
    (hp : (w.heap.utls u).parBuf = some p) (hres : (w.heap.utls u).resBuf = some r) (hpr : p ≠ r)
    (hpne : (w.heap.bufs p).attributes ≠ []) (hrne : (w.heap.bufs r).attributes ≠ []) :
    (w.heap.bufs p).bt ≠ (w.heap.bufs r).bt :=
  (hr.apart p r hp hres hpr).resolve_right fun hnil => hnil.elim hpne hrne

section

variable {u : UtlId} {sql : Str} {w wp wr ws wb w₁ : World σ} (hk : KeepsBindings cli bound)
  (hw : BoundWhereOwned bound w) (hr : Ready u w) (h : Utl.Phases cli u sql w wp wr ws wb w₁)

include hk hw hr h

/-- A flagged buffer is bound when the binding starts. -/
theorem Utl.Phases.bound_start (b : BufId) (hb : w.heap.Holds u b)
    (hflag : (w.heap.bufs b).bind = true) :
    AllBound bound ws.drv (w.heap.handle u) b (w.heap.bufs b) := by
  by_cases hnil : (w.heap.bufs b).attributes = []
  · exact allBound_of_nil hnil
  · apply (hw b _ hflag (hr.small b hb) (hr.owned b hb hflag hnil)).congr (.refl _)
    exact fun ndx => h.bound_prep hk _ _ ndx

/-- The parameter buffer is bound by its own step. -/
theorem Utl.Phases.bound_par (p : BufId) (hp : (w.heap.utls u).parBuf = some p) :
    AllBound bound wb.drv (w.heap.handle u) p (w.heap.bufs p) := by
  have hqs := h.quiet_prep.trans (World.setRc_quiet ws u sqlSuccess)
  rw [← allBound_quiet_iff hqs, ← hqs.handle_eq u]
  apply bindSlot_allBound hk h.bindPar (by rw [hqs.parBuf, hp])
  · rw [hqs.attributes_length]
    exact hr.small p (.inl hp)
  · intro hflag
    rw [World.setRc_bufs, h.bufs_prep] at hflag
    rw [allBound_quiet_iff hqs, hqs.handle_eq u]
    exact h.bound_start hk hw hr p (.inl hp) hflag

/-- A flagged result buffer is still bound after that step. -/
theorem Utl.Phases.bound_res_start (r : BufId) (hres : (w.heap.utls u).resBuf = some r)
    (hflag : (wb.heap.bufs r).bind = true) :
    AllBound bound wb.drv (w.heap.handle u) r (w.heap.bufs r) := by
  have hqs := h.quiet_prep.trans (World.setRc_quiet ws u sqlSuccess)
  by_cases hnil : (w.heap.bufs r).attributes = []
  · exact allBound_of_nil hnil
  by_cases hpr : (w.heap.utls u).parBuf = some r
  · exact h.bound_par hk hw hr r hpr
  · have hother := bindSlot_other_bufs hk h.bindPar (c := r) (by rwa [hqs.parBuf])
    rw [World.setRc_bufs, h.bufs_prep] at hother
    rw [hother] at hflag
    rw [← allBound_quiet_iff hqs, ← hqs.handle_eq u]
    apply bindSlot_keeps hk h.bindPar
    · intro p hp
      rw [hqs.parBuf] at hp
      rw [hqs.bt, hqs.bt, World.setRc_bufs, h.bufs_prep]
      by_cases hpnil : (w.heap.bufs p).attributes = []
      · exact .inr hpnil
      · have hne : p ≠ r := by
          rintro rfl
          exact hpr hp
        exact .inl (hr.bt_ne hp hres hne hpnil hnil).symm
    · rw [allBound_quiet_iff hqs, hqs.handle_eq u]
      exact h.bound_start hk hw hr r (.inr hres) hflag

/-- The result buffer is bound by its own step. -/
theorem Utl.Phases.bound_res (r : BufId) (hres : (w.heap.utls u).resBuf = some r) :
    AllBound bound w₁.drv (w.heap.handle u) r (w.heap.bufs r) := by
  have hqb := h.quiet_bindPar
  rw [← allBound_quiet_iff hqb, ← hqb.handle_eq u]
  apply bindSlot_allBound hk h.bindRes (by rw [hqb.resBuf, hres])
  · rw [hqb.attributes_length]
    exact hr.small r (.inr hres)
  · intro hflag
    rw [allBound_quiet_iff hqb, hqb.handle_eq u]
    exact h.bound_res_start hk hw hr r hres hflag

/-- The parameter buffer is left alone by the step of the other one. -/
theorem Utl.Phases.bound_par_end (p : BufId) (hp : (w.heap.utls u).parBuf = some p)
    (hres : (w.heap.utls u).resBuf ≠ some p) :
    AllBound bound w₁.drv (w.heap.handle u) p (w.heap.bufs p) := by
  have hqb := h.quiet_bindPar
  by_cases hnil : (w.heap.bufs p).attributes = []
  · exact allBound_of_nil hnil
  rw [← allBound_quiet_iff hqb, ← hqb.handle_eq u]
  apply bindSlot_keeps hk h.bindRes
  · intro r hr'
    rw [hqb.resBuf] at hr'
    have hne : p ≠ r := by
      rintro rfl
      exact hres hr'
    rw [hqb.bt, hqb.bt]
    by_cases hrnil : (w.heap.bufs r).attributes = []
    · right
      have hlen := hqb.attributes_length r
      rw [hrnil] at hlen
      exact List.length_eq_zero_iff.mp hlen
    · exact .inl (hr.bt_ne hp hr' hne hnil hrnil)
  · rw [allBound_quiet_iff hqb, hqb.handle_eq u]
    exact h.bound_par hk hw hr p hp

end

/-- Where the invariant holds and `exec` is ready, everything is bound at `SQLExecute`. -/
theorem boundAt_of_ready (hk : KeepsBindings cli bound) {u : UtlId} {sql : Str} {w w₁ : World σ}
    (hw : BoundWhereOwned bound w) (hr : Ready u w) (h : Utl.SetsUp cli u sql w w₁) :
    BoundAt bound u w₁.drv w₁.heap := by
  obtain ⟨wp, wr, ws, wb, hph⟩ := h.phases
  have hq := h.reach.heap
  intro b hb
  rw [Heap.Holds, hq.parBuf, hq.resBuf] at hb
  rw [hq.handle_eq, allBound_quiet_iff hq]
  by_cases hres : (w.heap.utls u).resBuf = some b
  · exact hph.bound_res hk hw hr b hres
  · exact hph.bound_par_end hk hw hr b (hb.resolve_right hres) hres

/-! ## Runs of many query objects -/

/-- In a run in which every `exec` is ready, every attribute of the current buffers is
bound to the statement's handle whenever `exec` reaches `SQLExecute`. -/
theorem run_boundAt (hk : KeepsBindings cli bound) (ops : List (UtlId × UtlOp)) (w : World σ)
    (hflags : ∀ b, (w.heap.bufs b).bind = false)
    (hready : AllSteps (fun w (op : UtlId × UtlOp) => op.2.step cli op.1 w)
      (fun w op => ∀ sql, op.2 = .exec sql → Ready op.1 w) ops w) :
    AllSteps (fun w (op : UtlId × UtlOp) => op.2.step cli op.1 w)
      (fun w op => ∀ sql, op.2 = .exec sql → ∀ w₁, Utl.SetsUp cli op.1 sql w w₁ →
        BoundAt bound op.1 w₁.drv w₁.heap) ops w := by
  have hstart : BoundWhereOwned bound w := by
    intro b h hflag
    rw [hflags b] at hflag
    cases hflag
  refine AllSteps.of_invariant (I := BoundWhereOwned bound) ?_ ?_ hready hstart
  · intro s op hs _
    exact boundWhereOwned_op hk op.1 op.2 hs
  · intro s op hs hr sql hop w₁ hw₁
    exact boundAt_of_ready hk hs (hr sql hop) hw₁

/-- Two query objects on handles one and two; `buf` says which result buffer each has. -/
def twoSelects (buf : UtlId → BufId) : World RefDriver where
  drv := {}
  heap :=
    { bufs := fun _ => { bt := .res, arrSize := 1, attributes := [AttrRoot.new 1 4 0 4] }
      stmts := fun s => { sql := "select c from t", handle := s + 1 }
      utls := fun u => { s := u, resBuf := some (buf u) } }

/-- With a buffer each, a repeated `exec` finds its buffer still bound. -/
theorem run_boundAt_own_buffers :
    AllSteps (fun w (op : UtlId × UtlOp) => op.2.step (RefDriver.cli []) op.1 w)
      (fun w op => ∀ sql, op.2 = .exec sql → ∀ w₁, Utl.SetsUp (RefDriver.cli []) op.1 sql w w₁ →
        BoundAt RefDriver.bound op.1 w₁.drv w₁.heap)
      [(0, .exec []), (1, .exec []), (0, .exec [])] (twoSelects id) := by
  apply run_boundAt (RefDriver.keepsBindings []) _ _ (fun _ => rfl)
  simp only [allSteps_cons, allSteps_nil, and_true]
  refine ⟨?_, ?_, ?_⟩
  · rintro sql -
    refine ⟨?_, ?_, ?_⟩
    · rintro b (⟨⟨⟩⟩ | ⟨⟨⟩⟩)
      decide
    · rintro b - ⟨⟩
    · rintro p r ⟨⟩
  · rintro sql -
    refine ⟨?_, ?_, ?_⟩
    · rintro b (⟨⟨⟩⟩ | ⟨⟨⟩⟩)
      decide
    · rintro b (⟨⟨⟩⟩ | ⟨⟨⟩⟩) ⟨⟩
    · rintro p r ⟨⟩
  · rintro sql -
    refine ⟨?_, ?_, ?_⟩
    · rintro b (⟨⟨⟩⟩ | ⟨⟨⟩⟩)
      decide
    · rintro b (⟨⟨⟩⟩ | ⟨⟨⟩⟩) - -
      exact ⟨by decide, by decide⟩
    · rintro p r ⟨⟩

/-- With one buffer for both, the second query object executes without a bound column. -/
theorem run_boundAt_shared_buffer :
    KeepsBindings (RefDriver.cli []) RefDriver.bound ∧
    (∀ b, ((twoSelects fun _ => 0).heap.bufs b).bind = false) ∧
    ¬ AllSteps (fun w (op : UtlId × UtlOp) => op.2.step (RefDriver.cli []) op.1 w)
      (fun w op => ∀ sql, op.2 = .exec sql → ∀ w₁, Utl.SetsUp (RefDriver.cli []) op.1 sql w w₁ →
        BoundAt RefDriver.bound op.1 w₁.drv w₁.heap)
      [(0, .exec []), (1, .exec [])] (twoSelects fun _ => 0) := by
  refine ⟨RefDriver.keepsBindings [], fun _ => rfl, ?_⟩
  intro h
  have hsecond := h [(0, .exec [])] (1, .exec []) [] rfl [] rfl _ rfl 0 (.inr rfl) 0 (by decide)
  revert hsecond
  decide

end Dbgen3.Runtime
