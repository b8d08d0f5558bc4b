import Dbgen3.Runtime.Batches
import Mathlib.Data.Set.Function

/-!
# Interleaved programs

The query objects of a connection share the driver and the heap. Where each has a
parameter buffer and a handle of its own, the calls on one of them leave the others
alone, and in every interleaving each sends what it would send alone.
-/

namespace Dbgen3.Runtime

open Act Runs Simulation

variable {σ : Type} {cli : Cli σ} {attr : σ → Handle → StmtAttr → Int}
  {bound : σ → Handle → BufType → Int → Option DataAddr}

/-! ## One call beside another query object -/

/-- A change of another buffer. -/
theorem ParReady.updBuf_ne {u : UtlId} {p c : BufId} {w : World σ} (h : ParReady bound u p w)
    (hne : p ≠ c) {f : Buffer → Buffer} (hf : ∀ b, (f b).bt = b.bt) :
    ParReady bound u p { w with heap := w.heap.updBuf c f } := by
  have hself : (w.heap.updBuf c f).bufs p = w.heap.bufs p := Heap.updBuf_ne _ _ _ hne
  constructor
  · exact h.parBuf
  · rw [hself]
    exact h.bt
  · intro r hr
    by_cases hrc : r = c
    · subst hrc
      rw [Heap.updBuf_same, hf]
      exact h.resBuf r hr
    · rw [Heap.updBuf_ne _ _ _ hrc]
      exact h.resBuf r hr
  · rw [hself]
    exact h.small
  · rw [hself]
    exact h.flag

section

variable {u v : UtlId} {p q : BufId} {n m : Nat} {attrs attrs' : List AttrDscr} {hd hv : Handle}
  {before before' : List (List (List (Option Cell)))} {w : World σ} {b b' : Batch}

/-- The buffers of another query object are bound beside. -/
theorem AtBatch.besideUtl (h : AtBatch attr bound u p n attrs hd before w b)
    (h' : AtBatch attr bound v q m attrs' hv before' w b') (hbuf : q ≠ p) (hne : hv ≠ hd) :
    BesideUtl u p v w.heap := by
  have hhandle : w.heap.handle v ≠ w.heap.handle u := by rwa [h.handle, h'.handle]
  rintro c (hpar | hres)
  · obtain rfl : q = c := Option.some.inj (h'.ready.parBuf.symm.trans hpar)
    exact ⟨fun heq => absurd heq hbuf, fun _ heq => absurd heq hhandle⟩
  · refine ⟨fun heq => ?_, fun _ heq => absurd heq hhandle⟩
    have hbt := h'.ready.resBuf c hres
    rw [heq, h.ready.bt] at hbt
    cases hbt

/-- A call of another query object changes neither the size of a batch nor what is sent. -/
theorem exec_beside (hd' : RunsBatches cli attr) (hpar : (w.heap.utls v).parBuf = some q)
    (hne : w.heap.handle v ≠ hd) (bound : σ → Handle → BufType → Int → Option DataAddr)
    (sql : Str) (cols : Nat) :
    attr ((Utl.exec cli v sql).runOn w).2.drv hd .paramsetSize = attr w.drv hd .paramsetSize ∧
      sentIn attr bound hd cols ((Utl.exec cli v sql).runOn w).2.trace =
        sentIn attr bound hd cols w.trace := by
  have hsized : attr (Utl.sized cli v q w).drv hd .paramsetSize = attr w.drv hd .paramsetSize := by
    unfold Utl.sized
    rw [Utl.runOn_setSize]
    split
    · exact hd'.attrs.keep _ _ hd .paramsetSize trivial fun x heq =>
        hne (CliCall.setStmtAttr.inj heq).1
    · rfl
  have hsetup := (attr_setup hd' sql hpar hd).trans hsized
  obtain ⟨new, hnew, ⟨w₁, hw₁, -, htrace⟩ | ⟨hno, htrace⟩⟩ := Utl.exec_new_events cli v sql w
  · obtain ⟨hp, hstate, -⟩ := Utl.runOn_exec_of_setsUp hw₁
    have hattr : attr (Utl.executed cli v w₁).drv hd .paramsetSize =
        attr w₁.drv hd .paramsetSize := hd'.attrs.keep _ _ _ _ trivial nofun
    have hcall : ∀ e ∈ [Utl.executeEvent cli v w₁], e.call ≠ .execute hd := by
      intro e he heq
      obtain rfl := List.mem_singleton.mp he
      rw [Utl.executeEvent, hw₁.reach.heap.handle_eq v] at heq
      exact hne (CliCall.execute.inj heq)
    rw [show (Utl.setup cli v sql).runOn w = _ from hw₁] at hsetup
    refine ⟨?_, ?_⟩
    · rw [hstate]
      exact hattr.trans hsetup
    · rw [htrace, sentIn_append, sentIn_append, sentIn_setup hnew, sentIn_of_ne hcall,
        List.append_nil, List.append_nil]
  · rw [Utl.exec_state_of_not_setsUp hno] at htrace ⊢
    exact ⟨hsetup, by rw [htrace, sentIn_append, sentIn_setup hnew, List.append_nil]⟩

/-- The machine of a query object stands still while another one is called. -/
theorem AtBatch.beside (hd' : RunsBatches cli attr) (hk : KeepsBindings cli bound)
    (h : AtBatch attr bound u p n attrs hd before w b)
    (h' : AtBatch attr bound v q m attrs' hv before' w b') (hbuf : q ≠ p) (hne : hv ≠ hd)
    (op : InsertOp) : AtBatch attr bound u p n attrs hd before (InsertOp.step cli v q w op) b := by
  have hupd : ∀ f : Buffer → Buffer, (∀ c, (f c).bt = c.bt) →
      AtBatch attr bound u p n attrs hd before { w with heap := w.heap.updBuf q f } b := by
    intro f hf
    have hself : (w.heap.updBuf q f).bufs p = w.heap.bufs p := Heap.updBuf_ne _ _ _ hbuf.symm
    have hrows : SameRows (w.heap.bufs p) ((w.heap.updBuf q f).bufs p) := by
      rw [hself]
      exact ⟨rfl, rfl, fun _ => rfl, rfl⟩
    have hend := h.change { w with heap := w.heap.updBuf q f } rfl
      (h.ready.updBuf_ne hbuf.symm hf) hrows _ h.size h.size_le [] (List.append_nil _).symm
    rwa [List.append_nil] at hend
  cases op with
  | set k i x => exact hupd _ fun c => rfl
  | setOccupied x => exact hupd (fun c => { c with occupied := x }) fun c => rfl
  | exec sql =>
      obtain ⟨hready, hhandle, hrows⟩ := exec_keeps hd' hk sql (h.besideUtl h' hbuf hne) h.ready
      obtain ⟨hattr, hsent⟩ := exec_beside hd' h'.ready.parBuf (by rwa [h'.handle])
        bound sql attrs.length
      have hend := h.change _ (hhandle u) hready hrows _ ((congrArg batchRows hattr).trans h.size)
        h.size_le [] (hsent.trans (List.append_nil _).symm)
      rwa [List.append_nil] at hend

end

/-! ## Any interleaving -/

/-- The parameter buffer of a query object: its identity, its rows and its attributes. -/
structure ParBuffer where
  buf : BufId
  rows : Nat
  attrs : List AttrDscr

/-- New query objects `us` with new parameter buffers and handles of their own. -/
structure Separate (attr : σ → Handle → StmtAttr → Int) (us : Set UtlId) (ps : UtlId → ParBuffer)
    (w : World σ) : Prop where
  new : ∀ u ∈ us, NewInsert attr u (ps u).buf (ps u).rows (ps u).attrs w
  bufs : Set.InjOn (fun u => (ps u).buf) us
  handles : Set.InjOn w.heap.handle us

/-- One step of a program that calls its query objects in any order. -/
def insertStep (cli : Cli σ) (ps : UtlId → ParBuffer) (w : World σ) (op : UtlId × InsertOp) :
    World σ := InsertOp.step cli op.1 (ps op.1).buf w op.2

/-- The machine of a query object. -/
def batchStep (ps : UtlId → ParBuffer) (u : UtlId) : Batch → InsertOp → Batch → Prop :=
  Batch.Step (ps u).rows ((ps u).attrs.map AttrDscr.width)

section

variable {us : Set UtlId} {ps : UtlId → ParBuffer} {w : World σ} {handle : UtlId → Handle}
  {before : UtlId → List (List (List (Option Cell)))} {b : UtlId → Batch}

/-- Every query object is where its machine is. -/
def AllAtBatch (attr : σ → Handle → StmtAttr → Int)
    (bound : σ → Handle → BufType → Int → Option DataAddr) (us : Set UtlId)
    (ps : UtlId → ParBuffer) (handle : UtlId → Handle)
    (before : UtlId → List (List (List (Option Cell)))) (w : World σ) (b : UtlId → Batch) : Prop :=
  ∀ u ∈ us, AtBatch attr bound u (ps u).buf (ps u).rows (ps u).attrs (handle u) (before u) w (b u)

/-- A call of one query object is a step of its machine, and no step of the others. -/
theorem AllAtBatch.exists_step (hd' : RunsBatches cli attr) (hk : KeepsBindings cli bound)
    (hi : ∀ u ∈ us, Insertable (ps u).rows (ps u).attrs)
    (hbufs : Set.InjOn (fun u => (ps u).buf) us) (hhandles : Set.InjOn handle us)
    (h : AllAtBatch attr bound us ps handle before w b) {v : UtlId} (hv : v ∈ us) {op : InsertOp}
    (hop : op.Allowed (ps v).rows (ps v).attrs) :
    ∃ b', Interleaved (batchStep ps) b (v, op) b' ∧
      AllAtBatch attr bound us ps handle before (insertStep cli ps w (v, op)) b' := by
  obtain ⟨c, hstep, hc⟩ := (h v hv).exists_step hd' hk (hi v hv) hop
  refine ⟨_, .step b hstep, fun u hu => ?_⟩
  by_cases huv : u = v
  · subst huv
    rw [Function.update_self]
    exact hc
  · rw [Function.update_of_ne huv]
    exact (h u hu).beside hd' hk (h v hv) (fun heq => huv (hbufs hu hv heq.symm))
      (fun heq => huv (hhandles hu hv heq.symm)) op

end

/-! ## Two query objects -/

theorem RefDriver.keepsBindings_batchCli (p : BufId) :
    KeepsBindings (RefDriver.batchCli p) RefDriver.bound where
  bind d c b hb hrc := by
    rw [(RefDriver.batchCli_call p d c).1] at hrc
    rw [(RefDriver.batchCli_call p d c).2]
    exact (RefDriver.keepsBindings []).bind d c b hb hrc
  keep d c h k ndx hc hne := by
    rw [(RefDriver.batchCli_call p d c).2]
    exact (RefDriver.keepsBindings []).keep d c h k ndx hc hne

/-- A buffer of ten rows with an integer. -/
def tenRows (u : UtlId) : ParBuffer := ⟨Utl.memberBuf u .par, 10, [⟨4, 0, 4⟩]⟩

theorem insertable_tenRows (u : UtlId) : Insertable (tenRows u).rows (tenRows u).attrs where
  storable := by
    rintro t ht
    obtain rfl := List.mem_singleton.mp ht
    decide
  cols := (by decide : 1 < 2 ^ 15)
  rows := (by decide : 1 ≤ 10)
  size := (by decide : 10 < 2 ^ 32)

/-- The constructor of a generated class with such a buffer. -/
def newTenRows (u : UtlId) (w : World RefDriver) : World RefDriver :=
  ((Utl.newGenerated (RefDriver.batchCli 0) u 1 "insert into t values (?)" []
    (some (10, [⟨4, 0, 4⟩])) none).runOn w).2

/-- Two query objects of the class. -/
def twoObjects : World RefDriver := newTenRows 1 (newTenRows 0 (World.start {}))

theorem separate_twoObjects : Separate RefDriver.attr {0, 1} tenRows twoObjects where
  new u hu := by
    rcases hu with rfl | rfl
    · exact ⟨rfl, nofun, rfl, rfl⟩
    · exact ⟨rfl, nofun, rfl, rfl⟩
  bufs u _ v _ h := Nat.eq_of_mul_eq_mul_left (by decide : 0 < 2) h
  handles u hu v hv h := by
    have hne : twoObjects.heap.handle 0 ≠ twoObjects.heap.handle 1 := by decide
    rcases hu with rfl | rfl
    · rcases hv with rfl | rfl
      · rfl
      · exact absurd h hne
    · rcases hv with rfl | rfl
      · exact absurd h.symm hne
      · rfl

/-- The rows of one are set while the other one executes. -/
def interleavedInserts : List (UtlId × InsertOp) :=
  [(0, .set 0 0 (some [1, 0, 0, 0])), (1, .set 0 0 none), (0, .setOccupied 2),
    (1, .setOccupied 1), (1, .exec []), (0, .set 0 1 (some [2, 0, 0, 0])), (0, .exec []),
    (1, .exec [])]

theorem allowed_interleavedInserts : ∀ op ∈ interleavedInserts, op.1 ∈ ({0, 1} : Set UtlId) ∧
    op.2.Allowed (tenRows op.1).rows (tenRows op.1).attrs := by
  have hset : ∀ (i : Nat) (b : UInt8),
      (InsertOp.set 0 i (some [b, 0, 0, 0])).Allowed 10 [⟨4, 0, 4⟩] := by
    rintro i b t ht bytes ⟨rfl⟩ -
    obtain rfl := Option.some.inj ht
    rfl
  have hnull : (InsertOp.set 0 0 none).Allowed 10 [⟨4, 0, 4⟩] := fun _ _ _ h => by cases h
  have hocc : ∀ v ≤ 10, (InsertOp.setOccupied v).Allowed 10 [⟨4, 0, 4⟩] := fun _ h => h
  have hzero : (0 : UtlId) ∈ ({0, 1} : Set UtlId) := .inl rfl
  have hone : (1 : UtlId) ∈ ({0, 1} : Set UtlId) := .inr rfl
  unfold interleavedInserts
  simp only [List.forall_mem_cons]
  exact ⟨⟨hzero, hset 0 1⟩, ⟨hone, hnull⟩, ⟨hzero, hocc 2 (by decide)⟩,
    ⟨hone, hocc 1 (by decide)⟩, ⟨hone, trivial⟩, ⟨hzero, hset 1 2⟩, ⟨hzero, trivial⟩,
    ⟨hone, trivial⟩, nofun⟩

/-- The second row of the first object was set while the other one executed. -/
example : ((actionsOf 0 interleavedInserts).foldl (Batch.step 10 [4]) (.new 1)).sent =
    [[[some [1, 0, 0, 0]], [some [2, 0, 0, 0]]]] := by
  decide

end Dbgen3.Runtime
