import Dbgen3.Runtime.BatchSize

/-!
# Rows beyond the end of a buffer

The number of occupied rows is whatever the caller says, and `exec` hands it to
the driver as the size of the batch. The driver then reads as many rows and
writes as many statuses, and `dump` reads as many statuses as were processed.
-/

namespace Dbgen3.Runtime

open Act Runs

section

variable {σ : Type} {cli : Cli σ} {attr : σ → Handle → StmtAttr → Int}

/-! ## Set-up from the size of the batch on -/

namespace Utl

/-- The set-up phase behind the step that sets the size of the batch, which left `rc`. -/
def afterSize (cli : Cli σ) (u : UtlId) (s : StmtId) (p : BufId) (sql : Str) (rc : Ret) :
    Act (World σ) Exc Ret := do
  let rc ← assignRc u (setParPointers cli u s p rc)
  let rc ← ifOk u rc (prepareResultBuffer cli u)
  let rc ← ifOk u rc (Statement.prepare cli s sql)
  let rc ← bindSlot cli u Utl.parBuf rc
  bindSlot cli u Utl.resBuf rc

/-- The step that sets the size of the batch. -/
def setSize (cli : Cli σ) (u : UtlId) (s : StmtId) (n : Nat) : Act (World σ) Exc Ret :=
  assignIf u (1 < n) sqlSuccess (Statement.setAttr cli s .paramsetSize (int32 n))

/-- With a parameter buffer the set-up phase starts with the size of its batch. -/
theorem runOn_setup {u : UtlId} {p : BufId} {w : World σ} (sql : Str)
    (hp : (w.heap.utls u).parBuf = some p) :
    (setup cli u sql).runOn w =
      (setSize cli u (w.heap.utls u).s (w.heap.bufs p).occupied >>=
        afterSize cli u (w.heap.utls u).s p sql).runOn
          ((w.setRc u sqlSuccess).setRc u sqlSuccess) := by
  have hq := (World.setRc_quiet w u sqlSuccess).trans (World.setRc_quiet _ u sqlSuccess)
  have hpar : (((w.setRc u sqlSuccess).setRc u sqlSuccess).heap.utls u).parBuf = some p := by
    rw [hq.parBuf, hp]
  unfold setup prepareAll
  rw [bind_assoc, runOn_bind_ok (runOn_getHeap w), bind_assoc,
    runOn_bind_ok (runOn_assignRc_pure u sqlSuccess w)]
  change ((ifOk u sqlSuccess (prepareParameterBuffer cli u) >>= _) >>= _).runOn
    (w.setRc u sqlSuccess) = _
  rw [ifOk, assignIf, if_pos rfl]
  unfold assignRc prepareParameterBuffer
  simp only [bind_assoc]
  rw [runOn_bind_ok (runOn_assignRc_pure u sqlSuccess (w.setRc u sqlSuccess))]
  change (getHeap >>= _).runOn ((w.setRc u sqlSuccess).setRc u sqlSuccess) = _
  rw [runOn_bind_ok (runOn_getHeap _), hq.stmt, hpar]
  unfold setSize afterSize assignRc
  simp only [bind_assoc]
  rfl

/-- No call of the rest sets the size of the batch. -/
theorem within_afterSize (u : UtlId) (s : StmtId) (p : BufId) (sql : Str) (rc : Ret) :
    Within (QuietStep cli (CliCall.keeps .paramsetSize) True) (afterSize cli u s p sql rc) := by
  have hbind : ∀ (slot : Utl → Option BufId) (rc : Ret),
      Within (QuietStep cli (CliCall.keeps .paramsetSize) True) (bindSlot cli u slot rc) :=
    fun _ _ => within_bindSlot trivial fun el bt => bindCall_keeps _ el bt
  refine (within_assignRc ?_).bind fun rc => (within_ifOk ?_).bind fun rc =>
    (within_ifOk ?_).bind fun rc => (hbind _ rc).bind fun rc => hbind _ rc
  · exact within_setParPointers fun h b v hv _ => keeps_of_pointer _ b h hv
  · refine within_prepareResultBuffer fun h b v hb => ?_
    rcases hb with rfl | rfl
    · exact keeps_of_ne (by decide) h v
    · exact keeps_of_ne (by decide) h v
  · exact within_prepare fun _ _ => ⟨trivial, by simp⟩

/-- The call that sets the size of a batch, as `exec` makes it. -/
def sizeEvent (cli : Cli σ) (u : UtlId) (p : BufId) (w : World σ) : Event σ :=
  let c : CliCall :=
    .setStmtAttr (w.heap.handle u) .paramsetSize (.int (int32 (w.heap.bufs p).occupied))
  ⟨c, (cli.call w.drv c).1.rc, w.drv, ((w.setRc u sqlSuccess).setRc u sqlSuccess).heap⟩

theorem runOn_setSize (u : UtlId) (s : StmtId) (n : Nat) (w : World σ) :
    (setSize cli u s n).runOn w =
      if 1 < n then
        let rc := (cli.call w.drv
          (.setStmtAttr (w.heap.stmts s).handle .paramsetSize (.int (int32 n)))).1.rc
        (.ok rc, (w.setAttr cli s .paramsetSize (.int (int32 n))).setRc u rc)
      else (.ok sqlSuccess, w) := by
  unfold setSize assignIf
  split
  · exact runOn_bind_ok (runOn_setAttr s .paramsetSize (int32 n) w) _
  · rfl

/-- The world behind the step that sets the size of the batch. -/
def sized (cli : Cli σ) (u : UtlId) (p : BufId) (w : World σ) : World σ :=
  ((setSize cli u (w.heap.utls u).s (w.heap.bufs p).occupied).runOn
    ((w.setRc u sqlSuccess).setRc u sqlSuccess)).2

section

variable {u : UtlId} {p : BufId} {w : World σ}

/-- The size is set only above one. -/
theorem sized_trace (u : UtlId) (p : BufId) (w : World σ) :
    (sized cli u p w).trace =
      w.trace ++ if 1 < (w.heap.bufs p).occupied then [sizeEvent cli u p w] else [] := by
  unfold sized
  rw [runOn_setSize]
  split
  · rfl
  · exact (List.append_nil _).symm

/-- Behind the step the set-up phase goes on without another size. -/
theorem runOn_setup_sized (sql : Str) (hp : (w.heap.utls u).parBuf = some p) :
    ∃ rc, (setup cli u sql).runOn w =
      (afterSize cli u (w.heap.utls u).s p sql rc).runOn (sized cli u p w) := by
  have hrun : ∃ rc, (setSize cli u (w.heap.utls u).s (w.heap.bufs p).occupied).runOn
      ((w.setRc u sqlSuccess).setRc u sqlSuccess) = (.ok rc, sized cli u p w) := by
    unfold sized
    rw [runOn_setSize]
    split
    · exact ⟨_, rfl⟩
    · exact ⟨_, rfl⟩
  obtain ⟨rc, hrun⟩ := hrun
  rw [runOn_setup sql hp, runOn_bind_ok hrun]
  exact ⟨rc, rfl⟩

/-- The set-up phase hands over the number of occupied rows, if it is above one. -/
theorem setup_trace (sql : Str) (hp : (w.heap.utls u).parBuf = some p) :
    ∃ new, ((setup cli u sql).runOn w).2.trace =
        w.trace ++ (if 1 < (w.heap.bufs p).occupied then [sizeEvent cli u p w] else []) ++ new ∧
      ∀ e ∈ new, e.call.keeps .paramsetSize := by
  obtain ⟨rc, hrun⟩ := @runOn_setup_sized σ cli u p w sql hp
  obtain ⟨new, htrace, hnew⟩ := (quietReach (within_afterSize u _ p sql rc) (sized cli u p w)).trace
  rw [hrun, htrace, sized_trace]
  exact ⟨new, rfl, hnew⟩

/-- What `exec` hands over: the size of the batch first, if it is above one, and no other
size. -/
theorem exec_trace (sql : Str) (hp : (w.heap.utls u).parBuf = some p) :
    ∃ new, ((exec cli u sql).runOn w).2.trace =
        w.trace ++ ((if 1 < (w.heap.bufs p).occupied then [sizeEvent cli u p w] else []) ++ new) ∧
      ∀ e ∈ new, ∀ h v, e.call ≠ .setStmtAttr h .paramsetSize (.int v) := by
  obtain ⟨new, htrace, hnew⟩ := @setup_trace σ cli u p w sql hp
  rw [List.append_assoc] at htrace
  by_cases h : ∃ w₁, SetsUp cli u sql w w₁
  · obtain ⟨w₁, hw₁⟩ := h
    have hw : ((setup cli u sql).runOn w).2 = w₁ := congrArg Prod.snd hw₁
    rw [hw] at htrace
    refine ⟨new ++ [executeEvent cli u w₁], ?_, ?_⟩
    · rw [exec_trace_of_setsUp hw₁, htrace]
      simp only [List.append_assoc]
    · intro e he
      rcases List.mem_append.mp he with he | he
      · exact (hnew e he).2
      · obtain rfl := List.mem_singleton.mp he
        exact nofun
  · rw [exec_state_of_not_setsUp fun w₁ hw₁ => h ⟨w₁, hw₁⟩]
    exact ⟨new, htrace, fun e he => (hnew e he).2⟩

end

end Utl

/-! ## What the driver does with a batch -/

/-- The rows of a batch: the driver reads the size as an unsigned 32-bit number. -/
def batchRows (v : Int) : Nat := (v % 2 ^ 32).toNat

theorem batchRows_int32 (n : Nat) : batchRows (int32 n) = n % 2 ^ 32 := by
  have hmod : int32 n % 2 ^ 32 = ((n % 2 ^ 32 : Nat) : Int) := by
    have hbmod := @Int.bmod_emod (n : Int) (2 ^ 32)
    exact_mod_cast hbmod
  rw [batchRows, hmod, Int.toNat_natCast]

/-- A driver that reads the rows of a batch, writes one status for each and says how many it
processed. A size that it refuses is in force or leaves the old one in force. -/
structure RunsBatches (cli : Cli σ) (attr : σ → Handle → StmtAttr → Int) : Prop where
  attrs : KeepsAttrs cli attr
  refused : ∀ d h v,
    attr (cli.call d (.setStmtAttr h .paramsetSize (.int v))).2 h .paramsetSize = v ∨
      attr (cli.call d (.setStmtAttr h .paramsetSize (.int v))).2 h .paramsetSize =
        attr d h .paramsetSize
  writes : ∀ d h, ∀ m ∈ (cli.call d (.execute h)).1.writes,
    (∃ b k, m = .processed b k ∧ k ≤ batchRows (attr d h .paramsetSize)) ∨
      ∃ b i v, m = .status b i v ∧ i < batchRows (attr d h .paramsetSize)

/-- The first `k` statuses of a vector. Behind its end there is nothing to read. -/
def readStatuses {n : Nat} (v : Vector UInt16 n) : Nat → Option (List UInt16)
  | 0 => some []
  | k + 1 => do
      let front ← readStatuses v k
      let status ← v[k]?
      pure (front ++ [status])

theorem readStatuses_isSome_iff {n : Nat} (v : Vector UInt16 n) (k : Nat) :
    (readStatuses v k).isSome = true ↔ k ≤ n := by
  induction k with
  | zero => exact iff_of_true rfl (Nat.zero_le n)
  | succ k ih =>
      rw [readStatuses]
      by_cases hk : k < n
      · obtain ⟨front, hfront⟩ := Option.isSome_iff_exists.mp (ih.mpr (Nat.le_of_lt hk))
        rw [hfront, Vector.getElem?_eq_getElem hk]
        exact iff_of_true rfl hk
      · rw [Vector.getElem?_eq_none (Nat.le_of_not_lt hk)]
        refine iff_of_false ?_ hk
        cases readStatuses v k with
        | none => exact nofun
        | some front => exact nofun

/-- The span of statuses that `dump` reads of a parameter buffer. -/
def Buffer.statusSpan (b : Buffer) : Option (List UInt16) := readStatuses b.sVec b.processed

/-- A call that respects the `n` elements of buffer `p`: the number of occupied rows is handed
over only up to `n`, and no row is read and no status written behind them. -/
structure Event.InBounds (cli : Cli σ) (attr : σ → Handle → StmtAttr → Int) (p : BufId) (n : Nat)
    (e : Event σ) : Prop where
  handed : ∀ h v, e.call = .setStmtAttr h .paramsetSize (.int v) → (e.heap.bufs p).occupied ≤ n
  rows : ∀ h, e.call = .execute h → batchRows (attr e.drv h .paramsetSize) ≤ n
  statuses : ∀ h b i v, e.call = .execute h → .status b i v ∈ (cli.call e.drv e.call).1.writes →
    i < n

/-! ## Runs -/

/-- What a program does with the parameter buffer of a query object. -/
inductive BatchOp
  | setOccupied (v : Nat)
  | exec (sql : Str)

/-- The method call behind it. -/
def BatchOp.toUtlOp (p : BufId) : BatchOp → UtlOp
  | .setOccupied v => .setOccupied p v
  | .exec sql => .exec sql

/-- One step of a program that uses query object `u` with parameter buffer `p`. -/
def BatchOp.step (cli : Cli σ) (u : UtlId) (p : BufId) (w : World σ) (op : BatchOp) : World σ :=
  (op.toUtlOp p).step cli u w

/-- A new statement sends one row, and a new buffer has no row processed. -/
structure NewBatch (attr : σ → Handle → StmtAttr → Int) (u : UtlId) (p : BufId) (w : World σ) :
    Prop where
  parBuf : (w.heap.utls u).parBuf = some p
  size : attr w.drv (w.heap.handle u) .paramsetSize = 1
  processed : (w.heap.bufs p).processed = 0

/-- What holds between the calls: the buffer has its size, no more rows than that were
processed, and the size in force is the first one or was handed over within the buffer. -/
structure BatchInv (attr : σ → Handle → StmtAttr → Int) (u : UtlId) (p : BufId) (n : Nat)
    (w : World σ) : Prop where
  parBuf : (w.heap.utls u).parBuf = some p
  arrSize : (w.heap.bufs p).arrSize = n
  processed : (w.heap.bufs p).processed ≤ n
  rows : batchRows (attr w.drv (w.heap.handle u) .paramsetSize) ≤ max 1 n
  first : n = 0 → attr w.drv (w.heap.handle u) .paramsetSize = 1

/-- The number of occupied rows is at most one or within the buffer. A buffer without elements
is not executed with. -/
def BatchOp.Fits (cli : Cli σ) (u : UtlId) (p : BufId) (n : Nat) (w : World σ) (op : BatchOp) :
    Prop :=
  ∀ sql, op = .exec sql →
    ((w.heap.bufs p).occupied ≤ 1 ∨ (w.heap.bufs p).occupied ≤ n) ∧
      (n = 0 → ∀ w₁, ¬ Utl.SetsUp cli u sql w w₁)

theorem NewBatch.inv {u : UtlId} {p : BufId} {w : World σ} (h : NewBatch attr u p w) :
    BatchInv attr u p (w.heap.bufs p).arrSize w where
  parBuf := h.parBuf
  arrSize := rfl
  processed := h.processed ▸ Nat.zero_le _
  rows := by
    rw [h.size]
    exact Nat.le_max_left 1 _
  first _ := h.size

section

variable {u : UtlId} {p : BufId} {n : Nat} {w w₁ : World σ} {sql : Str}

theorem attr_sized (hd : RunsBatches cli attr) (u : UtlId) (p : BufId) (w : World σ) :
    attr (Utl.sized cli u p w).drv (w.heap.handle u) .paramsetSize =
        attr w.drv (w.heap.handle u) .paramsetSize ∨
      1 < (w.heap.bufs p).occupied ∧
        attr (Utl.sized cli u p w).drv (w.heap.handle u) .paramsetSize =
          int32 (w.heap.bufs p).occupied := by
  unfold Utl.sized
  rw [Utl.runOn_setSize]
  split
  · next ho =>
    exact (hd.refused w.drv (w.heap.handle u) _).symm.imp_right fun h => ⟨ho, h⟩
  · exact .inl rfl

/-- The size in force behind the set-up phase. -/
theorem attr_setup (hd : RunsBatches cli attr) (sql : Str)
    (hp : (w.heap.utls u).parBuf = some p) (h : Handle) :
    attr ((Utl.setup cli u sql).runOn w).2.drv h .paramsetSize =
      attr (Utl.sized cli u p w).drv h .paramsetSize := by
  obtain ⟨rc, hrun⟩ := @Utl.runOn_setup_sized σ cli u p w sql hp
  rw [hrun]
  exact view_of_runOn (fun d => attr d h .paramsetSize) (Utl.within_afterSize u _ p sql rc)
    (fun d c hc => hd.attrs.keep d c h .paramsetSize hc.1 (hc.2 h)) rfl

/-- Behind the set-up phase the size in force is within the buffer, where the occupied rows
are. -/
theorem BatchInv.size_setup (hd : RunsBatches cli attr) (hi : BatchInv attr u p n w) (sql : Str)
    (ho : (w.heap.bufs p).occupied ≤ 1 ∨ (w.heap.bufs p).occupied ≤ n) :
    batchRows (attr ((Utl.setup cli u sql).runOn w).2.drv (w.heap.handle u) .paramsetSize) ≤
        max 1 n ∧
      (n = 0 →
        attr ((Utl.setup cli u sql).runOn w).2.drv (w.heap.handle u) .paramsetSize = 1) := by
  rw [attr_setup hd sql hi.parBuf]
  rcases attr_sized hd u p w with h | ⟨hone, h⟩
  · rw [h]
    exact ⟨hi.rows, hi.first⟩
  · have hn : (w.heap.bufs p).occupied ≤ n := ho.resolve_left (Nat.not_le.mpr hone)
    rw [h, batchRows_int32]
    constructor
    · exact Nat.le_trans (Nat.mod_le _ _) (Nat.le_trans hn (Nat.le_max_right 1 n))
    · intro hzero
      omega

/-- A step is in bounds exactly where the occupied rows fit. -/
theorem exec_inBounds_iff (hd : RunsBatches cli attr) (hi : BatchInv attr u p n w) (sql : Str) :
    (∀ e ∈ newEvents w ((Utl.exec cli u sql).runOn w).2, e.InBounds cli attr p n) ↔
      BatchOp.Fits cli u p n w (.exec sql) := by
  obtain ⟨new, htrace, hnew⟩ := @Utl.exec_trace σ cli u p w sql hi.parBuf
  have hevents : newEvents w ((Utl.exec cli u sql).runOn w).2 = _ := newEntries_eq htrace
  have hrows := @forall_exec_execute_iff σ cli
    (fun d _ h => batchRows (attr d h .paramsetSize) ≤ n) u sql w
  constructor
  · rintro h _ ⟨rfl⟩
    have ho : (w.heap.bufs p).occupied ≤ 1 ∨ (w.heap.bufs p).occupied ≤ n := by
      refine or_iff_not_imp_left.mpr fun hone => ?_
      rw [hevents, if_pos (Nat.not_le.mp hone)] at h
      exact (h (Utl.sizeEvent cli u p w) (by simp)).handed _ _ rfl
    refine ⟨ho, fun hzero w₁ hw₁ => ?_⟩
    have hfirst := (hi.size_setup hd sql ho).2 hzero
    have hw : ((Utl.setup cli u sql).runOn w).2 = w₁ := congrArg Prod.snd hw₁
    have hle := hrows.mp (fun e he hdl hcall => (h e he).rows hdl hcall) w₁ hw₁
    rw [hw, ← hw₁.reach.heap.handle_eq u] at hfirst
    rw [hfirst, hzero] at hle
    exact absurd hle (by decide)
  · intro h
    obtain ⟨ho, hzero⟩ := h sql rfl
    have hread := hrows.mpr fun w₁ hw₁ => by
      have hw : ((Utl.setup cli u sql).runOn w).2 = w₁ := congrArg Prod.snd hw₁
      have hmax := (hi.size_setup hd sql ho).1
      have hpos : n ≠ 0 := fun hn => hzero hn w₁ hw₁
      rw [hw, ← hw₁.reach.heap.handle_eq u] at hmax
      exact Nat.le_trans hmax (by omega)
    intro e he
    refine ⟨fun hdl v hcall => ?_, hread e he, fun hdl b i v hcall hm => ?_⟩
    · rw [hevents] at he
      rcases List.mem_append.mp he with he | he
      · split at he
        · next hone =>
          obtain rfl := List.mem_singleton.mp he
          exact ho.resolve_left (Nat.not_le.mpr hone)
        · cases he
      · exact absurd hcall (hnew e he hdl v)
    · rw [hcall] at hm
      rcases hd.writes e.drv hdl _ hm with ⟨b', k, heq, -⟩ | ⟨b', i', v', heq, hi'⟩
      · cases heq
      · cases heq
        exact Nat.lt_of_lt_of_le hi' (hread e he hdl hcall)

/-- Writes that keep to `rows` statuses. -/
theorem foldl_write_processed {rows : Nat} (p : BufId) (hrows : rows ≤ n) {ms : List MemWrite}
    (hms : ∀ m ∈ ms, (∃ b k, m = .processed b k ∧ k ≤ rows) ∨
      ∃ b i v, m = .status b i v ∧ i < rows) {hp : Heap}
    (hsize : (hp.bufs p).arrSize = n) (hproc : (hp.bufs p).processed ≤ n) :
    ((ms.foldl Heap.write hp).bufs p).arrSize = n ∧
      ((ms.foldl Heap.write hp).bufs p).processed ≤ n := by
  induction ms generalizing hp with
  | nil => exact ⟨hsize, hproc⟩
  | cons m ms ih =>
      obtain ⟨hm, hms⟩ := List.forall_mem_cons.mp hms
      have hwrite : ((hp.write m).bufs p).arrSize = n ∧ ((hp.write m).bufs p).processed ≤ n := by
        rcases hm with ⟨b, k, rfl, hk⟩ | ⟨b, i, v, rfl, -⟩
        · by_cases hb : p = b
          · subst hb
            rw [Heap.write, Heap.updBuf_same]
            exact ⟨hsize, Nat.le_trans hk hrows⟩
          · rw [Heap.write, Heap.updBuf_ne _ _ _ hb]
            exact ⟨hsize, hproc⟩
        · by_cases hb : p = b
          · subst hb
            rw [Heap.write, Heap.updBuf_same]
            exact ⟨hsize, hproc⟩
          · rw [Heap.write, Heap.updBuf_ne _ _ _ hb]
            exact ⟨hsize, hproc⟩
      exact ih hms hwrite.1 hwrite.2

/-- A quiet change keeps what holds between the calls, with the size in force. -/
theorem BatchInv.of_quiet {w' : World σ} (hi : BatchInv attr u p n w)
    (hq : w.heap.Quiet w'.heap)
    (hrows : batchRows (attr w'.drv (w.heap.handle u) .paramsetSize) ≤ max 1 n)
    (hfirst : n = 0 → attr w'.drv (w.heap.handle u) .paramsetSize = 1) :
    BatchInv attr u p n w' where
  parBuf := (hq.parBuf u).trans hi.parBuf
  arrSize := (hq.arrSize p).trans hi.arrSize
  processed := hq.processed p ▸ hi.processed
  rows := (hq.handle_eq u).symm ▸ hrows
  first := (hq.handle_eq u).symm ▸ hfirst

/-- `SQLExecute` with a size within the buffer keeps what holds between the calls. -/
theorem BatchInv.executed (hd : RunsBatches cli attr) (hi : BatchInv attr u p n w)
    (hrows : batchRows (attr w.drv (w.heap.handle u) .paramsetSize) ≤ n) :
    BatchInv attr u p n (Utl.executed cli u w) := by
  have hwrites := foldl_write_processed p hrows (hd.writes w.drv (w.heap.handle u)) hi.arrSize
    hi.processed
  have hutls : (Utl.executed cli u w).heap.utls = w.heap.utls := issueWriting_utls cli w _
  have hstmts : (Utl.executed cli u w).heap.stmts = w.heap.stmts := issueWriting_stmts cli w _
  have hhandle : (Utl.executed cli u w).heap.handle u = w.heap.handle u := by
    unfold Heap.handle
    rw [hutls, hstmts]
  have hattr : attr (Utl.executed cli u w).drv (w.heap.handle u) .paramsetSize =
      attr w.drv (w.heap.handle u) .paramsetSize :=
    hd.attrs.keep _ _ _ _ trivial nofun
  constructor
  · rw [hutls]
    exact hi.parBuf
  · exact hwrites.1
  · exact hwrites.2
  · rw [hhandle, hattr]
    exact hi.rows
  · rw [hhandle, hattr]
    exact hi.first

theorem BatchInv.exec (hd : RunsBatches cli attr) (hi : BatchInv attr u p n w)
    (hfits : BatchOp.Fits cli u p n w (.exec sql)) :
    BatchInv attr u p n ((Utl.exec cli u sql).runOn w).2 := by
  obtain ⟨ho, hzero⟩ := hfits sql rfl
  obtain ⟨hrows, hfirst⟩ := hi.size_setup hd sql ho
  have hsetup : BatchInv attr u p n ((Utl.setup cli u sql).runOn w).2 :=
    hi.of_quiet (Utl.setup_reach cli u sql w).heap hrows hfirst
  by_cases h : ∃ w₁, Utl.SetsUp cli u sql w w₁
  · obtain ⟨w₁, hw₁⟩ := h
    have hw : ((Utl.setup cli u sql).runOn w).2 = w₁ := congrArg Prod.snd hw₁
    rw [hw] at hsetup
    have hpos : n ≠ 0 := fun hn => hzero hn w₁ hw₁
    have hexecuted := hsetup.executed hd (Nat.le_trans hsetup.rows (by omega))
    obtain ⟨hp, hrun, hquiet⟩ := Utl.runOn_exec_of_setsUp hw₁
    rw [hrun]
    exact hexecuted.of_quiet hquiet hexecuted.rows hexecuted.first
  · rw [Utl.exec_state_of_not_setsUp fun w₁ hw₁ => h ⟨w₁, hw₁⟩]
    exact hsetup

/-- A step keeps what holds between the calls where the occupied rows fit. -/
theorem BatchInv.step (hd : RunsBatches cli attr) (hi : BatchInv attr u p n w) (op : BatchOp)
    (hfits : op.Fits cli u p n w) : BatchInv attr u p n (op.step cli u p w) := by
  cases op with
  | setOccupied v =>
      have hbuf : (BatchOp.step cli u p w (.setOccupied v)).heap.bufs p =
          { w.heap.bufs p with occupied := v } :=
        Heap.updBuf_same w.heap p fun bf => { bf with occupied := v }
      refine ⟨hi.parBuf, ?_, ?_, hi.rows, hi.first⟩
      · rw [hbuf]
        exact hi.arrSize
      · rw [hbuf]
        exact hi.processed
  | exec sql => exact hi.exec hd hfits

/-- The calls of a step are in bounds exactly where the occupied rows fit. -/
theorem step_inBounds_iff (hd : RunsBatches cli attr) (hi : BatchInv attr u p n w)
    (op : BatchOp) :
    (∀ e ∈ newEvents w (op.step cli u p w), e.InBounds cli attr p n) ↔ op.Fits cli u p n w := by
  cases op with
  | setOccupied v =>
      refine iff_of_true (fun e he => ?_) nofun
      simp [newEvents, newEntries, BatchOp.step, BatchOp.toUtlOp, step_trace_of_not_exec] at he
  | exec sql => exact exec_inBounds_iff hd hi sql

end

theorem batch_grows (cli : Cli σ) (u : UtlId) (p : BufId) :
    Grows (BatchOp.step cli u p) World.trace := fun w op => grows w (u, op.toUtlOp p)

/-- In a run of one query object with a new statement and a new parameter buffer, every call
respects the elements of the buffer, and `dump` finds all statuses it reads in every state,
exactly where the occupied rows fit at every `exec`. -/
theorem run_inBounds_iff (hd : RunsBatches cli attr) {u : UtlId} {p : BufId} {w : World σ}
    (hw : NewBatch attr u p w) (ops : List BatchOp) :
    (∀ e ∈ newEvents w (ops.foldl (BatchOp.step cli u p) w),
        e.InBounds cli attr p (w.heap.bufs p).arrSize) ∧
      (∀ pre post, ops = pre ++ post →
        ((pre.foldl (BatchOp.step cli u p) w).heap.bufs p).statusSpan.isSome = true) ↔
    AllSteps (BatchOp.step cli u p) (BatchOp.Fits cli u p (w.heap.bufs p).arrSize) ops w := by
  have hinv := hw.inv
  generalize (w.heap.bufs p).arrSize = n at hinv ⊢
  have hkeep : ∀ (w' : World σ) (op : BatchOp), BatchInv attr u p n w' → op.Fits cli u p n w' →
      BatchInv attr u p n (op.step cli u p w') := fun w' op hi hfits => hi.step hd op hfits
  unfold newEvents
  rw [(batch_grows cli u p).forall_newEntries_iff]
  constructor
  · rintro ⟨hsteps, -⟩
    refine hsteps.of_invariant (I := BatchInv attr u p n) ?_ ?_ hinv
    · exact fun w' op hi h => hkeep w' op hi ((step_inBounds_iff hd hi op).mp h)
    · exact fun w' op hi h => (step_inBounds_iff hd hi op).mp h
  · intro h
    constructor
    · exact h.of_invariant hkeep (fun w' op hi hf => (step_inBounds_iff hd hi op).mpr hf) hinv
    · intro pre post hsplit
      have hi := h.invariant hkeep hinv hsplit
      rw [Buffer.statusSpan, readStatuses_isSome_iff, hi.arrSize]
      exact hi.processed

end

/-! ## Two runs -/

namespace RefDriver

/-- The writes of a driver that executes a batch of `rows` rows with buffer `p`. -/
def batchWrites (p : BufId) (rows : Nat) : List MemWrite :=
  .processed p rows :: (List.range rows).map fun i => .status p i 0

/-- The driver whose executions report on the rows of buffer `p`. -/
def batchCli (p : BufId) : Cli RefDriver where
  call d c :=
    match c with
    | .execute h =>
        ({ rc := sqlSuccess, writes := batchWrites p (batchRows (attr d h .paramsetSize)) },
          (call [] d (.execute h)).2)
    | _ => call [] d c
  diag _ _ _ := []

/-- It answers like the driver without the reports. -/
theorem batchCli_call (p : BufId) (d : RefDriver) (c : CliCall) :
    ((batchCli p).call d c).1.rc = ((cli []).call d c).1.rc ∧
      ((batchCli p).call d c).2 = ((cli []).call d c).2 := by
  cases c with
  | execute h => exact ⟨rfl, rfl⟩
  | _ => exact ⟨rfl, rfl⟩

theorem runsBatches (p : BufId) : RunsBatches (batchCli p) attr where
  attrs :=
    { set := fun d h a v hrc => by
        rw [(batchCli_call p d _).1] at hrc
        rw [(batchCli_call p d _).2]
        exact (keepsAttrs []).set d h a v hrc
      keep := fun d c h a hc hne => by
        rw [(batchCli_call p d c).2]
        exact (keepsAttrs []).keep d c h a hc hne }
  refused d h v := .inl ((keepsAttrs []).set d h .paramsetSize v rfl)
  writes d h m hm := by
    rcases List.mem_cons.mp hm with rfl | hm
    · exact .inl ⟨p, _, rfl, Nat.le_refl _⟩
    · obtain ⟨i, hi, rfl⟩ := List.mem_map.mp hm
      exact .inr ⟨p, i, 0, rfl, List.mem_range.mp hi⟩

end RefDriver

theorem newBatch_insertTen : NewBatch RefDriver.attr 0 0 insertTen := ⟨rfl, rfl, rfl⟩

/-- A full batch of ten rows, then one of three. -/
theorem run_inBounds_two_batches :
    let ops : List BatchOp := [.setOccupied 10, .exec [], .setOccupied 3, .exec []]
    RunsBatches (RefDriver.batchCli 0) RefDriver.attr ∧ NewBatch RefDriver.attr 0 0 insertTen ∧
    (∀ e ∈ newEvents insertTen (ops.foldl (BatchOp.step (RefDriver.batchCli 0) 0 0) insertTen),
      e.InBounds (RefDriver.batchCli 0) RefDriver.attr 0 10) ∧
    ∀ pre post, ops = pre ++ post →
      ((pre.foldl (BatchOp.step (RefDriver.batchCli 0) 0 0) insertTen).heap.bufs
        0).statusSpan.isSome = true := by
  intro ops
  refine ⟨RefDriver.runsBatches 0, newBatch_insertTen, ?_⟩
  apply (run_inBounds_iff (RefDriver.runsBatches 0) newBatch_insertTen ops).mpr
  simp only [ops, allSteps_cons, allSteps_nil, and_true]
  have hset (w : World RefDriver) (v : Nat) : BatchOp.Fits (RefDriver.batchCli 0) 0 0 10 w
      (.setOccupied v) := fun _ h => by cases h
  refine ⟨hset _ 10, fun _ _ => ⟨.inr ?_, fun h => by cases h⟩, hset _ 3,
    fun _ _ => ⟨.inr ?_, fun h => by cases h⟩⟩
  · exact Nat.le_refl 10
  · exact (by decide : 3 ≤ 10)

/-- A batch of eleven rows with a buffer of ten. -/
theorem run_out_of_bounds :
    let ops : List BatchOp := [.setOccupied 11, .exec []]
    RunsBatches (RefDriver.batchCli 0) RefDriver.attr ∧ NewBatch RefDriver.attr 0 0 insertTen ∧
    (insertTen.heap.bufs 0).arrSize = 10 ∧
    (¬ ∀ e ∈ newEvents insertTen (ops.foldl (BatchOp.step (RefDriver.batchCli 0) 0 0) insertTen),
      e.InBounds (RefDriver.batchCli 0) RefDriver.attr 0 10) ∧
    ((ops.foldl (BatchOp.step (RefDriver.batchCli 0) 0 0) insertTen).heap.bufs 0).statusSpan =
      none := by
  intro ops
  have hhanded : ((newEvents insertTen
      (ops.foldl (BatchOp.step (RefDriver.batchCli 0) 0 0) insertTen)).any fun e =>
        decide (e.call = .setStmtAttr 1 .paramsetSize (.int 11) ∧
          10 < (e.heap.bufs 0).occupied)) = true := by
    decide +kernel
  refine ⟨RefDriver.runsBatches 0, newBatch_insertTen, rfl, fun h => ?_, by decide +kernel⟩
  obtain ⟨e, he, hcall⟩ := List.any_eq_true.mp hhanded
  obtain ⟨hcall, hlt⟩ := of_decide_eq_true hcall
  exact absurd ((h e he).handed _ _ hcall) (Nat.not_le.mpr hlt)

end Dbgen3.Runtime
