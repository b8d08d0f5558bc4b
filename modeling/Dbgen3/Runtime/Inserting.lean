import Dbgen3.Runtime.Batches
import Dbgen3.Runtime.Calls
import Dbgen3.Runtime.FetchLoop

/-!
# Inserting rows

A client inserts rows in batches: it sets every field of every row, says how many
rows there are and executes. The driver gets the rows of each batch as long as no
batch of a single row follows a larger one.
-/

namespace Dbgen3.Runtime

open Act Runs

/-! ## The client -/

/-- The setter calls that fill a row. -/
def setRow (i : Nat) (cells : List Cell) : List InsertOp :=
  cells.zipIdx.map fun ck => .set ck.2 i ck.1

/-- The calls for one batch. -/
def insertBatch (rows : List (List Cell)) : List InsertOp :=
  rows.zipIdx.flatMap (fun ri => setRow ri.2 ri.1) ++ [.setOccupied rows.length, .exec []]

/-- The calls for batches in turn. -/
def insertBatches (batches : List (List (List Cell))) : List InsertOp := batches.flatMap insertBatch

/-- A value that a field takes and has room for. -/
def FitsField (a : AttrDscr) (v : Cell) : Prop :=
  Takes a.dbType a.width v ∧ ∀ bytes, v = some bytes → bytes.length ≤ a.width

/-- A batch for a buffer of `n` rows: it has a row, and its rows have a value for every field. -/
structure FitsBuffer (n : Nat) (attrs : List AttrDscr) (rows : List (List Cell)) : Prop where
  ne_nil : rows ≠ []
  length_le : rows.length ≤ n
  fields : ∀ row ∈ rows, List.Forall₂ FitsField attrs row

/-- No batch of a single row follows a larger one. -/
def NoneSingleAfter (batches : List (List (List Cell))) : Prop :=
  batches.Pairwise fun c d => 1 < c.length → 1 < d.length

/-! ## The machine -/

section

variable {n : Nat} {attrs : List AttrDscr}

theorem allowed_insertBatches {batches : List (List (List Cell))}
    (h : ∀ rows ∈ batches, FitsBuffer n attrs rows) :
    ∀ op ∈ insertBatches batches, op.Allowed n attrs := by
  intro op hop
  obtain ⟨rows, hrows, hop⟩ := List.mem_flatMap.mp hop
  have hfits := h rows hrows
  rcases List.mem_append.mp hop with hop | hop
  · obtain ⟨⟨row, i⟩, hri, hop⟩ := List.mem_flatMap.mp hop
    obtain ⟨⟨v, k⟩, hck, rfl⟩ := List.mem_map.mp hop
    have hfields := hfits.fields row (List.fst_mem_of_mem_zipIdx hri)
    rintro t ht
    obtain ⟨a, ha, rfl⟩ := Option.map_eq_some_iff.mp (List.getElem?_map ▸ ht)
    have hv : row[k]? = some v := by simpa using List.mk_mem_zipIdx_iff_getElem?.mp hck
    obtain ⟨hka, rfl⟩ := List.getElem?_eq_some_iff.mp ha
    obtain ⟨hkv, rfl⟩ := List.getElem?_eq_some_iff.mp hv
    exact (hfields.get hka hkv).1
  · rcases List.mem_cons.mp hop with rfl | hop
    · exact hfits.length_le
    · obtain rfl := List.mem_singleton.mp hop
      trivial

/-- The cells of a row are set from left to right. -/
theorem foldl_setCells {i : Nat} (hi : i < n) {restA : List AttrDscr} {cells : List Cell}
    (h : List.Forall₂ FitsField restA cells) {preA : List AttrDscr} {pre old : List Cell}
    (hpre : preA.length = pre.length) (hold : old.length = cells.length) (b : Batch)
    (hb : b.row i = pre ++ old) :
    ((cells.zipIdx pre.length).map fun ck => InsertOp.set ck.2 i ck.1).foldl
        (Batch.step n ((preA ++ restA).map AttrDscr.width)) b =
      { b with row := Function.update b.row i (pre ++ cells) } := by
  induction h generalizing pre preA old b with
  | nil =>
      obtain rfl := List.length_eq_zero_iff.mp hold
      rw [← hb, Function.update_eq_self]
      rfl
  | @cons a c restA cells hac hrest ih =>
      obtain ⟨o, old', rfl⟩ := List.exists_cons_of_length_eq_add_one hold
      have hwidth : ((preA ++ a :: restA).map AttrDscr.width).getD pre.length 0 = a.width := by
        simp [← hpre]
      have hset : (pre ++ o :: old').set pre.length c = (pre ++ [c]) ++ old' := by
        simp
      have hstep : b.step n ((preA ++ a :: restA).map AttrDscr.width) (.set pre.length i c) =
          { b with row := Function.update b.row i ((pre ++ [c]) ++ old') } := by
        unfold Batch.step
        simp only [if_pos hi]
        rw [hwidth, cut_of_fits hac.2, hb, hset]
      rw [List.zipIdx_cons, List.map_cons, List.foldl_cons, hstep]
      have hrun := @ih (preA ++ [a]) (pre ++ [c]) old' (by simp [hpre])
        (Nat.succ.inj hold) { b with row := Function.update b.row i ((pre ++ [c]) ++ old') }
        (Function.update_self i _ b.row)
      rw [List.length_append, List.append_assoc, List.append_assoc] at hrun
      simpa using hrun

theorem foldl_setRows {rows : List (List Cell)} {start : Nat} (hn : start + rows.length ≤ n)
    (h : ∀ row ∈ rows, List.Forall₂ FitsField attrs row) (b : Batch)
    (hb : ∀ i, (b.row i).length = attrs.length) :
    ((rows.zipIdx start).flatMap fun ri => setRow ri.2 ri.1).foldl
        (Batch.step n (attrs.map AttrDscr.width)) b =
      { b with row := fun j => if start ≤ j then rows[j - start]?.getD (b.row j) else b.row j } := by
  induction rows generalizing start b with
  | nil => simp
  | cons row rows ih =>
      obtain ⟨hrow, hrest⟩ := List.forall_mem_cons.mp h
      have hset : (setRow start row).foldl (Batch.step n (attrs.map AttrDscr.width)) b =
          { b with row := Function.update b.row start row } :=
        @foldl_setCells n start (by simp at hn; omega) attrs row hrow [] [] (b.row start) rfl
          ((hb start).trans hrow.length_eq) b rfl
      have hlength : ∀ i, (Function.update b.row start row i).length = attrs.length := by
        intro i
        rw [Function.update_apply]
        split
        · exact hrow.length_eq.symm
        · exact hb i
      rw [List.zipIdx_cons, List.flatMap_cons, List.foldl_append, hset,
        ih (by simp at hn; omega) hrest _ hlength]
      refine congrArg (fun r => { b with row := r }) (funext fun j => ?_)
      dsimp only
      rcases Nat.lt_trichotomy j start with hj | rfl | hj
      · rw [if_neg (by omega), if_neg (by omega), Function.update_of_ne (by omega)]
      · rw [if_neg (by omega), if_pos (Nat.le_refl j), Function.update_self, Nat.sub_self]
        rfl
      · have hsub : j - start = j - (start + 1) + 1 := by omega
        rw [if_pos (Nat.succ_le_of_lt hj), if_pos (Nat.le_of_lt hj),
          Function.update_of_ne (by omega), hsub, List.getElem?_cons_succ]

/-- The rows that are set, and behind them the old ones. -/
def fill (row : Nat → List Cell) (rows : List (List Cell)) : Nat → List Cell :=
  fun j => rows[j]?.getD (row j)

theorem fill_length {row : Nat → List Cell} {rows : List (List Cell)}
    (h : ∀ row ∈ rows, List.Forall₂ FitsField attrs row)
    (hrow : ∀ i, (row i).length = attrs.length) (i : Nat) :
    (fill row rows i).length = attrs.length := by
  unfold fill
  cases hi : rows[i]? with
  | none => exact hrow i
  | some r => exact (h r (List.mem_of_getElem? hi)).length_eq.symm

theorem map_fill (row : Nat → List Cell) (rows : List (List Cell)) :
    (List.range rows.length).map (fill row rows) = rows := by
  refine List.ext_getElem (by simp) fun i hi hi' => ?_
  simp [fill, hi']

/-- The state behind a batch. -/
def Batch.filled (b : Batch) (rows : List (List Cell)) : Batch :=
  let size := if 1 < rows.length then rows.length else b.size
  { row := fill b.row rows
    occupied := rows.length
    size
    sent := b.sent ++ [(List.range size).map (fill b.row rows)] }

theorem foldl_insertBatch {rows : List (List Cell)} (h : FitsBuffer n attrs rows) (b : Batch)
    (hb : ∀ i, (b.row i).length = attrs.length) :
    (insertBatch rows).foldl (Batch.step n (attrs.map AttrDscr.width)) b = b.filled rows := by
  have hrows := @foldl_setRows n attrs rows 0 (by simpa using h.length_le) h.fields b hb
  unfold insertBatch
  rw [List.foldl_append, hrows]
  rfl

/-- A batch is sent as it is, unless it has a single row and the one before had more. -/
theorem filled_sent_iff {rows : List (List Cell)} (hne : rows ≠ []) (b : Batch)
    (hsize : 1 ≤ b.size) :
    (List.range (b.filled rows).size).map (fill b.row rows) = rows ↔
      (1 < b.size → 1 < rows.length) := by
  have hpos : 1 ≤ rows.length := List.length_pos_iff.mpr hne
  constructor
  · intro h hlt
    have hlength := congrArg List.length h
    rw [List.length_map, List.length_range] at hlength
    unfold Batch.filled at hlength
    dsimp only at hlength
    split at hlength <;> omega
  · intro h
    have hsize' : (b.filled rows).size = rows.length := by
      unfold Batch.filled
      dsimp only
      split <;> omega
    rw [hsize']
    exact map_fill b.row rows

theorem batch_sent_grows (n : Nat) (widths : List Nat) :
    Grows (Batch.step n widths) Batch.sent := by
  intro b op
  cases op with
  | set k i v =>
      unfold Batch.step
      dsimp only
      split
      · exact List.prefix_refl _
      · exact List.prefix_refl _
  | setOccupied v => exact List.prefix_refl _
  | exec sql => exact List.prefix_append _ _

/-- The batches arrive as they are exactly when none of a single row follows a larger one. -/
theorem sent_insertBatches_iff {batches : List (List (List Cell))}
    (h : ∀ rows ∈ batches, FitsBuffer n attrs rows) {b : Batch}
    (hb : ∀ i, (b.row i).length = attrs.length) (hsize : 1 ≤ b.size) :
    ((insertBatches batches).foldl (Batch.step n (attrs.map AttrDscr.width)) b).sent =
        b.sent ++ batches ↔
      (1 < b.size → ∀ d ∈ batches, 1 < d.length) ∧ NoneSingleAfter batches := by
  induction batches generalizing b with
  | nil => simp [insertBatches, NoneSingleAfter]
  | cons rows batches ih =>
      obtain ⟨hrows, hrest⟩ := List.forall_mem_cons.mp h
      have hpos : 1 ≤ rows.length := List.length_pos_iff.mpr hrows.ne_nil
      have hsize' : (b.filled rows).size = if 1 < rows.length then rows.length else b.size := rfl
      have hsize₁ : 1 ≤ (b.filled rows).size := by
        rw [hsize']
        split <;> omega
      have hih := ih hrest (b := b.filled rows) (fill_length hrows.fields hb) hsize₁
      obtain ⟨sent, hsent⟩ := (batch_sent_grows n (attrs.map AttrDscr.width)).run
        (insertBatches batches) (b.filled rows)
      have hsplit : insertBatches (rows :: batches) = insertBatch rows ++ insertBatches batches :=
        List.flatMap_cons
      rw [hsplit, List.foldl_append, foldl_insertBatch hrows b hb]
      rw [← hsent] at hih ⊢
      have hcut : (b.filled rows).sent ++ sent = b.sent ++ rows :: batches ↔
          (1 < b.size → 1 < rows.length) ∧ sent = batches := by
        rw [← filled_sent_iff hrows.ne_nil b hsize]
        change (b.sent ++ [(List.range (b.filled rows).size).map (fill b.row rows)]) ++ sent = _ ↔ _
        rw [List.append_assoc, List.append_cancel_left_eq, List.singleton_append, List.cons.injEq]
      rw [List.append_cancel_left_eq] at hih
      unfold NoneSingleAfter at hih ⊢
      rw [hcut, hih, List.pairwise_cons, List.forall_mem_cons, hsize']
      by_cases hone : 1 < rows.length
      · simp only [hone, if_true, true_and, implies_true, forall_const]
        exact ⟨fun ⟨hall, hpair⟩ => ⟨fun _ => hall, hall, hpair⟩,
          fun ⟨_, hall, hpair⟩ => ⟨hall, hpair⟩⟩
      · simp only [hone, if_false, false_and, imp_false, false_implies, implies_true, true_and]
        exact ⟨fun ⟨hle, _, hpair⟩ => ⟨hle, hpair⟩,
          fun ⟨hle, hpair⟩ => ⟨hle, fun hlt => absurd hlt hle, hpair⟩⟩

end

/-! ## The program -/

/-- A driver that accepts what the runtime asks of it; the statements have no result set, and
an execution of a new statement takes one row. -/
structure Inserts {σ : Type} (cli : Cli σ) (v : DriverView σ) : Prop extends
    Fetches cli v [] where
  batches : RunsBatches cli v.attr
  allocSize : ∀ d dbc, v.attr (cli.call d (.allocHandle .stmt dbc)).2
    (cli.call d (.allocHandle .stmt dbc)).1.handle .paramsetSize = 1

section

variable {σ : Type} {cli : Cli σ} {v : DriverView σ}

/-- A query object of a generated class with a parameter buffer is constructed, and batches are
inserted with it. -/
def insertAll (cli : Cli σ) (u : UtlId) (db : Handle) (sql : Str) (allowedCodes : List Int)
    (n : Nat) (attrs : List AttrDscr) (res : Option (Nat × List AttrDscr))
    (batches : List (List (List Cell))) (w : World σ) : World σ :=
  (insertBatches batches).foldl (InsertOp.step cli u (Utl.memberBuf u .par))
    ((Utl.newGenerated cli u db sql allowedCodes (some (n, attrs)) res).runOn w).2

/-- The handle that the driver gives to a new statement. -/
def newHandle (cli : Cli σ) (db : Handle) (w : World σ) : Handle :=
  (cli.call w.drv (.allocHandle .stmt db)).1.handle

/-- The constructor allocates a handle and leaves a new parameter buffer. -/
theorem newGenerated_newInsert (hf : Inserts cli v) (u : UtlId) (db : Handle) (sql : Str)
    (allowedCodes : List Int) (n : Nat) (attrs : List AttrDscr)
    (res : Option (Nat × List AttrDscr)) (w : World σ) :
    ∃ w₀, (Utl.newGenerated cli u db sql allowedCodes (some (n, attrs)) res).runOn w =
        (.ok ⟨⟩, w₀) ∧
      w₀.trace = (w.issue cli (.allocHandle .stmt db)).trace ∧
      w₀.heap.handle u = newHandle cli db w ∧ NewInsert v.attr u (Utl.memberBuf u .par) n attrs w₀ := by
  have hrc := hf.succeeds w.drv (.allocHandle .stmt db) (by simp)
  have hnew := (@runOn_new σ cli u db sql w).trans (if_pos hrc)
  have hne : Utl.memberBuf u .par ≠ Utl.memberBuf u .res := by
    change (2 * u : Nat) ≠ 2 * u + 1
    omega
  refine ⟨_, by
    unfold Utl.newGenerated Utl.new
    rw [bind_assoc, runOn_bind_ok hnew]
    rfl, ?_⟩
  have hhandle : ∀ hp : Heap, hp.stmts = (w.heap.updStmt u fun _ =>
      { sql, handle := newHandle cli db w }).stmts → (hp.utls u).s = u →
        hp.handle u = newHandle cli db w := by
    intro hp hs hu
    simp [Heap.handle, hs, hu]
  refine ⟨rfl, ?_, ?_, ?_, ?_, ?_⟩
  · exact hhandle _ (by cases res <;> rfl) (by cases res <;> simp)
  · simp
  · intro r hr
    cases res with
    | none => simp at hr
    | some rn =>
        obtain rfl : Utl.memberBuf u .res = r := by simpa using hr
        simp [Buffer.new]
  · cases res with
    | none => simp
    | some rn => simp [hne]
  · refine (congrArg (fun h => v.attr _ h _) (hhandle _ (by cases res <;> rfl)
      (by cases res <;> simp))).trans (hf.allocSize w.drv db)

/-- A batch in which every parameter has a value is known by its rows. -/
theorem complete_injective : Function.Injective complete :=
  List.map_injective_iff.mpr (List.map_injective_iff.mpr fun _ _ => Option.some.inj)

/-- The driver gets the batches as they are exactly when none of a single row follows a larger
one. -/
theorem insertAll_sends_iff (hf : Inserts cli v) (u : UtlId) (db : Handle) (sql : Str)
    (allowedCodes : List Int) {n : Nat} {attrs : List AttrDscr} (hi : Insertable n attrs)
    (res : Option (Nat × List AttrDscr)) {batches : List (List (List Cell))}
    (hfits : ∀ rows ∈ batches, FitsBuffer n attrs rows) (w : World σ) :
    sentIn v.attr v.bound (newHandle cli db w) attrs.length
        (newEvents w (insertAll cli u db sql allowedCodes n attrs res batches w)) =
      batches.map complete ↔ NoneSingleAfter batches := by
  obtain ⟨w₀, hrun, htrace, hhandle, hnew⟩ :=
    newGenerated_newInsert hf u db sql allowedCodes n attrs res w
  have hsends := run_sends hf.batches hf.bindings (Utl.setsUp_of_fetches hf.toFetches u) hi hnew
    (insertBatches batches) (allowed_insertBatches hfits)
  obtain ⟨new, hnew'⟩ := (insert_grows cli u (Utl.memberBuf u .par)).run (insertBatches batches) w₀
  rw [newEvents, newEntries_eq hnew'.symm, hhandle] at hsends
  have hsent : sentIn v.attr v.bound (newHandle cli db w) attrs.length
      (newEvents w (insertAll cli u db sql allowedCodes n attrs res batches w)) =
        sentIn v.attr v.bound (newHandle cli db w) attrs.length new := by
    unfold insertAll
    rw [hrun, newEvents, newEntries_eq (by rw [← hnew', htrace, World.issue, List.append_assoc]),
      sentIn_append, sentIn_of_ne (by simp), List.nil_append]
  have hiff := @sent_insertBatches_iff n attrs batches hfits (.new attrs.length)
    (fun _ => List.length_replicate) (Nat.le_refl 1)
  rw [hsent, hsends, (List.map_injective_iff.mpr complete_injective).eq_iff]
  refine hiff.trans (and_iff_right fun h => ?_)
  exact absurd h (Nat.lt_irrefl 1)

theorem RefDriver.inserts : Inserts (RefDriver.cli []) RefDriver.view where
  toFetches := RefDriver.fetches []
  batches :=
    { attrs := RefDriver.keepsAttrs []
      refused := fun d h x => .inl ((RefDriver.keepsAttrs []).set d h .paramsetSize x rfl)
      writes := fun d h m hm => by simp [RefDriver.cli, RefDriver.call] at hm }
  allocSize d dbc := by simp [RefDriver.cli, RefDriver.call, RefDriver.view]

end

end Dbgen3.Runtime
