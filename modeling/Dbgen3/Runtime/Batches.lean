import Dbgen3.Lib.Simulation
import Dbgen3.Runtime.Bounds
import Dbgen3.Runtime.Elements
import Dbgen3.Runtime.Rows
import Dbgen3.Runtime.Sharing

/-!
# Batches

A program fills the rows of a parameter buffer, says how many are occupied and
executes. What the driver reads is described by a machine with the rows as they
were set last and one number, the size of the last batch of more than one row.
Every run of the program is a run of the machine.
-/

namespace Dbgen3.Runtime

open Act Runs Simulation

/-! ## Setting an element -/

/-- A value of an attribute: an `atomic` is given an object of its type. -/
def Takes (dbType : Int) (width : Nat) (v : Cell) : Prop :=
  ∀ bytes, v = some bytes → attrType dbType = .atomic → bytes.length = width

/-- As much of a value as an element of the width has room for. -/
def cut (width : Nat) (v : Cell) : Cell := v.map (List.take width)

theorem cut_of_fits {width : Nat} {v : Cell} (h : ∀ bytes, v = some bytes → bytes.length ≤ width) :
    cut width v = v := by
  cases v with
  | none => rfl
  | some bytes => exact congrArg some (List.take_of_length_le (h bytes rfl))

namespace AttrRoot

variable {n : Nat}

/-- A generated setter: `set_value` with a value from outside the buffer, or `set_null`. -/
def setCell (a : AttrRoot n) (i : Nat) : Cell → Except Exc (AttrRoot n)
  | none => a.setNull i
  | some bytes => a.setValue ⟨.outside, bytes⟩ i

/-- The attribute behind a setter, also one that throws. -/
def change (a : AttrRoot n) (i : Nat) (v : Cell) : AttrRoot n :=
  (a.setCell i v).toOption.getD a

theorem cell_eq (a : AttrRoot n) (i : Nat) :
    a.cell i = match a.element i with
      | none => none
      | some (len, bytes) => if len = sqlNullData then none else some (bytes.take len.toNat) := by
  unfold cell element
  split <;> rfl

end AttrRoot

section Change

variable {n dbType : _} {width : Nat}

/-- The call behind a setter. -/
def ElCall.ofCell (i : Nat) : (v : Cell) → Takes dbType width v → ElCall dbType width
  | none, _ => .setNull i
  | some bytes, hv => .setValue ⟨⟨.outside, bytes⟩, hv bytes rfl⟩ i

theorem ElCall.ofCell_spec (i : Nat) (v : Cell) (hv : Takes dbType width v) :
    (ofCell i v hv).ndx = i ∧ (ofCell i v hv).Outside ∧
      (ofCell i v hv).write.2.map (fun arg => arg.bytes.take width) = cut width v := by
  cases v with
  | none => exact ⟨rfl, trivial, rfl⟩
  | some bytes => exact ⟨rfl, rfl, rfl⟩

theorem change_eq_step (a : AttrRoot n) (i : Nat) (v : Cell) (hv : Takes dbType width v) :
    a.change i v = ElCall.step a (ElCall.ofCell i v hv) := by
  have hcall : a.setCell i v = (ElCall.ofCell i v hv).apply a := by
    cases v with
    | none => rfl
    | some bytes => rfl
  unfold AttrRoot.change ElCall.step
  rw [hcall]
  cases (ElCall.ofCell i v hv).apply a with
  | ok a' => rfl
  | error e => rfl

variable (hkind : attrType dbType ≠ .unknown) {a : AttrRoot n} (ha : a.Of dbType width)

theorem cell_of_written {i : Nat} {w : Option (Arg dbType width)} (hw : Written a i w)
    (hwidth : width < 2 ^ 31) : a.cell i = w.map fun v => v.bytes.take width := by
  rw [AttrRoot.cell_eq]
  cases w with
  | none =>
      obtain ⟨bytes, hel⟩ := hw
      rw [hel]
      exact if_pos rfl
  | some v =>
      obtain ⟨bytes, hel, htake⟩ := hw
      have hsize : int32 v.size = v.size := (int32_natCast_eq_self_iff v.size).mpr
        (Nat.lt_of_le_of_lt v.size_le hwidth)
      have hne : (v.size : Int) ≠ sqlNullData := by
        unfold sqlNullData
        omega
      rw [hel, hsize]
      calc (if (v.size : Int) = sqlNullData then none else some (bytes.take (v.size : Int).toNat))
          = some (bytes.take v.size) := if_neg hne
        _ = some (v.bytes.take width) := congrArg some htake

include hkind ha

theorem of_change (i : Nat) {v : Cell} (hv : Takes dbType width v) :
    (a.change i v).Of dbType width :=
  change_eq_step a i v hv ▸ ElCall.of_step hkind ha _

theorem change_of_le {i : Nat} (h : n ≤ i) {v : Cell} (hv : Takes dbType width v) :
    a.change i v = a := by
  rw [change_eq_step a i v hv]
  exact (ElCall.step_of_le hkind ha ((ElCall.ofCell_spec i v hv).1.symm ▸ h)).2

/-- What a setter stores is what the driver reads of the element. -/
theorem cell_change (hwidth : width < 2 ^ 31) {i : Nat} (hi : i < n) {v : Cell}
    (hv : Takes dbType width v) (j : Nat) :
    (a.change i v).cell j = if j = i then cut width v else a.cell j := by
  obtain ⟨hndx, hout, hwrite⟩ := ElCall.ofCell_spec i v hv
  rw [change_eq_step a i v hv]
  generalize ElCall.ofCell i v hv = c at hndx hout hwrite
  subst hndx
  split
  · next hj =>
    subst hj
    rw [ElCall.step_of_lt hkind ha hi, if_pos hout.assigns, ← hwrite]
    exact cell_of_written (ElCall.written_effect ha c hi) hwidth
  · next hj =>
    rw [AttrRoot.cell_eq, AttrRoot.cell_eq, ElCall.element_step_ne hkind ha hj]

end Change

/-! ## Setting a row -/

namespace Buffer

/-- A setter of the class of a buffer. -/
def change (b : Buffer) (k i : Nat) (v : Cell) : Buffer :=
  { b with attributes := b.attributes.modify k fun a => a.change i v }

/-- The types of the attributes. -/
def types (b : Buffer) : List (Int × Nat) := b.attributes.map fun a => (a.dbType, a.width)

theorem length_row (b : Buffer) (i : Nat) : (b.row i).length = b.types.length := by
  unfold row types
  rw [List.length_map, List.length_map]

theorem length_types (b : Buffer) : b.types.length = b.attributes.length := List.length_map _

variable {b : Buffer} {k i : Nat} {v : Cell} {types : List (Int × Nat)}

/-- The attributes of a buffer have types that the runtime stores. -/
def Storable (types : List (Int × Nat)) : Prop :=
  ∀ t ∈ types, attrType t.1 ≠ .unknown ∧ t.2 < 2 ^ 31

/-- The value fits the type of attribute `k`, if there is one. -/
def TakesAt (types : List (Int × Nat)) (k : Nat) (v : Cell) : Prop :=
  ∀ t, types[k]? = some t → Takes t.1 t.2 v

theorem types_getElem? {a : AttrRoot b.arrSize} (ha : b.attributes[k]? = some a) :
    b.types[k]? = some (a.dbType, a.width) := by
  unfold types
  rw [List.getElem?_map, ha]
  rfl

theorem types_change (hs : Storable b.types) (hv : TakesAt b.types k v) :
    (b.change k i v).types = b.types := by
  refine List.ext_getElem? fun j => ?_
  unfold types change
  simp only [List.getElem?_map, List.getElem?_modify]
  cases ha : b.attributes[j]? with
  | none => rfl
  | some a =>
      by_cases hj : k = j
      · subst hj
        have htype := types_getElem? ha
        have hof := of_change (hs _ (List.mem_of_getElem? htype)).1 (a := a) ⟨rfl, rfl⟩ i
          (hv _ htype)
        simp [hof.dbType_eq, hof.width_eq]
      · simp [hj]

/-- A setter changes one cell of its row. -/
theorem row_change (hs : Storable b.types) (hv : TakesAt b.types k v) (hi : i < b.arrSize)
    (j : Nat) :
    (b.change k i v).row j =
      if j = i then (b.row j).set k (cut (b.widths.getD k 0) v) else b.row j := by
  have hcell : ∀ m, ((b.change k i v).row j)[m]? =
      (b.attributes[m]?).map fun a => if k = m then (a.change i v).cell j else a.cell j := by
    intro m
    have hrow : (b.change k i v).row j =
        (b.attributes.modify k fun a => a.change i v).map fun a => a.cell j := rfl
    rw [hrow, List.getElem?_map, List.getElem?_modify, Option.map_eq_map, Option.map_map]
    refine congrArg (fun f => (b.attributes[m]?).map f) (funext fun a => ?_)
    by_cases hm : k = m
    · simp [hm]
    · simp [hm]
  have hold : ∀ m, (b.row j)[m]? = (b.attributes[m]?).map fun a : AttrRoot b.arrSize =>
      a.cell j := fun m => List.getElem?_map
  by_cases hj : j = i
  · rw [if_pos hj]
    refine List.ext_getElem? fun m => ?_
    rw [hcell, List.getElem?_set, hold, length_row, length_types]
    by_cases hm : k = m
    · subst hm
      cases ha : b.attributes[k]? with
      | none =>
          have hlt : ¬ k < b.attributes.length := Nat.not_lt.mpr (List.getElem?_eq_none_iff.mp ha)
          simp [hlt]
      | some a =>
          have hlt : k < b.attributes.length := (List.getElem?_eq_some_iff.mp ha).1
          have htype := types_getElem? ha
          obtain ⟨hkind, hwidth⟩ := hs _ (List.mem_of_getElem? htype)
          have hchange := cell_change hkind (a := a) ⟨rfl, rfl⟩ hwidth hi (hv _ htype) j
          rw [if_pos hj] at hchange
          have hw : b.widths[k]? = some a.width := by
            unfold widths
            rw [List.getElem?_map, ha]
            rfl
          simp [hlt, hw, hchange]
    · simp [hm]
  · rw [if_neg hj]
    refine List.ext_getElem? fun m => ?_
    rw [hcell, hold]
    cases ha : b.attributes[m]? with
    | none => rfl
    | some a =>
        by_cases hm : k = m
        · subst hm
          have htype := types_getElem? ha
          obtain ⟨hkind, hwidth⟩ := hs _ (List.mem_of_getElem? htype)
          have hchange := cell_change hkind (a := a) ⟨rfl, rfl⟩ hwidth hi (hv _ htype) j
          rw [if_neg hj] at hchange
          simp [hchange]
        · simp [hm]

/-- A row behind the end is not set. -/
theorem change_of_le (hs : Storable b.types) (hv : TakesAt b.types k v) (hi : b.arrSize ≤ i) :
    b.change k i v = b := by
  have hattrs : b.attributes.modify k (fun a => a.change i v) = b.attributes := by
    refine List.ext_getElem? fun j => ?_
    rw [List.getElem?_modify]
    cases ha : b.attributes[j]? with
    | none => rfl
    | some a =>
        by_cases hj : k = j
        · subst hj
          have htype := types_getElem? ha
          have hkeep := Runtime.change_of_le (hs _ (List.mem_of_getElem? htype)).1 (a := a)
            ⟨rfl, rfl⟩ hi (hv _ htype)
          simp [hkeep]
        · simp [hj]
  unfold change
  rw [hattrs]

end Buffer

/-! ## The machine -/

/-- What a program asks of the parameter buffer of a query object. -/
inductive InsertOp
  | set (k i : Nat) (v : Cell)
  | setOccupied (v : Nat)
  | exec (sql : Str)

/-- The rows as they were set last, how many of them are occupied, the number of rows of a
batch and the batches that were sent. -/
structure Batch where
  row : Nat → List Cell
  occupied : Nat
  size : Nat
  sent : List (List (List Cell))

namespace Batch

/-- A new buffer of a new statement: nothing is set, and a batch has one row. -/
def new (cols : Nat) : Batch where
  row _ := List.replicate cols none
  occupied := 0
  size := 1
  sent := []

variable (n : Nat) (widths : List Nat)

/-- The number of rows of the next batch: at most one occupied row leaves it as it is. -/
def nextSize (b : Batch) : Nat := if 1 < b.occupied then b.occupied else b.size

/-- A call that ends as it should. -/
def step (b : Batch) : InsertOp → Batch
  | .set k i v =>
      if i < n then
        { b with row := Function.update b.row i ((b.row i).set k (cut (widths.getD k 0) v)) }
      else b
  | .setOccupied v => { b with occupied := v }
  | .exec _ =>
      { b with
        size := b.nextSize
        sent := b.sent ++ [(List.range b.nextSize).map b.row] }

/-- The outcomes of a call. Where the driver refuses a call of the set-up phase nothing is sent,
and the number of rows may be set or not. -/
inductive Step : Batch → InsertOp → Batch → Prop
  | done (b : Batch) (op : InsertOp) : Step b op (b.step n widths op)
  | refused (b : Batch) (sql : Str) {size : Nat} (h : size = b.size ∨ size = b.nextSize) :
      Step b (.exec sql) { b with size }

end Batch

/-! ## The calls of the program -/

section

variable {σ : Type} (cli : Cli σ)

/-- One step of a program that uses query object `u` with parameter buffer `p`. -/
def InsertOp.step (u : UtlId) (p : BufId) (w : World σ) : InsertOp → World σ
  | .set k i v => { w with heap := w.heap.updBuf p fun b => b.change k i v }
  | .setOccupied v => BatchOp.step cli u p w (.setOccupied v)
  | .exec sql => BatchOp.step cli u p w (.exec sql)

/-- What the driver finds at an address in row `i`, if the buffer has such a row. -/
def Heap.element (hp : Heap) (data : DataAddr) (i : Nat) : Option Cell :=
  if i < (hp.bufs data.buf).arrSize then ((hp.bufs data.buf).row i)[data.attr]? else none

/-- The rows that the driver reads when it executes the statement `h` with `cols` parameters. -/
def sentBatch (attr : σ → Handle → StmtAttr → Int)
    (bound : σ → Handle → BufType → Int → Option DataAddr) (h : Handle) (cols : Nat)
    (e : Event σ) : Option (List (List (Option Cell))) :=
  if e.call = .execute h then
    some ((List.range (batchRows (attr e.drv h .paramsetSize))).map fun i =>
      (List.range cols).map fun k : Nat =>
        (bound e.drv h .par ((k : Int) + 1)).bind fun data => e.heap.element data i)
  else none

/-- A batch in which every parameter has a value. -/
def complete (rows : List (List Cell)) : List (List (Option Cell)) := rows.map fun row => row.map some

end

/-! ## Bindings during the set-up phase -/

section

variable {σ : Type} {cli : Cli σ} {bound : σ → Handle → BufType → Int → Option DataAddr}

/-- Parameter buffer `p` of query object `u` is bound where its flag says so, and the result
buffer is one of results. -/
structure ParReady (bound : σ → Handle → BufType → Int → Option DataAddr) (u : UtlId) (p : BufId)
    (w : World σ) : Prop where
  parBuf : (w.heap.utls u).parBuf = some p
  bt : (w.heap.bufs p).bt = .par
  resBuf : ∀ r, (w.heap.utls u).resBuf = some r → (w.heap.bufs r).bt = .res
  small : (w.heap.bufs p).attributes.length < 2 ^ 15
  flag : (w.heap.bufs p).bind = true →
    AllBound bound w.drv (w.heap.handle u) p (w.heap.bufs p)

/-- A quiet change that leaves the flag and the bindings of the buffer. -/
theorem ParReady.of_quiet {u : UtlId} {p : BufId} {w w' : World σ} (h : ParReady bound u p w)
    (hq : w.heap.Quiet w'.heap) (hflag : (w'.heap.bufs p).bind = true →
      AllBound bound w'.drv (w.heap.handle u) p (w.heap.bufs p)) : ParReady bound u p w' where
  parBuf := (hq.parBuf u).trans h.parBuf
  bt := (hq.bt p).trans h.bt
  resBuf r hr := (hq.bt r).trans (h.resBuf r (hq.resBuf u ▸ hr))
  small := (hq.attributes_length p).symm ▸ h.small
  flag hf := by
    rw [hq.handle_eq u, allBound_quiet_iff hq]
    exact hflag hf

/-- Buffer `b` may be bound to handle `h` beside parameter buffer `p` of query object `u`. -/
def Beside (u : UtlId) (p : BufId) (hp : Heap) (h : Handle) (b : BufId) : Prop :=
  (b = p → h = hp.handle u) ∧ (b ≠ p → h = hp.handle u → (hp.bufs b).bt = .res)

theorem Beside.of_quiet {u : UtlId} {p b : BufId} {hp hp' : Heap} {h : Handle}
    (hb : Beside u p hp h b) (hq : hp.Quiet hp') : Beside u p hp' h b := by
  unfold Beside
  rw [hq.handle_eq u, hq.bt b]
  exact hb

/-- Binding the buffer, a buffer of results, or one for another statement. -/
theorem ParReady.bind (hk : KeepsBindings cli bound) {u : UtlId} {p c : BufId} {w : World σ}
    (h : ParReady bound u p w) {hd : Handle} (hc : Beside u p w.heap hd c) :
    ParReady bound u p ((Runtime.bind cli c hd).runOn w).2 := by
  have hq : w.heap.Quiet ((Runtime.bind cli c hd).runOn w).2.heap :=
    (quietReach (within_bind (P := fun _ => True) trivial fun _ _ _ _ => trivial) w).heap
  refine h.of_quiet hq fun hf => ?_
  cases hflag : (w.heap.bufs c).bind with
  | true =>
      rw [runOn_bind_flagged hflag] at hf ⊢
      exact h.flag hf
  | false =>
      obtain ⟨rc, w', w'', hrun, hpass, -, hdrv, hother, hself⟩ := runOn_bind_unflagged hk hflag hd
      rw [hrun] at hf ⊢
      dsimp only at hf ⊢
      rw [hdrv]
      by_cases hcp : c = p
      · subst hcp
        rw [hself] at hf
        obtain rfl := of_decide_eq_true hf
        rw [← hc.1 rfl]
        exact hpass.allBound h.small
      · rw [hother p fun heq => hcp heq.symm] at hf
        refine (h.flag hf).congr (.refl _) fun ndx => hpass.others _ _ _ fun hsame => ?_
        rw [h.bt, hc.2 hcp hsame.1.symm] at hsame
        exact absurd hsame.2 (by decide)

/-- A change of the buffer that leaves its shape. -/
theorem ParReady.updBuf {u : UtlId} {p : BufId} {w : World σ} (h : ParReady bound u p w)
    {f : Buffer → Buffer} (hf : SameShape (w.heap.bufs p) (f (w.heap.bufs p))) :
    ParReady bound u p { w with heap := w.heap.updBuf p f } where
  parBuf := h.parBuf
  bt := by
    rw [Heap.updBuf_same, hf.bt]
    exact h.bt
  resBuf r hr := by
    have hres := h.resBuf r hr
    have hne : r ≠ p := by
      rintro rfl
      exact absurd (h.bt.symm.trans hres) (by decide)
    rwa [Heap.updBuf_ne _ _ _ hne]
  small := by
    rw [Heap.updBuf_same, hf.length]
    exact h.small
  flag hflag := by
    rw [Heap.updBuf_same] at hflag ⊢
    rw [hf.bind] at hflag
    exact (h.flag hflag).congr hf fun _ => rfl

/-- The execution leaves the objects but the statuses, and the bindings. -/
theorem executed_shapes (cli : Cli σ) (v : UtlId) (w : World σ) :
    (Utl.executed cli v w).heap.utls = w.heap.utls ∧
      (∀ u, (Utl.executed cli v w).heap.handle u = w.heap.handle u) ∧
      ∀ c, SameShape (w.heap.bufs c) ((Utl.executed cli v w).heap.bufs c) := by
  have hutls : (Utl.executed cli v w).heap.utls = w.heap.utls := issueWriting_utls cli w _
  have hstmts : (Utl.executed cli v w).heap.stmts = w.heap.stmts := issueWriting_stmts cli w _
  refine ⟨hutls, fun u => ?_, fun c => writes_sameShape _ _ c⟩
  rw [Heap.handle, Heap.handle, hutls, hstmts]

/-- Executing any statement. -/
theorem ParReady.executed (hk : KeepsBindings cli bound) {u : UtlId} {p : BufId} {w : World σ}
    (h : ParReady bound u p w) (v : UtlId) : ParReady bound u p (Utl.executed cli v w) := by
  obtain ⟨hutls, hhandle, hshape⟩ := executed_shapes cli v w
  constructor
  · rw [hutls]
    exact h.parBuf
  · rw [(hshape p).bt]
    exact h.bt
  · intro r hr
    rw [hutls] at hr
    rw [(hshape r).bt]
    exact h.resBuf r hr
  · rw [(hshape p).length]
    exact h.small
  · intro hflag
    rw [(hshape p).bind] at hflag
    rw [hhandle]
    exact (h.flag hflag).congr (hshape p) fun ndx =>
      hk.keep _ _ _ _ ndx trivial (by simp [CliCall.binding])

/-- The buffers of query object `v` may be bound to its handle beside parameter buffer `p` of
`u`. -/
def BesideUtl (u : UtlId) (p : BufId) (v : UtlId) (hp : Heap) : Prop :=
  ∀ b, (hp.utls v).parBuf = some b ∨ (hp.utls v).resBuf = some b → Beside u p hp (hp.handle v) b

theorem BesideUtl.of_quiet {u v : UtlId} {p : BufId} {hp hp' : Heap} (h : BesideUtl u p v hp)
    (hq : hp.Quiet hp') : BesideUtl u p v hp' := by
  intro b hb
  rw [hq.parBuf, hq.resBuf] at hb
  rw [hq.handle_eq v]
  exact (h b hb).of_quiet hq

/-- The buffers of the query object itself. -/
theorem ParReady.besideUtl {u : UtlId} {p : BufId} {w : World σ} (h : ParReady bound u p w) :
    BesideUtl u p u w.heap := by
  rintro b (hpar | hres)
  · obtain rfl : b = p := Option.some.inj (hpar.symm.trans h.parBuf)
    exact ⟨fun _ => rfl, fun hne => absurd rfl hne⟩
  · exact ⟨fun _ => rfl, fun _ _ => h.resBuf b hres⟩

/-- The step for one pointer. -/
theorem bindSlot_parReady (hk : KeepsBindings cli bound) {u v : UtlId} {p : BufId}
    {slot : Utl → Option BufId} {w : World σ}
    (hslot : ∀ b, slot (w.heap.utls v) = some b → Beside u p w.heap (w.heap.handle v) b)
    (h : ParReady bound u p w) (rc : Ret) :
    ParReady bound u p ((Utl.bindSlot cli v slot rc).runOn w).2 := by
  unfold Utl.bindSlot
  rw [runOn_bind_ok (runOn_getHeap w)]
  cases hb : slot (w.heap.utls v) with
  | none => exact h
  | some b =>
      have hbind := h.bind hk (hslot b hb)
      unfold Utl.ifOk Utl.assignIf Utl.assignRc
      change ParReady bound u p (runOn (if rc = sqlSuccess then
        Runtime.bind cli b (w.heap.handle v) >>= _ else pure rc) w).2
      split
      · cases hrun : (Runtime.bind cli b (w.heap.handle v)).runOn w with
        | mk r t =>
            rw [hrun] at hbind
            cases r with
            | error e =>
                rw [runOn_bind_error hrun]
                exact hbind
            | ok rc' =>
                rw [runOn_bind_ok hrun]
                exact hbind.of_quiet (World.setRc_quiet t v rc') hbind.flag
      · exact h

/-- The set-up phase of a query object keeps it, however it ends. -/
theorem setup_parReady (hk : KeepsBindings cli bound) {u v : UtlId} {p : BufId} (sql : Str)
    {w : World σ} (hv : BesideUtl u p v w.heap) (h : ParReady bound u p w) :
    ParReady bound u p ((Utl.setup cli v sql).runOn w).2 := by
  let R : World σ → World σ → Prop := fun w w' =>
    BesideUtl u p v w.heap ∧ ParReady bound u p w → BesideUtl u p v w'.heap ∧ ParReady bound u p w'
  have hprep : Within R (Utl.prepareAll cli v sql) := by
    have hall : Within (QuietStep cli (fun c => c.onStatement ∧ c.binding = none) False)
        (Utl.prepareAll cli v sql) :=
      Utl.within_prepareAll (fun _ _ _ => ⟨trivial, rfl⟩) fun _ _ => ⟨trivial, rfl⟩
    refine hall.mono fun w w' hstep hw => ?_
    cases hstep with
    | @call c hc =>
        refine ⟨hw.1, hw.2.of_quiet (.refl _) fun hf => ?_⟩
        exact (hw.2.flag hf).congr (.refl _) fun ndx =>
          hk.keep w.drv c _ _ ndx hc.1 (by simp [hc.2])
    | @heap hp hq hf =>
        have hbufs := hf.resolve_left id
        exact ⟨hw.1.of_quiet hq, hw.2.of_quiet hq fun hflag => hw.2.flag (by rwa [← hbufs])⟩
  have hslot : ∀ (slot : Utl → Option BufId), (∀ q : Utl, ∀ b, slot q = some b →
      q.parBuf = some b ∨ q.resBuf = some b) → ∀ rc, Within R (Utl.bindSlot cli v slot rc) := by
    intro slot hslot rc w
    refine .single fun hw => ⟨?_, bindSlot_parReady hk (fun b hb => hw.1 b (hslot _ b hb)) hw.2 rc⟩
    exact hw.1.of_quiet (quietReach (Utl.within_bindSlot (P := fun _ => True) trivial
      fun _ _ _ _ _ => trivial) w).heap
  have hsetup : Within R (Utl.setup cli v sql) :=
    hprep.bind fun rc => (hslot _ (fun _ _ h => .inl h) rc).bind fun rc =>
      hslot _ (fun _ _ h => .inr h) rc
  exact (hsetup.keeps (I := fun w => BesideUtl u p v w.heap ∧ ParReady bound u p w)
    (fun _ _ hstep hw => hstep hw) ⟨hv, h⟩).2

/-- Behind a successful set-up phase the buffer is bound. -/
theorem allBound_of_setsUp (hk : KeepsBindings cli bound) {u : UtlId} {p : BufId} {sql : Str}
    {w w₁ : World σ} (h : ParReady bound u p w) (hw₁ : Utl.SetsUp cli u sql w w₁) :
    AllBound bound w₁.drv (w₁.heap.handle u) p (w₁.heap.bufs p) := by
  have hend : ParReady bound u p w₁ := by
    have hsetup : ParReady bound u p ((Utl.setup cli u sql).runOn w).2 :=
      setup_parReady hk sql h.besideUtl h
    rwa [show (Utl.setup cli u sql).runOn w = _ from hw₁] at hsetup
  refine hend.flag ?_
  obtain ⟨wp, wr, ws, wb, hph⟩ := hw₁.phases
  have hqs := hph.quiet_prep.trans (World.setRc_quiet ws u sqlSuccess)
  have hqb := hph.quiet_bindPar
  have hne : ∀ r, (wb.heap.utls u).resBuf = some r → r ≠ p := by
    rintro r hr rfl
    rw [hqb.resBuf] at hr
    exact absurd (h.bt.symm.trans (h.resBuf r hr)) (by decide)
  rw [bindSlot_other_bufs hk hph.bindRes fun hr => hne p hr rfl]
  obtain ⟨-, ⟨hnone, -⟩ | ⟨b, t, hsome, hrun, rfl⟩⟩ := Utl.bindSlot_eq_success hph.bindPar
  · rw [hqs.parBuf, h.parBuf] at hnone
    cases hnone
  · obtain rfl : p = b := by
      rw [hqs.parBuf, h.parBuf] at hsome
      exact Option.some.inj hsome
    rw [World.setRc_bufs]
    cases hflag : ((ws.setRc u sqlSuccess).heap.bufs p).bind with
    | true =>
        rw [runOn_bind_flagged hflag] at hrun
        obtain ⟨-, rfl⟩ := Prod.mk.inj hrun
        exact hflag
    | false =>
        obtain ⟨rc, w', w'', hrun', -, -, -, -, hself⟩ :=
          runOn_bind_unflagged hk hflag ((ws.setRc u sqlSuccess).heap.handle u)
        rw [hrun'] at hrun
        obtain ⟨hrc, rfl⟩ := Prod.mk.inj hrun
        rw [hself]
        exact decide_eq_true (Except.ok.inj hrc)

end

/-! ## What a call leaves -/

section

variable {σ : Type} {cli : Cli σ} {bound : σ → Handle → BufType → Int → Option DataAddr}

/-- The buffers are equal up to the flag and the reports of the driver. -/
structure SameRows (b b' : Buffer) : Prop where
  arrSize : b'.arrSize = b.arrSize
  types : b'.types = b.types
  row : ∀ i, b'.row i = b.row i
  occupied : b'.occupied = b.occupied

theorem SameRows.trans {b b' b'' : Buffer} (h : SameRows b b') (h' : SameRows b' b'') :
    SameRows b b'' where
  arrSize := h'.arrSize.trans h.arrSize
  types := h'.types.trans h.types
  row i := (h'.row i).trans (h.row i)
  occupied := h'.occupied.trans h.occupied

theorem Heap.Quiet.sameRows {hp hp' : Heap} (hq : hp.Quiet hp') (b : BufId) :
    SameRows (hp.bufs b) (hp'.bufs b) := by
  constructor
  · exact hq.arrSize b
  · rw [hq.bufs b]
    rfl
  · intro i
    rw [hq.bufs b]
    rfl
  · exact hq.occupied b

/-- What the driver writes while it executes reaches neither the rows nor their number. -/
theorem statusWrites_sameRows {ms : List MemWrite}
    (h : ∀ m ∈ ms, (∃ b n, m = .processed b n) ∨ ∃ b i n, m = .status b i n) (hp : Heap)
    (b : BufId) : SameRows (hp.bufs b) ((ms.foldl Heap.write hp).bufs b) := by
  have hupd : ∀ (hp : Heap) (c : BufId) (f : Buffer → Buffer), (∀ bf, SameRows bf (f bf)) →
      SameRows (hp.bufs b) ((hp.updBuf c f).bufs b) := by
    intro hp c f hf
    by_cases hbc : b = c
    · subst hbc
      rw [Heap.updBuf_same]
      exact hf _
    · rw [Heap.updBuf_ne _ _ _ hbc]
      exact ⟨rfl, rfl, fun _ => rfl, rfl⟩
  induction ms generalizing hp with
  | nil => exact ⟨rfl, rfl, fun _ => rfl, rfl⟩
  | cons m ms ih =>
      obtain ⟨hm, hms⟩ := List.forall_mem_cons.mp h
      have hwrite : SameRows (hp.bufs b) ((hp.write m).bufs b) := by
        rcases hm with ⟨c, v, rfl⟩ | ⟨c, i, v, rfl⟩
        · exact hupd hp c (fun bf => { bf with processed := v }) fun _ =>
            ⟨rfl, rfl, fun _ => rfl, rfl⟩
        · exact hupd hp c (fun bf => bf.setStatus i v) fun _ => ⟨rfl, rfl, fun _ => rfl, rfl⟩
      exact hwrite.trans (ih hms (hp.write m))

/-- Behind the execution only the return code is stored. -/
theorem exec_bufs_of_setsUp {v : UtlId} {sql : Str} {w w₁ : World σ}
    (h : Utl.SetsUp cli v sql w w₁) :
    ((Utl.exec cli v sql).runOn w).2.heap.bufs = (Utl.executed cli v w₁).heap.bufs := by
  have hs : (w.heap.utls v).s = (w₁.heap.utls v).s := (h.reach.heap.stmt v).symm
  have hstate : ((Statement.exec cli (w.heap.utls v).s).runOn w₁).2 = Utl.executed cli v w₁ := by
    unfold Statement.exec
    rw [runOn_bind_ok (runOn_getHeap w₁), hs, runOn_bind_ok (runOn_cliCallWriting cli w₁ _)]
    exact chk_state _ _ _ _
  unfold Utl.exec
  rw [runOn_bind_ok (runOn_getHeap w), runOn_bind_ok h, Utl.ifOk, Utl.assignIf, if_pos rfl,
    Utl.assignRc, ← hstate]
  cases hr : (Statement.exec cli (w.heap.utls v).s).runOn w₁ with
  | mk r t =>
      cases r with
      | error e => rw [runOn_bind_error (runOn_bind_error hr _)]
      | ok rc =>
          rw [runOn_bind_ok (runOn_bind_ok hr _)]
          split
          · exact (congrArg (fun t : World σ => t.heap.bufs) (handleReturnCode_state _ _ _ _)).trans
              rfl
          · rfl

variable {u v : UtlId} {p : BufId} {w : World σ}

/-- A call of a query object keeps the bindings and the rows of another one, and its own. -/
theorem exec_keeps {attr : σ → Handle → StmtAttr → Int} (hd : RunsBatches cli attr)
    (hk : KeepsBindings cli bound) (sql : Str) (hv : BesideUtl u p v w.heap)
    (h : ParReady bound u p w) :
    ParReady bound u p ((Utl.exec cli v sql).runOn w).2 ∧
      (∀ t, ((Utl.exec cli v sql).runOn w).2.heap.handle t = w.heap.handle t) ∧
      SameRows (w.heap.bufs p) (((Utl.exec cli v sql).runOn w).2.heap.bufs p) := by
  have hsetup := setup_parReady hk sql hv h
  by_cases hup : ∃ w₁, Utl.SetsUp cli v sql w w₁
  · obtain ⟨w₁, hw₁⟩ := hup
    rw [show (Utl.setup cli v sql).runOn w = _ from hw₁] at hsetup
    obtain ⟨hp, hstate, hquiet⟩ := Utl.runOn_exec_of_setsUp hw₁
    have hbufs := exec_bufs_of_setsUp hw₁
    obtain ⟨-, hhandle, -⟩ := executed_shapes cli v w₁
    have hwrites : ∀ m ∈ (cli.call w₁.drv (.execute (w₁.heap.handle v))).1.writes,
        (∃ b n, m = .processed b n) ∨ ∃ b i n, m = .status b i n := by
      intro m hm
      rcases hd.writes _ _ m hm with ⟨b, k, rfl, -⟩ | ⟨b, i, v, rfl, -⟩
      · exact .inl ⟨b, k, rfl⟩
      · exact .inr ⟨b, i, v, rfl⟩
    rw [hstate] at hbufs ⊢
    have hready := hsetup.executed hk v
    refine ⟨hready.of_quiet hquiet fun hf => hready.flag ?_, fun t => ?_, ?_⟩
    · rwa [← hbufs]
    · exact (hquiet.handle_eq t).trans ((hhandle t).trans (hw₁.reach.heap.handle_eq t))
    · exact (hw₁.reach.heap.sameRows p).trans
        ((statusWrites_sameRows hwrites w₁.heap p).trans (hquiet.sameRows p))
  · have hq := (Utl.setup_reach cli v sql w).heap
    rw [Utl.exec_state_of_not_setsUp fun w₁ hw₁ => hup ⟨w₁, hw₁⟩]
    exact ⟨hsetup, fun t => hq.handle_eq t, hq.sameRows p⟩

end

/-! ## The simulation -/

section

variable {σ : Type} {cli : Cli σ} {attr : σ → Handle → StmtAttr → Int}
  {bound : σ → Handle → BufType → Int → Option DataAddr}

/-- What the trace shows of the batches that were sent with the statement `h`. -/
def sentIn (attr : σ → Handle → StmtAttr → Int)
    (bound : σ → Handle → BufType → Int → Option DataAddr) (h : Handle) (cols : Nat)
    (trace : List (Event σ)) : List (List (List (Option Cell))) :=
  trace.filterMap (sentBatch attr bound h cols)

/-- The types of the attributes of a class. -/
def typesOf (attrs : List AttrDscr) : List (Int × Nat) := attrs.map fun a => (a.dbType, a.width)

/-- The program is where the machine is; `before` is what the trace showed at the start. -/
structure AtBatch (attr : σ → Handle → StmtAttr → Int)
    (bound : σ → Handle → BufType → Int → Option DataAddr) (u : UtlId) (p : BufId) (n : Nat)
    (attrs : List AttrDscr) (h : Handle) (before : List (List (List (Option Cell))))
    (w : World σ) (b : Batch) : Prop where
  handle : w.heap.handle u = h
  ready : ParReady bound u p w
  arrSize : (w.heap.bufs p).arrSize = n
  types : (w.heap.bufs p).types = typesOf attrs
  rows : ∀ i < n, (w.heap.bufs p).row i = b.row i
  occupied : (w.heap.bufs p).occupied = b.occupied
  size : batchRows (attr w.drv h .paramsetSize) = b.size
  occupied_le : b.occupied ≤ n
  size_le : b.size ≤ n
  sent : sentIn attr bound h attrs.length w.trace = before ++ b.sent.map complete

/-- What a program may ask for: a value for an attribute of its type, and no more rows than the
buffer has. -/
def InsertOp.Allowed (n : Nat) (attrs : List AttrDscr) : InsertOp → Prop
  | .set k _ v => Buffer.TakesAt (typesOf attrs) k v
  | .setOccupied v => v ≤ n
  | .exec _ => True

theorem widths_of_types {b : Buffer} {attrs : List AttrDscr} (h : b.types = typesOf attrs) :
    b.widths = attrs.map AttrDscr.width := by
  have hw : b.widths = b.types.map Prod.snd := by
    unfold Buffer.widths Buffer.types
    rw [List.map_map]
    rfl
  rw [hw, h, typesOf, List.map_map]
  rfl

theorem sentIn_append (h : Handle) (cols : Nat) (trace new : List (Event σ)) :
    sentIn attr bound h cols (trace ++ new) =
      sentIn attr bound h cols trace ++ sentIn attr bound h cols new := List.filterMap_append

/-- Where no event executes the statement, nothing is sent with it. -/
theorem sentIn_of_ne {h : Handle} {cols : Nat} {new : List (Event σ)}
    (hnew : ∀ e ∈ new, e.call ≠ .execute h) : sentIn attr bound h cols new = [] :=
  List.filterMap_eq_nil_iff.mpr fun e he => if_neg (hnew e he)

/-- The calls of a set-up phase send nothing. -/
theorem sentIn_setup {h : Handle} {cols : Nat} {new : List (Event σ)}
    (hnew : ∀ e ∈ new, e.call.isSetup) : sentIn attr bound h cols new = [] := by
  refine sentIn_of_ne fun e he hcall => ?_
  have hsetup := hnew e he
  rw [hcall] at hsetup
  exact hsetup

theorem map_getElem?_range {α : Type} (l : List α) :
    ((List.range l.length).map fun k => l[k]?) = l.map some := by
  refine List.ext_getElem (by simp) fun k hk hk' => ?_
  rw [List.length_map, List.length_range] at hk
  simp [hk]

namespace AtBatch

variable {u : UtlId} {p : BufId} {n : Nat} {attrs : List AttrDscr} {hd : Handle}
  {before : List (List (List (Option Cell)))} {w : World σ} {b : Batch}

theorem set (hs : Buffer.Storable (typesOf attrs))
    (h : AtBatch attr bound u p n attrs hd before w b) {k i : Nat} {v : Cell}
    (hv : Buffer.TakesAt (typesOf attrs) k v) :
    AtBatch attr bound u p n attrs hd before (InsertOp.step cli u p w (.set k i v))
      (b.step n (attrs.map AttrDscr.width) (.set k i v)) := by
  have hbuf : (InsertOp.step cli u p w (.set k i v)).heap.bufs p = (w.heap.bufs p).change k i v :=
    Heap.updBuf_same w.heap p fun bf => bf.change k i v
  have hready : ParReady bound u p (InsertOp.step cli u p w (.set k i v)) :=
    h.ready.updBuf ⟨rfl, rfl, List.length_modify _ _ _⟩
  have hstorable : Buffer.Storable (w.heap.bufs p).types := h.types ▸ hs
  have htakes : Buffer.TakesAt (w.heap.bufs p).types k v := h.types ▸ hv
  have hrest : ∀ b' : Batch, b'.occupied = b.occupied → b'.size = b.size → b'.sent = b.sent →
      (∀ j < n, ((w.heap.bufs p).change k i v).row j = b'.row j) →
      AtBatch attr bound u p n attrs hd before (InsertOp.step cli u p w (.set k i v)) b' := by
    intro b' hocc hsize hsent hrows
    refine ⟨h.handle, hready, ?_, ?_, ?_, ?_, hsize ▸ h.size, hocc ▸ h.occupied_le,
      hsize ▸ h.size_le, hsent ▸ h.sent⟩
    · rw [hbuf]
      exact h.arrSize
    · rw [hbuf, Buffer.types_change hstorable htakes]
      exact h.types
    · rw [hbuf]
      exact hrows
    · rw [hbuf, hocc]
      exact h.occupied
  unfold Batch.step
  by_cases hi : i < n
  · simp only [if_pos hi]
    refine hrest _ rfl rfl rfl fun j hj => ?_
    rw [Buffer.row_change hstorable htakes (h.arrSize.symm ▸ hi), widths_of_types h.types,
      h.rows j hj]
    change _ = Function.update b.row i _ j
    rw [Function.update_apply]
    split
    · next hji => rw [hji]
    · rfl
  · simp only [if_neg hi]
    refine hrest b rfl rfl rfl fun j hj => ?_
    rw [Buffer.change_of_le hstorable htakes (h.arrSize.symm ▸ Nat.not_lt.mp hi)]
    exact h.rows j hj

theorem setOccupied (h : AtBatch attr bound u p n attrs hd before w b) {v : Nat} (hv : v ≤ n) :
    AtBatch attr bound u p n attrs hd before (InsertOp.step cli u p w (.setOccupied v))
      (b.step n (attrs.map AttrDscr.width) (.setOccupied v)) := by
  have hbuf : (InsertOp.step cli u p w (.setOccupied v)).heap.bufs p =
      { w.heap.bufs p with occupied := v } :=
    Heap.updBuf_same w.heap p fun bf => { bf with occupied := v }
  have hready : ParReady bound u p (InsertOp.step cli u p w (.setOccupied v)) :=
    h.ready.updBuf (f := fun bf => { bf with occupied := v }) ⟨rfl, rfl, rfl⟩
  refine ⟨h.handle, hready, ?_, ?_, ?_, ?_, h.size, hv, h.size_le, h.sent⟩
  · rw [hbuf]
    exact h.arrSize
  · rw [hbuf]
    exact h.types
  · rw [hbuf]
    exact h.rows
  · rw [hbuf]
    rfl

/-- A change that leaves the rows and sends `new`. -/
theorem change (h : AtBatch attr bound u p n attrs hd before w b) (w' : World σ)
    (hhandle : w'.heap.handle u = w.heap.handle u) (hready : ParReady bound u p w')
    (hrows : SameRows (w.heap.bufs p) (w'.heap.bufs p)) (size : Nat)
    (hsize : batchRows (attr w'.drv hd .paramsetSize) = size) (hle : size ≤ n)
    (new : List (List (List Cell))) (hsent : sentIn attr bound hd attrs.length w'.trace =
      sentIn attr bound hd attrs.length w.trace ++ new.map complete) :
    AtBatch attr bound u p n attrs hd before w' { b with size, sent := b.sent ++ new } where
  handle := hhandle.trans h.handle
  ready := hready
  arrSize := hrows.arrSize.trans h.arrSize
  types := hrows.types.trans h.types
  rows i hi := (hrows.row i).trans (h.rows i hi)
  occupied := hrows.occupied.trans h.occupied
  size := hsize
  occupied_le := h.occupied_le
  size_le := hle
  sent := by rw [hsent, h.sent, List.map_append, List.append_assoc]

theorem size_setup (hd' : RunsBatches cli attr) (hn : n < 2 ^ 32)
    (h : AtBatch attr bound u p n attrs hd before w b) (sql : Str) :
    let d := ((Utl.setup cli u sql).runOn w).2.drv
    batchRows (attr d hd .paramsetSize) = b.size ∨
      batchRows (attr d hd .paramsetSize) = b.nextSize := by
  have hocc : (w.heap.bufs p).occupied % 2 ^ 32 = b.occupied := by
    rw [h.occupied]
    exact Nat.mod_eq_of_lt (Nat.lt_of_le_of_lt h.occupied_le hn)
  have hsized := attr_sized hd' u p w
  rw [h.handle] at hsized
  intro d
  rw [attr_setup hd' sql h.ready.parBuf]
  rcases hsized with hattr | ⟨hone, hattr⟩
  · rw [hattr]
    exact .inl h.size
  · rw [hattr, batchRows_int32, hocc, Batch.nextSize, if_pos (h.occupied ▸ hone)]
    exact .inr rfl

theorem nextSize_le (h : AtBatch attr bound u p n attrs hd before w b) : b.nextSize ≤ n := by
  unfold Batch.nextSize
  split
  · exact h.occupied_le
  · exact h.size_le

/-- The call ends in its set-up phase. -/
theorem exec_refused (hd' : RunsBatches cli attr) (hk : KeepsBindings cli bound) (hn : n < 2 ^ 32)
    (h : AtBatch attr bound u p n attrs hd before w b) {sql : Str}
    (hno : ∀ w₁, ¬ Utl.SetsUp cli u sql w w₁) :
    ∃ size, (size = b.size ∨ size = b.nextSize) ∧
      AtBatch attr bound u p n attrs hd before (InsertOp.step cli u p w (.exec sql))
        { b with size } := by
  have hstate : ((Utl.exec cli u sql).runOn w).2 = ((Utl.setup cli u sql).runOn w).2 :=
    Utl.exec_state_of_not_setsUp hno
  obtain ⟨new, htrace, hnew⟩ := (Utl.setup_reach cli u sql w).trace
  obtain ⟨hready, hhandle, hrows⟩ := exec_keeps hd' hk sql h.ready.besideUtl h.ready
  have hsize := h.size_setup hd' hn sql
  have hle : batchRows (attr ((Utl.setup cli u sql).runOn w).2.drv hd .paramsetSize) ≤ n := by
    rcases hsize with heq | heq
    · rw [heq]
      exact h.size_le
    · rw [heq]
      exact h.nextSize_le
  refine ⟨_, hsize, ?_⟩
  have hend := h.change _ (hhandle u) hready hrows _ (by rw [hstate]) hle [] (by
    rw [hstate, htrace, sentIn_append, sentIn_setup hnew]
    rfl)
  rwa [List.append_nil] at hend

/-- The number of rows in force when the statement is executed. -/
theorem batchRows_setsUp (hd' : RunsBatches cli attr) (hn : n < 2 ^ 32)
    (h : AtBatch attr bound u p n attrs hd before w b) {sql : Str} {w₁ : World σ}
    (hw₁ : Utl.SetsUp cli u sql w w₁) :
    batchRows (attr w₁.drv hd .paramsetSize) = b.nextSize := by
  obtain ⟨wp, wr, ws, wb, hph⟩ := hw₁.phases
  have hattr := hph.paramset_eq hd'.attrs h.ready.parBuf
  rw [h.handle] at hattr
  rw [hattr, h.occupied]
  unfold Batch.nextSize
  split
  · rw [batchRows_int32]
    exact Nat.mod_eq_of_lt (Nat.lt_of_le_of_lt h.occupied_le hn)
  · exact h.size

/-- The driver finds the rows of the machine. -/
theorem elements_eq (hk : KeepsBindings cli bound)
    (h : AtBatch attr bound u p n attrs hd before w b) {sql : Str} {w₁ : World σ}
    (hw₁ : Utl.SetsUp cli u sql w w₁) {i : Nat} (hi : i < n) :
    ((List.range attrs.length).map fun k : Nat =>
        (bound w₁.drv hd .par ((k : Int) + 1)).bind fun data => w₁.heap.element data i) =
      (b.row i).map some := by
  have hq := hw₁.reach.heap
  have hrows := hq.sameRows p
  have hrow : (w₁.heap.bufs p).row i = b.row i := (hrows.row i).trans (h.rows i hi)
  have hcols : (w₁.heap.bufs p).attributes.length = attrs.length := by
    rw [← Buffer.length_types, hrows.types, h.types, typesOf, List.length_map]
  have hlength : (b.row i).length = attrs.length := by
    rw [← hrow, Buffer.length_row, Buffer.length_types, hcols]
  have hbound := allBound_of_setsUp hk h.ready hw₁
  have hpar : (w₁.heap.bufs p).bt = .par := (hq.bt p).trans h.ready.bt
  have hcell : ∀ k ∈ List.range attrs.length,
      ((bound w₁.drv hd .par ((k : Int) + 1)).bind fun data => w₁.heap.element data i) =
        (b.row i)[k]? := by
    intro k hk'
    have hb := hbound k (hcols ▸ List.mem_range.mp hk')
    rw [hpar, hq.handle_eq u, h.handle] at hb
    have hsize : i < (w₁.heap.bufs p).arrSize := hrows.arrSize.symm ▸ h.arrSize.symm ▸ hi
    rw [hb, Option.bind_some, Heap.element, if_pos hsize, hrow]
  rw [List.map_congr_left hcell, ← hlength]
  exact map_getElem?_range (b.row i)

/-- The batch that is sent is the one of the machine. -/
theorem sentBatch_executeEvent (hd' : RunsBatches cli attr) (hk : KeepsBindings cli bound)
    (hn : n < 2 ^ 32) (h : AtBatch attr bound u p n attrs hd before w b) {sql : Str}
    {w₁ : World σ} (hw₁ : Utl.SetsUp cli u sql w w₁) :
    sentBatch attr bound hd attrs.length (Utl.executeEvent cli u w₁) =
      some (complete ((List.range b.nextSize).map b.row)) := by
  have hcall : (Utl.executeEvent cli u w₁).call = .execute hd := by
    rw [← h.handle, ← hw₁.reach.heap.handle_eq u]
    rfl
  have hrows : ((List.range (batchRows (attr w₁.drv hd .paramsetSize))).map fun i =>
      (List.range attrs.length).map fun k : Nat =>
        (bound w₁.drv hd .par ((k : Int) + 1)).bind fun data =>
          w₁.heap.element data i) = complete ((List.range b.nextSize).map b.row) := by
    rw [h.batchRows_setsUp hd' hn hw₁, complete, List.map_map]
    refine List.map_congr_left fun i hi => ?_
    exact h.elements_eq hk hw₁ (Nat.lt_of_lt_of_le (List.mem_range.mp hi) h.nextSize_le)
  exact (if_pos hcall).trans (congrArg some hrows)

/-- The call reaches `SQLExecute`. -/
theorem exec_done (hd' : RunsBatches cli attr) (hk : KeepsBindings cli bound) (hn : n < 2 ^ 32)
    (h : AtBatch attr bound u p n attrs hd before w b) {sql : Str} {w₁ : World σ}
    (hw₁ : Utl.SetsUp cli u sql w w₁) :
    AtBatch attr bound u p n attrs hd before (InsertOp.step cli u p w (.exec sql))
      (b.step n (attrs.map AttrDscr.width) (.exec sql)) := by
  obtain ⟨new, htrace, hnew⟩ := hw₁.reach.trace
  obtain ⟨hp, hstate, -⟩ := Utl.runOn_exec_of_setsUp hw₁
  obtain ⟨hready, hhandle, hrows⟩ := exec_keeps hd' hk sql h.ready.besideUtl h.ready
  have hattr : attr (Utl.executed cli u w₁).drv hd .paramsetSize =
      attr w₁.drv hd .paramsetSize := hd'.attrs.keep _ _ _ _ trivial nofun
  refine h.change _ (hhandle u) hready hrows b.nextSize ?_ h.nextSize_le
    [(List.range b.nextSize).map b.row] ?_
  · rw [hstate]
    exact (congrArg batchRows hattr).trans (h.batchRows_setsUp hd' hn hw₁)
  · rw [Utl.exec_trace_of_setsUp hw₁, htrace, sentIn_append, sentIn_append, sentIn_setup hnew,
      List.append_nil]
    exact congrArg _ (List.filterMap_cons_some (h.sentBatch_executeEvent hd' hk hn hw₁))

end AtBatch

/-- A new query object with a new parameter buffer for `n` rows. -/
structure NewInsert (attr : σ → Handle → StmtAttr → Int) (u : UtlId) (p : BufId) (n : Nat)
    (attrs : List AttrDscr) (w : World σ) : Prop where
  parBuf : (w.heap.utls u).parBuf = some p
  resBuf : ∀ r, (w.heap.utls u).resBuf = some r → (w.heap.bufs r).bt = .res
  buf : w.heap.bufs p = .new .par n attrs
  size : attr w.drv (w.heap.handle u) .paramsetSize = 1

/-- Attributes that the runtime stores and binds. -/
structure Insertable (n : Nat) (attrs : List AttrDscr) : Prop where
  storable : Buffer.Storable (typesOf attrs)
  cols : attrs.length < 2 ^ 15
  rows : 1 ≤ n
  size : n < 2 ^ 32

theorem new_types (bt : BufType) (n : Nat) (attrs : List AttrDscr) :
    (Buffer.new bt n attrs).types = typesOf attrs := by
  unfold Buffer.types Buffer.new typesOf
  rw [List.map_map]
  rfl

theorem new_row (bt : BufType) {n : Nat} (attrs : List AttrDscr) {i : Nat} (hi : i < n) :
    (Buffer.new bt n attrs).row i = List.replicate attrs.length none := by
  have hcell : ∀ a : AttrDscr, (AttrRoot.new n a.dbType a.dec a.width).cell i = none := by
    intro a
    unfold AttrRoot.cell AttrRoot.new
    rw [dif_pos hi]
    simp
  have hrow : (Buffer.new bt n attrs).row i =
      attrs.map fun a => (AttrRoot.new n a.dbType a.dec a.width).cell i := by
    unfold Buffer.row Buffer.new
    rw [List.map_map]
    rfl
  rw [hrow]
  simp only [hcell]
  exact List.map_const'

variable {u : UtlId} {p : BufId} {n : Nat} {attrs : List AttrDscr} {w : World σ}

theorem NewInsert.atBatch (h : NewInsert attr u p n attrs w) (hi : Insertable n attrs) :
    AtBatch attr bound u p n attrs (w.heap.handle u)
      (sentIn attr bound (w.heap.handle u) attrs.length w.trace) w (.new attrs.length) where
  handle := rfl
  ready :=
    { parBuf := h.parBuf, resBuf := h.resBuf
      bt := by
        rw [h.buf]
        rfl
      small := by
        rw [← Buffer.length_types, h.buf, new_types, typesOf, List.length_map]
        exact hi.cols
      flag := fun hf => by
        rw [h.buf] at hf
        cases hf }
  arrSize := by
    rw [h.buf]
    rfl
  types := by rw [h.buf, new_types]
  rows i hlt := by
    rw [h.buf]
    exact new_row .par attrs hlt
  occupied := by
    rw [h.buf]
    rfl
  size := by
    rw [h.size]
    rfl
  occupied_le := Nat.zero_le n
  size_le := hi.rows
  sent := (List.append_nil _).symm

theorem insert_grows (cli : Cli σ) (u : UtlId) (p : BufId) :
    Grows (InsertOp.step cli u p) World.trace := by
  intro w op
  cases op with
  | set k i v => exact List.prefix_refl _
  | setOccupied v => exact batch_grows cli u p w _
  | exec sql => exact batch_grows cli u p w _

variable {hd : Handle}

/-- What was sent since the start. -/
theorem AtBatch.sent_since {w' : World σ} {b : Batch}
    (h : AtBatch attr bound u p n attrs hd (sentIn attr bound hd attrs.length w.trace) w' b)
    (hgrows : w.trace <+: w'.trace) :
    sentIn attr bound hd attrs.length (newEvents w w') = b.sent.map complete := by
  obtain ⟨new, htrace⟩ := hgrows
  have hsent := h.sent
  rw [← htrace, sentIn_append] at hsent
  rw [newEvents, newEntries_eq htrace.symm]
  exact List.append_cancel_left hsent

section

variable {before : List (List (List (Option Cell)))} {b : Batch} (hd' : RunsBatches cli attr)
  (hk : KeepsBindings cli bound) (hi : Insertable n attrs)

include hd' hk hi

/-- A call that an accepting driver answers is matched by the machine. -/
theorem AtBatch.step (h : AtBatch attr bound u p n attrs hd before w b) {op : InsertOp}
    (hop : op.Allowed n attrs)
    (hup : ∀ sql, op = .exec sql → ∃ w₁, Utl.SetsUp cli u sql w w₁) :
    AtBatch attr bound u p n attrs hd before (InsertOp.step cli u p w op)
      (b.step n (attrs.map AttrDscr.width) op) := by
  cases op with
  | set k i v => exact h.set hi.storable hop
  | setOccupied v => exact h.setOccupied hop
  | exec sql =>
      obtain ⟨w₁, hw₁⟩ := hup sql rfl
      exact h.exec_done hd' hk hi.size hw₁

/-- Every call is matched by one of the outcomes of the machine. -/
theorem AtBatch.exists_step (h : AtBatch attr bound u p n attrs hd before w b) {op : InsertOp}
    (hop : op.Allowed n attrs) :
    ∃ b', Batch.Step n (attrs.map AttrDscr.width) b op b' ∧
      AtBatch attr bound u p n attrs hd before (InsertOp.step cli u p w op) b' := by
  by_cases hup : ∀ sql, op = .exec sql → ∃ w₁, Utl.SetsUp cli u sql w w₁
  · exact ⟨_, .done b op, h.step hd' hk hi hop hup⟩
  · push Not at hup
    obtain ⟨sql, rfl, hno⟩ := hup
    obtain ⟨size, hsize, h'⟩ := h.exec_refused hd' hk hi.size hno
    exact ⟨_, .refused b sql hsize, h'⟩

end

/-- Where the driver accepts every call of the set-up phase, it reads the batches of the
machine. -/
theorem run_sends (hd' : RunsBatches cli attr) (hk : KeepsBindings cli bound)
    (hup : ∀ (sql : Str) (w : World σ), ∃ w₁, Utl.SetsUp cli u sql w w₁)
    (hi : Insertable n attrs) (hw : NewInsert attr u p n attrs w) (ops : List InsertOp)
    (hops : ∀ op ∈ ops, op.Allowed n attrs) :
    sentIn attr bound (w.heap.handle u) attrs.length
        (newEvents w (ops.foldl (InsertOp.step cli u p) w)) =
      ((ops.foldl (Batch.step n (attrs.map AttrDscr.width)) (.new attrs.length)).sent).map
        complete := by
  have hstep := fun (w' : World σ) (b : Batch) (op : InsertOp)
      (h : AtBatch attr bound u p n attrs (w.heap.handle u)
        (sentIn attr bound (w.heap.handle u) attrs.length w.trace) w' b)
      (hop : op.Allowed n attrs) =>
    h.step hd' hk hi hop fun sql _ => hup sql w'
  have hrun := related_foldl hstep hops (hw.atBatch hi)
  exact hrun.sent_since ((insert_grows cli u p).run ops w)

end

end Dbgen3.Runtime
