import Dbgen3.Runtime.BatchSize
import Dbgen3.Runtime.Rows
import Dbgen3.Runtime.Sharing

/-!
# Fetching a result set

A client executes a query object and fetches until there is no more data or a
block is not full. The loop is tied to the rows the driver still holds by a
cursor invariant: one fetch moves one block from the driver to the client.
-/

namespace Dbgen3.Runtime

open Act Relation

variable {σ : Type} (cli : Cli σ)

/-! ## The client -/

/-- Rows `0` to `rows_read() - 1` of the result buffer. -/
def consume (hp : Heap) (u : UtlId) : List (List Cell) :=
  match (hp.utls u).resBuf with
  | none => []
  | some r => (List.range (Utl.rowsRead hp u)).map (hp.bufs r).row

/-- `res_buf()->size()`. -/
def resSize (hp : Heap) (u : UtlId) : Nat :=
  match (hp.utls u).resBuf with
  | none => 0
  | some r => (hp.bufs r).arrSize

/-- The loop: it goes on while `fetch` returns `SQL_SUCCESS` and stops early at a
block that is not full. Without fuel it is cut off. -/
def fetchLoop (u : UtlId) : Nat → Act (World σ) Exc (Option (List (List Cell)))
  | 0 => pure none
  | fuel + 1 => do
      let rc ← Utl.fetch cli u
      if rc = sqlSuccess then do
        let hp ← getHeap
        if Utl.rowsRead hp u < resSize hp u then pure (some (consume hp u))
        else do
          let rest ← fetchLoop u fuel
          pure (rest.map fun rows => consume hp u ++ rows)
      else pure (some [])

/-- Construct a generated query object, execute it once and run the loop. -/
def selectAll (u : UtlId) (db : Handle) (sql : Str) (allowedCodes : List Int)
    (par : Option (Nat × List AttrDscr)) (n : Nat) (attrs : List AttrDscr) (fuel : Nat) :
    Act (World σ) Exc (Option (List (List Cell))) := do
  Utl.newGenerated cli u db sql allowedCodes par (some (n, attrs))
  let _ ← Utl.exec cli u []
  fetchLoop cli u fuel

variable {cli} {v : DriverView σ} {rows : List (List Cell)}

/-! ## Every set-up step succeeds -/

theorem returns_getHeap_bind {α : Type} {f : Heap → Act (World σ) Exc α} {a : α}
    (h : ∀ hp, Returns (f hp) a) : Returns (getHeap >>= f) a :=
  returns_bind_of fun w => ⟨w.heap, rfl, h w.heap⟩

theorem returns_cliCall_bind {α : Type} {c : CliCall} {f : Reply → Act (World σ) Exc α} {a : α}
    (hc : ∀ d, (cli.call d c).1.rc = sqlSuccess)
    (h : ∀ r : Reply, r.rc = sqlSuccess → Returns (f r) a) :
    Returns (cliCall cli c >>= f) a :=
  returns_bind_of fun w => ⟨_, rfl, h _ (hc w.drv)⟩

theorem returns_modifyHeap (f : Heap → Heap) :
    Returns (modifyHeap f : Act (World σ) Exc PUnit) ⟨⟩ := fun _ => rfl

theorem returns_chk (s : StmtId) (t : Bool) : Returns (Statement.chk cli s sqlSuccess t) sqlSuccess :=
  fun _ => rfl

section Succeeds

variable (hf : Fetches cli v rows)
include hf

theorem returns_setStmtAttr {s : StmtId} {a : StmtAttr} {x : AttrValue}
    {step : Act (World σ) Exc Ret}
    (hstep : step = getHeap >>= fun hp => cliCall cli (.setStmtAttr (hp.stmts s).handle a x) >>=
      fun reply => pure reply.rc) : Returns step sqlSuccess := by
  subst hstep
  apply returns_getHeap_bind
  intro hp
  apply returns_cliCall_bind fun d => hf.succeeds d _ (by simp)
  intro r hr
  rw [hr]
  exact returns_pure _

theorem returns_prepare (s : StmtId) (sql : Str) :
    Returns (Statement.prepare cli s sql) sqlSuccess := by
  have hgiven : Returns (Statement.prepareGiven cli s) sqlSuccess := by
    apply returns_getHeap_bind
    intro hp
    dsimp only
    split
    · apply returns_cliCall_bind fun d => hf.succeeds d _ (by simp)
      intro r hr
      rw [hr]
      exact (returns_chk s false).bind ((returns_modifyHeap _).bind (returns_pure _))
    · exact returns_pure _
  rw [Statement.prepare_eq]
  split
  · exact (returns_modifyHeap _).bind hgiven
  · exact hgiven

theorem returns_bind (b : BufId) (h : Handle) : Returns (bind cli b h) sqlSuccess := by
  have hfrom : ∀ {n : Nat} (bt : BufType) (els : List (AttrRoot n)) (pos : Nat),
      Returns (bindFrom cli b bt h pos els) sqlSuccess := by
    intro n bt els
    induction els with
    | nil => exact fun pos => returns_pure _
    | cons el rest ih =>
        intro pos
        apply returns_cliCall_bind fun d => hf.succeeds d _ (by cases bt <;> simp [AttrRoot.bindCall])
        intro r hr
        rw [if_neg (by simp [hr])]
        exact ih (pos + 1)
  apply returns_getHeap_bind
  intro hp
  split
  · exact returns_pure _
  · apply returns_getHeap_bind
    intro hp
    apply (hfrom _ _ 0).bind
    rw [if_neg (by simp)]
    exact (returns_modifyHeap _).bind (returns_pure _)

end Succeeds

namespace Utl

theorem returns_assignRc {u : UtlId} {step : Act (World σ) Exc Ret}
    (h : Returns step sqlSuccess) : Returns (assignRc u step) sqlSuccess :=
  h.bind ((returns_modifyHeap _).bind (returns_pure _))

theorem returns_assignIf {u : UtlId} {c : Prop} [Decidable c] {step : Act (World σ) Exc Ret}
    (h : Returns step sqlSuccess) : Returns (assignIf u c sqlSuccess step) sqlSuccess := by
  unfold assignIf
  split
  · exact returns_assignRc h
  · exact returns_pure _

/-- The set-up phase succeeds from every world. -/
theorem setsUp_of_fetches (hf : Fetches cli v rows) (u : UtlId) (sql : Str) (w : World σ) :
    ∃ w₁, SetsUp cli u sql w w₁ := by
  have hpar : Returns (prepareParameterBuffer cli u) sqlSuccess := by
    apply (returns_assignRc (returns_pure _)).bind
    apply returns_getHeap_bind
    intro hp
    cases (hp.utls u).parBuf with
    | none => exact returns_pure _
    | some p =>
        apply (returns_assignIf (returns_setStmtAttr hf rfl)).bind
        exact (returns_assignIf (returns_setStmtAttr hf rfl)).bind
          (returns_assignIf (returns_setStmtAttr hf rfl))
  have hres : Returns (prepareResultBuffer cli u) sqlSuccess := by
    apply (returns_assignRc (returns_pure _)).bind
    apply returns_getHeap_bind
    intro hp
    cases (hp.utls u).resBuf with
    | none => exact returns_pure _
    | some p =>
        exact (returns_assignIf (returns_setStmtAttr hf rfl)).bind
          (returns_assignIf (returns_setStmtAttr hf rfl))
  have hall : Returns (prepareAll cli u sql) sqlSuccess := by
    apply returns_getHeap_bind
    intro hp
    apply (returns_assignRc (returns_pure _)).bind
    apply (returns_assignIf hpar).bind
    apply (returns_assignIf hres).bind
    exact returns_assignIf (returns_prepare hf _ sql)
  have hslot : ∀ slot, Returns (bindSlot cli u slot sqlSuccess) sqlSuccess := by
    intro slot
    apply returns_getHeap_bind
    intro hp
    cases slot (hp.utls u) with
    | none => exact returns_pure _
    | some b => exact returns_assignIf (returns_bind hf b _)
  exact ⟨_, (hall.bind ((hslot _).bind (hslot _))).runOn w⟩

/-- `exec` returns normally and ends after `SQLExecute`. -/
theorem exec_of_fetches (hf : Fetches cli v rows) (u : UtlId) (sql : Str) (w : World σ) :
    ∃ w₁ hp, SetsUp cli u sql w w₁ ∧ (executed cli u w₁).heap.Quiet hp ∧
      (exec cli u sql).runOn w = (.ok sqlSuccess, { executed cli u w₁ with heap := hp }) := by
  obtain ⟨w₁, hw₁⟩ := setsUp_of_fetches hf u sql w
  obtain ⟨hp, hstate, hq⟩ := runOn_exec_of_setsUp hw₁
  have hexec : ∀ s, Returns (Statement.exec cli s) sqlSuccess := by
    intro s
    apply returns_getHeap_bind
    intro hp
    apply returns_bind_of
    intro w
    refine ⟨_, rfl, ?_⟩
    rw [hf.succeeds _ _ (by simp)]
    exact returns_chk s false
  have hret : ((exec cli u sql).runOn w).1 = .ok sqlSuccess := by
    unfold exec
    rw [runOn_bind_ok (runOn_getHeap w), runOn_bind_ok hw₁]
    have hlast : Returns (ifOk u sqlSuccess (Statement.exec cli (w.heap.utls u).s) >>= fun rc =>
        if rc ≠ sqlSuccess then Statement.handleReturnCode cli (w.heap.utls u).s rc
          (w.heap.utls u).allowedCodes else pure sqlSuccess : Act (World σ) Exc Ret) sqlSuccess := by
      apply (returns_assignIf (hexec _)).bind
      rw [if_neg (by simp)]
      exact returns_pure _
    exact hlast w₁
  exact ⟨w₁, hp, hw₁, hq, Prod.ext hret hstate⟩

end Utl

/-! ## One fetch -/

/-- Query object `u` has `rem` still to fetch into its result buffer `r` of `n` rows. -/
structure Cursor (v : DriverView σ) (u : UtlId) (r : BufId) (n : Nat) (ws : List Nat)
    (w : World σ) (rem : List (Row ws)) : Prop where
  resBuf : (w.heap.utls u).resBuf = some r
  size : (w.heap.bufs r).arrSize = n
  widths : (w.heap.bufs r).widths = ws
  bound : ColsBound (v.bound w.drv (w.heap.handle u) .res) r ws.length
  counter : v.rowsFetched w.drv (w.heap.handle u) = some r
  array : v.attr w.drv (w.heap.handle u) .rowArraySize = n
  remaining : v.remaining w.drv (w.heap.handle u) = rem.map Row.cells

theorem chk_runOn (hf : Fetches cli v rows) (s : StmtId) (rc : Ret) (w : World σ) :
    (Statement.chk cli s rc false).runOn w = (.ok rc, w) := by
  obtain ⟨errors, he⟩ := loadFrom_ok (h := (w.heap.stmts s).handle) []
    (hf.diag w.drv (w.heap.stmts s).handle)
  unfold Statement.chk
  rw [runOn_bind_ok (runOn_get w)]
  dsimp only
  split
  · have hl : load cli w.drv .stmt (w.heap.stmts s).handle = .ok errors := he
    rw [hl]
    rfl
  · rfl

/-- The world after `SQLFetchScroll`. -/
def fetched (cli : Cli σ) (u : UtlId) (w : World σ) (len : Int) : World σ :=
  w.issueWriting cli (.fetchScroll (w.heap.handle u) sqlFetchNext len)

/-- `fetch` hands the code of `SQLFetchScroll` on when it is `SQL_SUCCESS` or `SQL_NO_DATA`. -/
theorem runOn_fetch (hf : Fetches cli v rows) {u : UtlId} {w : World σ} {r : BufId}
    (hr : (w.heap.utls u).resBuf = some r) :
    ∃ len rc, rc = (if v.remaining w.drv (w.heap.handle u) = [] then sqlNoData else sqlSuccess) ∧
      (Utl.fetch cli u).runOn w = (.ok rc, (fetched cli u w len).setRc u rc) := by
  let len : Int := int32 (((w.heap.bufs r).arrSize % 2 ^ 32 : Nat) : Int)
  let rc : Ret := (cli.call w.drv (.fetchScroll (w.heap.handle u) sqlFetchNext len)).1.rc
  have hrc : rc = if v.remaining w.drv (w.heap.handle u) = [] then sqlNoData else sqlSuccess :=
    hf.fetch_rc _ _ _
  refine ⟨len, rc, hrc, ?_⟩
  have hscroll : (Statement.fetchScroll cli (w.heap.utls u).s sqlFetchNext
      ((w.heap.bufs r).arrSize % 2 ^ 32) false).runOn w = (.ok rc, fetched cli u w len) := by
    unfold Statement.fetchScroll
    rw [runOn_bind_ok (runOn_getHeap w), runOn_bind_ok (runOn_cliCallWriting cli w _)]
    exact chk_runOn hf _ _ _
  have hassign : (Utl.assignRc u (Statement.fetchScroll cli (w.heap.utls u).s sqlFetchNext
      ((w.heap.bufs r).arrSize % 2 ^ 32) false)).runOn w =
        (.ok rc, (fetched cli u w len).setRc u rc) := by
    unfold Utl.assignRc
    rw [runOn_bind_ok hscroll]
    rfl
  unfold Utl.fetch
  rw [runOn_bind_ok (runOn_getHeap w)]
  simp only [hr]
  rw [runOn_bind_ok hassign]
  by_cases hrem : v.remaining w.drv (w.heap.handle u) = []
  · rw [if_pos hrem] at hrc
    rw [hrc]
    rfl
  · rw [if_neg hrem] at hrc
    rw [hrc]
    rfl

theorem fetched_heap (hf : Fetches cli v rows) {u : UtlId} {r : BufId} {n : Nat} {ws : List Nat}
    {w : World σ} {rem : List (Row ws)} (hc : Cursor v u r n ws w rem) (len : Int) :
    (fetched cli u w len).heap = w.heap.updBuf r fun bf =>
      { bf.storeRows 0 ((rem.take n).map Row.cells) with occupied := min n rem.length } := by
  have hblock : v.block w.drv (w.heap.handle u) = (rem.take n).map Row.cells := by
    unfold DriverView.block
    rw [hc.array, hc.remaining, Int.toNat_natCast, List.map_take]
  have hcol : ∀ row ∈ (rem.take n).map Row.cells,
      ColsBound (v.bound w.drv (w.heap.handle u) .res) r row.length := by
    intro row hrow
    obtain ⟨x, -, rfl⟩ := List.mem_map.mp hrow
    rw [x.fits.length_eq]
    exact hc.bound
  have hwrites := foldl_fetchWrites hcol w.heap
  rw [List.length_map, List.length_take] at hwrites
  change (cli.call w.drv _).1.writes.foldl Heap.write w.heap = _
  rw [hf.fetch_writes, hc.counter, hblock, hwrites]

section

variable (hf : Fetches cli v rows) {u : UtlId} {r : BufId} {n : Nat} {ws : List Nat} {w : World σ}
  {rem : List (Row ws)} (hc : Cursor v u r n ws w rem) (len : Int) (rc : Ret)

include hf hc

theorem fetched_resBuf : (((fetched cli u w len).setRc u rc).heap.utls u).resBuf = some r := by
  rw [(World.setRc_quiet _ u rc).resBuf, fetched_heap hf hc len]
  exact hc.resBuf

theorem fetched_handle : ((fetched cli u w len).setRc u rc).heap.handle u = w.heap.handle u := by
  rw [(World.setRc_quiet _ u rc).handle_eq, fetched_heap hf hc len]
  rfl

theorem fetched_buf : ((fetched cli u w len).setRc u rc).heap.bufs r =
    { (w.heap.bufs r).storeRows 0 ((rem.take n).map Row.cells) with
      occupied := min n rem.length } := by
  rw [World.setRc_bufs, fetched_heap hf hc len, Heap.updBuf_same]

theorem rowsRead_fetched :
    Utl.rowsRead ((fetched cli u w len).setRc u rc).heap u = min n rem.length := by
  unfold Utl.rowsRead
  rw [fetched_resBuf hf hc]
  simp only [fetched_buf hf hc]

/-- The client reads the rows of the block. -/
theorem consume_fetched :
    consume ((fetched cli u w len).setRc u rc).heap u = (rem.take n).map Row.cells := by
  unfold consume
  rw [rowsRead_fetched hf hc, fetched_resBuf hf hc]
  simp only [fetched_buf hf hc]
  apply List.ext_getElem
  · simp
  · intro i h₁ h₂
    rw [List.length_map, List.length_range] at h₁
    rw [List.getElem_map, List.getElem_range]
    have hrow := Buffer.row_storeRows (rem.take n) (b := w.heap.bufs r) 0 hc.widths
      (by rw [hc.size, List.length_take]; omega) i
    rw [if_pos (Nat.zero_le i), Nat.sub_zero, List.getElem?_eq_getElem h₂,
      Option.getD_some] at hrow
    exact hrow

/-- A fetch moves one block from the driver into the buffer. -/
theorem cursor_fetch :
    Cursor v u r n ws ((fetched cli u w len).setRc u rc) (rem.drop n) := by
  have hhandle := fetched_handle hf hc len rc
  have hbuf := fetched_buf hf hc len rc
  have hon : ∀ d h, (CliCall.fetchScroll h d len).onStatement := fun _ _ => trivial
  obtain ⟨hwidths, hsize⟩ := Buffer.storeRows_shape (rem.take n) 0 hc.widths
  refine ⟨fetched_resBuf hf hc len rc, ?_, ?_, ?_, ?_, ?_, ?_⟩
  · rw [hbuf]
    exact hsize.trans hc.size
  · rw [hbuf]
    exact hwidths
  · rw [hhandle]
    intro k hk
    rw [← hc.bound k hk]
    exact hf.bindings.keep _ _ _ _ _ (hon _ _) (by simp [CliCall.binding])
  · rw [hhandle, ← hc.counter]
    exact hf.rowsFetched_keep _ _ _ (hon _ _) (by simp)
  · rw [hhandle, ← hc.array]
    exact hf.attrs.keep _ _ _ _ (hon _ _) (by simp)
  · rw [hhandle, List.map_drop, ← hc.remaining]
    have hdrop := hf.fetch_remaining w.drv (w.heap.handle u) len
    rw [hc.array, Int.toNat_natCast] at hdrop
    exact hdrop

end

/-! ## The loop -/

/-- With enough fuel the loop ends and returns the remaining rows in order. -/
theorem fetchLoop_cursor (hf : Fetches cli v rows) {u : UtlId} {r : BufId} {n : Nat} {ws : List Nat}
    (hn : 1 ≤ n) (fuel : Nat) {w : World σ} {rem : List (Row ws)} (hc : Cursor v u r n ws w rem)
    (hfuel : rem.length < fuel) :
    ((fetchLoop cli u fuel).runOn w).1 = .ok (some (rem.map Row.cells)) := by
  induction fuel generalizing w rem with
  | zero => cases hfuel
  | succ fuel ih =>
      obtain ⟨len, rc, hrc, hfetch⟩ := runOn_fetch hf hc.resBuf
      have hnext := cursor_fetch hf hc len rc
      have hconsume := consume_fetched hf hc len rc
      have hread := rowsRead_fetched hf hc len rc
      have hsize : resSize ((fetched cli u w len).setRc u rc).heap u = n := by
        unfold resSize
        rw [hnext.resBuf]
        exact hnext.size
      unfold fetchLoop
      rw [runOn_bind_ok hfetch]
      cases rem with
      | nil =>
          rw [hc.remaining, List.map_nil, if_pos rfl] at hrc
          rw [hrc]
          rfl
      | cons x xs =>
          rw [hc.remaining, List.map_cons, if_neg (List.cons_ne_nil _ _)] at hrc
          rw [if_pos hrc, runOn_bind_ok (runOn_getHeap _), hread, hsize, hconsume]
          by_cases hfull : n ≤ (x :: xs).length
          · -- a full block: the rest is fetched by the remaining iterations
            rw [if_neg (by omega)]
            have hrest := ih hnext (by rw [List.length_drop]; omega)
            rcases hr : (fetchLoop cli u fuel).runOn ((fetched cli u w len).setRc u rc) with ⟨res, t⟩
            rw [hr] at hrest
            obtain rfl : res = _ := hrest
            rw [runOn_bind_ok hr, runOn_pure, Option.map_some, ← List.map_append,
              List.take_append_drop]
          · -- a block that is not full is the last one
            rw [if_pos (by omega), runOn_pure, List.take_of_length_le (by omega)]

/-! ## From the constructor to the first fetch -/

/-- A new query object: its result buffer is new and its handle fetches one row at a time. -/
structure Fresh (v : DriverView σ) (u : UtlId) (r : BufId) (n : Nat) (attrs : List AttrDscr)
    (w : World σ) : Prop where
  resBuf : (w.heap.utls u).resBuf = some r
  parBuf : (w.heap.utls u).parBuf ≠ some r
  buf : w.heap.bufs r = .new .res n attrs
  array : v.attr w.drv (w.heap.handle u) .rowArraySize = 1

theorem runOn_utlNew (hf : Fetches cli v rows) (u : UtlId) (s : StmtId) (db : Handle) (sql : Str)
    (allowedCodes : List Int) (w : World σ) :
    ∃ h, v.attr (cli.call w.drv (.allocHandle .stmt db)).2 h .rowArraySize = 1 ∧
      (Utl.new cli u s db sql allowedCodes).runOn w =
        (.ok ⟨⟩, { w.issue cli (.allocHandle .stmt db) with
          heap := (w.heap.updStmt s fun _ => { sql, handle := h }).updUtl u
            fun _ => { s, allowedCodes } }) := by
  have hrc := hf.succeeds w.drv (.allocHandle .stmt db) (by simp)
  have hthrow : ∀ msg, Returns (throwOnError cli sqlSuccess db .stmt msg) ⟨⟩ :=
    fun msg => fun _ => rfl
  refine ⟨(cli.call w.drv (.allocHandle .stmt db)).1.handle, hf.alloc _ _, ?_⟩
  have halloc : (allocStmtHandle cli db).runOn w =
      (.ok (cli.call w.drv (.allocHandle .stmt db)).1.handle,
        w.issue cli (.allocHandle .stmt db)) := by
    unfold allocStmtHandle
    rw [runOn_bind_ok (runOn_cliCall cli w _), hrc, runOn_bind_ok ((hthrow _).runOn _)]
    rfl
  have hstmt : (Statement.new cli s db sql).runOn w =
      (.ok ⟨⟩, { w.issue cli (.allocHandle .stmt db) with
        heap := w.heap.updStmt s fun _ =>
          { sql, handle := (cli.call w.drv (.allocHandle .stmt db)).1.handle } }) := by
    unfold Statement.new
    rw [runOn_bind_ok halloc]
    rfl
  unfold Utl.new
  rw [runOn_bind_ok hstmt]
  rfl

/-- The constructor of a generated class leaves a new query object. -/
theorem runOn_newGenerated (hf : Fetches cli v rows) (u : UtlId) (db : Handle) (sql : Str)
    (allowedCodes : List Int) (par : Option (Nat × List AttrDscr)) (n : Nat)
    (attrs : List AttrDscr) (w : World σ) :
    ∃ w₀, (Utl.newGenerated cli u db sql allowedCodes par (some (n, attrs))).runOn w = (.ok ⟨⟩, w₀) ∧
      Fresh v u (Utl.memberBuf u .res) n attrs w₀ := by
  obtain ⟨h, hone, hnew⟩ := runOn_utlNew hf u u db sql allowedCodes w
  have hne : Utl.memberBuf u .par ≠ Utl.memberBuf u .res := by
    change (2 * u : Nat) ≠ 2 * u + 1
    omega
  refine ⟨_, by
    unfold Utl.newGenerated
    rw [runOn_bind_ok hnew]
    rfl, ?_⟩
  refine ⟨?_, ?_, ?_, ?_⟩
  · simp
  · cases par with
    | none => simp
    | some p => simpa using hne
  · simp
  · have hh : ∀ hp : Heap, hp.stmts = (w.heap.updStmt u fun _ => { sql, handle := h }).stmts →
        (hp.utls u).s = u → hp.handle u = h := by
      intro hp hs hu
      simp [Heap.handle, hs, hu]
    rw [hh]
    · exact hone
    · cases par <;> rfl
    · cases par <;> simp

/-! ## The first execution -/

/-- Where the driver writes the number of fetched rows after a successful set-up phase. -/
theorem Utl.Phases.rowsFetched_eq (hf : Fetches cli v rows) {u : UtlId} {sql : Str}
    {w wp wr ws wb w₁ : World σ} (h : Utl.Phases cli u sql w wp wr ws wb w₁) {r : BufId}
    (hr : (w.heap.utls u).resBuf = some r) :
    v.rowsFetched w₁.drv (w.heap.handle u) = some r := by
  let P : CliCall → Prop := fun c => c.onStatement ∧ ∀ h a, c ≠ .setStmtAttr h .rowsFetchedPtr a
  have hkeep : ∀ d c, P c → v.rowsFetched (cli.call d c).2 (w.heap.handle u) =
      v.rowsFetched d (w.heap.handle u) :=
    fun d c hc => hf.rowsFetched_keep d c _ hc.1 (hc.2 _)
  have hbindCall : ∀ {n : Nat} (el : AttrRoot n) bt h ndx data, P (el.bindCall bt h ndx data) := by
    intro n el bt h ndx data
    cases bt <;> exact ⟨trivial, by simp [AttrRoot.bindCall]⟩
  have hq := h.quiet_par.trans (World.setRc_quiet wp u sqlSuccess)
  obtain ⟨t, hsize, hptr⟩ := Utl.prepareResultBuffer_eq_success h.res (by rwa [hq.resBuf])
  obtain ⟨-, t', hset, rfl⟩ := Utl.ifOk_eq_success hptr
  rw [runOn_ssaPtr, Prod.mk.injEq] at hset
  have ht : w.heap.Quiet t.heap :=
    (hq.trans (World.setRc_quiet _ u sqlSuccess)).trans
      (quiet_of_runOn (P := fun _ => True) (F := True)
        (Utl.within_assignIf (within_setAttrL fun _ => trivial)) hsize)
  have hh : (t.heap.stmts ((wp.setRc u sqlSuccess).heap.utls u).s).handle = w.heap.handle u := by
    rw [hq.stmt]
    exact ht.handle _
  have hres : v.rowsFetched t'.drv (w.heap.handle u) = some r := by
    rw [← hset.2, ← hh]
    exact hf.rowsFetched_set _ _ _
  have hbindRes := view_of_runOn (fun d => v.rowsFetched d (w.heap.handle u))
    (Utl.within_bindSlot (P := P) (F := True) trivial hbindCall) hkeep h.bindRes
  have hbindPar := view_of_runOn (fun d => v.rowsFetched d (w.heap.handle u))
    (Utl.within_bindSlot (P := P) (F := True) trivial hbindCall) hkeep h.bindPar
  have hprep := view_of_runOn (fun d => v.rowsFetched d (w.heap.handle u))
    (within_prepare (P := P) (F := True) fun _ _ => ⟨trivial, by simp⟩) hkeep h.prep
  calc v.rowsFetched w₁.drv (w.heap.handle u) = v.rowsFetched wb.drv (w.heap.handle u) := hbindRes
    _ = v.rowsFetched ws.drv (w.heap.handle u) := hbindPar
    _ = v.rowsFetched t'.drv (w.heap.handle u) := hprep
    _ = some r := hres

/-- Writes to status vectors and counters of processed rows leave the rest of a buffer alone. -/
theorem statusWrites_shape {ms : List MemWrite}
    (h : ∀ m ∈ ms, (∃ b n, m = .processed b n) ∨ ∃ b i n, m = .status b i n) (hp : Heap) (r : BufId) :
    (ms.foldl Heap.write hp).stmts = hp.stmts ∧ (ms.foldl Heap.write hp).utls = hp.utls ∧
      ((ms.foldl Heap.write hp).bufs r).arrSize = (hp.bufs r).arrSize ∧
      ((ms.foldl Heap.write hp).bufs r).widths = (hp.bufs r).widths := by
  have hupd : ∀ (hp : Heap) (b : BufId) (f : Buffer → Buffer),
      (∀ bf, (f bf).arrSize = bf.arrSize ∧ (f bf).widths = bf.widths) →
      ((hp.updBuf b f).bufs r).arrSize = (hp.bufs r).arrSize ∧
        ((hp.updBuf b f).bufs r).widths = (hp.bufs r).widths := by
    intro hp b f hb
    by_cases hrb : r = b
    · subst hrb
      rw [Heap.updBuf_same]
      exact hb _
    · rw [Heap.updBuf_ne _ _ _ hrb]
      exact ⟨rfl, rfl⟩
  induction ms generalizing hp with
  | nil => exact ⟨rfl, rfl, rfl, rfl⟩
  | cons m ms ih =>
      obtain ⟨h₁, h₂, h₃, h₄⟩ := ih (fun x hx => h x (List.mem_cons_of_mem _ hx)) (hp.write m)
      rcases h m List.mem_cons_self with ⟨b, n, rfl⟩ | ⟨b, i, n, rfl⟩
      · obtain ⟨h₅, h₆⟩ := hupd hp b (fun bf => { bf with processed := n }) fun bf => ⟨rfl, rfl⟩
        exact ⟨h₁, h₂, h₃.trans h₅, h₄.trans h₆⟩
      · obtain ⟨h₅, h₆⟩ := hupd hp b (fun bf => bf.setStatus i n) fun bf => ⟨rfl, rfl⟩
        exact ⟨h₁, h₂, h₃.trans h₅, h₄.trans h₆⟩

theorem new_widths (bt : BufType) (n : Nat) (attrs : List AttrDscr) :
    (Buffer.new bt n attrs).widths = attrs.map AttrDscr.width := by
  simp [Buffer.widths, Buffer.new, AttrRoot.new, Function.comp_def]

theorem Heap.Quiet.widths {hp hp' : Heap} (hq : hp.Quiet hp') (r : BufId) :
    (hp'.bufs r).widths = (hp.bufs r).widths := by
  rw [hq.bufs r]
  rfl

/-- What the driver writes during the execution does not reach the rows of a result buffer. -/
theorem executed_shape (hf : Fetches cli v rows) (u : UtlId) (w : World σ) (r : BufId) :
    let hp := (Utl.executed cli u w).heap
    hp.handle u = w.heap.handle u ∧ (hp.utls u).resBuf = (w.heap.utls u).resBuf ∧
      (hp.bufs r).arrSize = (w.heap.bufs r).arrSize ∧
      (hp.bufs r).widths = (w.heap.bufs r).widths := by
  intro hp
  obtain ⟨hstmts, hutls, hsize, hwidths⟩ :=
    statusWrites_shape (hf.execute_writes w.drv (w.heap.handle u)) w.heap r
  have hstmts' : hp.stmts = w.heap.stmts := hstmts
  have hutls' : hp.utls = w.heap.utls := hutls
  refine ⟨?_, ?_, hsize, hwidths⟩
  · rw [Heap.handle, Heap.handle, hstmts', hutls']
  · rw [hutls']

/-- The flag of a new buffer is not set, so the step for it binds every column. -/
theorem Fresh.colsBound (hf : Fetches cli v rows) {u : UtlId} {r : BufId} {n : Nat}
    {attrs : List AttrDscr} {sql : Str} {w wp wr ws wb w₁ : World σ} (h : Fresh v u r n attrs w)
    (hph : Utl.Phases cli u sql w wp wr ws wb w₁)
    (hcols : attrs.length < 2 ^ 15) :
    ColsBound (v.bound w₁.drv (w.heap.handle u) .res) r attrs.length := by
  have hqb := hph.quiet_bindPar
  have hqs := hph.quiet_prep.trans (World.setRc_quiet ws u sqlSuccess)
  have hbuf : wb.heap.bufs r = .new .res n attrs := by
    have hother := bindSlot_other_bufs hf.bindings hph.bindPar (c := r)
      (by rw [hqs.parBuf]; exact h.parBuf)
    rwa [World.setRc_bufs, hph.bufs_prep, h.buf] at hother
  have hlen : (wb.heap.bufs r).attributes.length = attrs.length := by
    rw [hbuf]
    exact List.length_map _
  have hall := bindSlot_allBound hf.bindings hph.bindRes (b := r)
    (by rw [hqb.resBuf]; exact h.resBuf) (by rwa [hlen])
    (by rw [hbuf]; exact fun hflag => absurd hflag (by simp [Buffer.new]))
  rw [hqb.handle_eq] at hall
  have hbt : (wb.heap.bufs r).bt = .res := by
    rw [hbuf]
    rfl
  intro k hk
  rw [← hbt]
  exact hall k (by rwa [hlen])

/-- Executing a new query object puts the cursor in front of the result set. -/
theorem cursor_start {attrs : List AttrDscr} {result : List (Row (attrs.map AttrDscr.width))}
    (hf : Fetches cli v (result.map Row.cells)) {u : UtlId} {r : BufId} {n : Nat} (hn : 1 ≤ n)
    (hcols : attrs.length < 2 ^ 15) {w₀ : World σ} (h₀ : Fresh v u r n attrs w₀) (sql : Str) :
    ∃ w, (Utl.exec cli u sql).runOn w₀ = (.ok sqlSuccess, w) ∧ Cursor v u r n _ w result := by
  obtain ⟨w₁, hp, hup, hquiet, hrun⟩ := Utl.exec_of_fetches hf u sql w₀
  obtain ⟨wp, wr, ws, wb, hph⟩ := hup.phases
  have hq := hup.reach.heap
  have hon : ∀ h, (CliCall.execute h).onStatement := fun _ => trivial
  obtain ⟨hhandle, hslot, hsize, hwidths⟩ := executed_shape hf u w₁ r
  have hh : w₁.heap.handle u = w₀.heap.handle u := hq.handle_eq u
  have hlast : hp.handle u = w₀.heap.handle u :=
    (hquiet.handle_eq u).trans (hhandle.trans hh)
  refine ⟨_, hrun, ⟨?_, ?_, ?_, ?_, ?_, ?_, ?_⟩⟩
  · calc (hp.utls u).resBuf = (w₁.heap.utls u).resBuf := (hquiet.resBuf u).trans hslot
      _ = (w₀.heap.utls u).resBuf := hq.resBuf u
      _ = some r := h₀.resBuf
  · calc (hp.bufs r).arrSize = (w₁.heap.bufs r).arrSize := (hquiet.arrSize r).trans hsize
      _ = (w₀.heap.bufs r).arrSize := hq.arrSize r
      _ = n := by rw [h₀.buf]; rfl
  · calc (hp.bufs r).widths = (w₁.heap.bufs r).widths := (hquiet.widths r).trans hwidths
      _ = (w₀.heap.bufs r).widths := hq.widths r
      _ = attrs.map AttrDscr.width := by rw [h₀.buf, new_widths]
  · change ColsBound (v.bound (cli.call w₁.drv _).2 (hp.handle u) .res) r _
    intro k hk
    rw [hlast, hf.bindings.keep _ _ _ _ _ (hon _) (by simp [CliCall.binding])]
    exact h₀.colsBound hf hph hcols k (by rwa [List.length_map] at hk)
  · change v.rowsFetched (cli.call w₁.drv _).2 (hp.handle u) = some r
    rw [hlast, hf.rowsFetched_keep _ _ _ (hon _) (by simp)]
    exact hph.rowsFetched_eq hf h₀.resBuf
  · change v.attr (cli.call w₁.drv _).2 (hp.handle u) .rowArraySize = n
    rw [hlast, hf.attrs.keep _ _ _ _ (hon _) (by simp), hph.rowArray_eq hf.attrs h₀.resBuf,
      h₀.array, h₀.buf]
    change (if 1 < n then (n : Int) else 1) = n
    split <;> omega
  · change v.remaining (cli.call w₁.drv _).2 (hp.handle u) = _
    rw [hlast, ← hh]
    exact hf.execute _ _

/-- A new query object, executed once and fetched in a loop, returns every row of the
result set once and in order, and the loop ends. -/
theorem selectAll_returns {attrs : List AttrDscr} {result : List (Row (attrs.map AttrDscr.width))}
    (hf : Fetches cli v (result.map Row.cells)) (u : UtlId) (db : Handle) (sql : Str)
    (allowedCodes : List Int) (par : Option (Nat × List AttrDscr)) {n : Nat} (hn : 1 ≤ n)
    (hcols : attrs.length < 2 ^ 15) {fuel : Nat} (hfuel : result.length < fuel) (w : World σ) :
    ((selectAll cli u db sql allowedCodes par n attrs fuel).runOn w).1 =
      .ok (some (result.map Row.cells)) := by
  obtain ⟨w₀, hnew, hfresh⟩ := runOn_newGenerated hf u db sql allowedCodes par n attrs w
  obtain ⟨w₁, hexec, hcursor⟩ := cursor_start hf hn hcols hfresh []
  unfold selectAll
  rw [runOn_bind_ok hnew, runOn_bind_ok hexec]
  exact fetchLoop_cursor hf hn fuel hcursor hfuel

/-- One row with a single four-byte integer. -/
def intRow (b : UInt8) : Row [4] :=
  ⟨[some [b, 0, 0, 0]], .cons (by rintro bytes ⟨rfl⟩; exact Nat.le_refl 4) .nil⟩

/-- Three rows through a buffer of two. -/
theorem selectAll_three_rows :
    ((selectAll (RefDriver.cli ([intRow 1, intRow 2, intRow 3].map Row.cells)) 0 1
        "select c from t" [] none 2 [⟨4, 0, 4⟩] 4).runOn
      { drv := {}
        heap :=
          { bufs := fun _ => .new .res 1 [], stmts := fun _ => {}, utls := fun _ => { s := 0 } } }).1 =
      .ok (some ([intRow 1, intRow 2, intRow 3].map Row.cells)) :=
  selectAll_returns (RefDriver.fetches _) 0 1 _ [] none (by decide) (by decide) (by decide) _

end Dbgen3.Runtime
