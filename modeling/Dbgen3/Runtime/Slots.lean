import Dbgen3.Runtime.Bindings
import Dbgen3.Runtime.Calls

/-!
# The slots of a query object

A query object has a slot for a parameter buffer and one for a result buffer.
The constructors check the type of a buffer they are given, all in the same way;
the setters check nothing.
-/

namespace Dbgen3.Runtime

open Act Runs

variable {σ : Type} (cli : Cli σ)

/-! ## Constructors -/

namespace Utl

/-- `utl::chk`: only parameter buffers and the null pointer pass. -/
def chk (hp : Heap) (ptr : Option BufId) (msg : Str) : Except Exc (Option BufId) :=
  match ptr with
  | some b => if (hp.bufs b).bt = .par then .ok (some b) else .error (.runtimeError msg)
  | none => .ok none

/-- `utl::chk2`: a buffer of another type becomes the null pointer. -/
def chk2 (hp : Heap) (ptr : Option BufId) (bt : BufType) : Option BufId :=
  match ptr with
  | some b => if (hp.bufs b).bt = bt then some b else none
  | none => none

/-- The constructor of `utl` that takes both buffers. An exception of a check destroys the
statement member. -/
def newBoth (u : UtlId) (s : StmtId) (db : Handle) (sql : Str) (allowedCodes : List Int)
    (pBuf rBuf : Option BufId) : Act (World σ) Exc PUnit := do
  Statement.new cli s db sql
  let hp ← getHeap
  orElse
    (do
      let parBuf ← fromResult (chk hp pBuf "Wrong buf type. First is PARAMETER.")
      let resBuf ← fromResult (chk hp rBuf "Wrong buf type. Second is RESULT.")
      modifyHeap fun hp => hp.updUtl u fun _ => { s, parBuf, resBuf, allowedCodes })
    fun e => do
      Statement.dispose cli s
      throw e

/-- The constructor of `utl` that takes a parameter or result buffer. -/
def newOne (u : UtlId) (s : StmtId) (db : Handle) (sql : Str) (allowedCodes : List Int)
    (ptr : Option BufId) : Act (World σ) Exc PUnit := do
  let hp ← getHeap
  let rBuf ← fromResult
    (chk hp ptr "You must provide proper buffer object generated by dbgen3.")
  newBoth cli u s db sql allowedCodes (chk2 hp ptr .par) rBuf

end Utl

/-- A constructor of `utl` with the buffers it is given. -/
inductive UtlCtor
  | none
  | one (ptr : Option BufId)
  | both (pBuf rBuf : Option BufId)

namespace UtlCtor

/-- The constructor behind it. -/
def run (u : UtlId) (s : StmtId) (db : Handle) (sql : Str) (allowedCodes : List Int) :
    UtlCtor → Act (World σ) Exc PUnit
  | none => Utl.newBoth cli u s db sql allowedCodes .none .none
  | one ptr => Utl.newOne cli u s db sql allowedCodes ptr
  | both pBuf rBuf => Utl.newBoth cli u s db sql allowedCodes pBuf rBuf

end UtlCtor

/-! ## Types of buffers -/

/-- A pointer is null or leads to a buffer of the type. -/
def OfType (hp : Heap) (bt : BufType) (ptr : Option BufId) : Prop :=
  ∀ b, ptr = some b → (hp.bufs b).bt = bt

instance (hp : Heap) (bt : BufType) : DecidablePred (OfType hp bt)
  | none => isTrue nofun
  | some b => decidable_of_iff ((hp.bufs b).bt = bt)
      ⟨fun h _ hb => Option.some.inj hb ▸ h, fun h => h b rfl⟩

/-- The slot for buffers of a type. -/
def Utl.slot (q : Utl) : BufType → Option BufId
  | .par => q.parBuf
  | .res => q.resBuf

/-- `par_buf()` and `res_buf()` are null or buffers of their types. -/
def SlotsTyped (hp : Heap) (u : UtlId) : Prop := ∀ bt, OfType hp bt ((hp.utls u).slot bt)

namespace UtlCtor

/-- The buffer that is given for a slot: with one argument it is one for the slot of its
type. -/
def given (hp : Heap) : UtlCtor → BufType → Option BufId
  | none, _ => .none
  | one ptr, bt => ptr.filter fun b => (hp.bufs b).bt = bt
  | both pBuf _, .par => pBuf
  | both _ rBuf, .res => rBuf

/-- No buffer of a wrong type is given. -/
def WellTyped (hp : Heap) (c : UtlCtor) : Prop := ∀ bt, OfType hp bt (c.given hp bt)

/-- The driver has a handle for the statement member. -/
def Allocates (w : World σ) (db : Handle) : Prop :=
  (cli.call w.drv (.allocHandle .stmt db)).1.rc = sqlSuccess

/-- The constructor throws exactly when it is given a buffer of a wrong type, or gets no
statement. Otherwise each slot has the buffer that is given for it. -/
structure Right (u : UtlId) (s : StmtId) (db : Handle) (sql : Str) (allowedCodes : List Int)
    (c : UtlCtor) (w : World σ) : Prop where
  throws : (∃ e, ((c.run cli u s db sql allowedCodes).runOn w).1 = .error e) ↔
    ¬ c.WellTyped w.heap ∨ ¬ Allocates cli w db
  stores : ((c.run cli u s db sql allowedCodes).runOn w).1 = .ok ⟨⟩ → ∀ bt,
    (((c.run cli u s db sql allowedCodes).runOn w).2.heap.utls u).slot bt = c.given w.heap bt

/-- The constructor is given nothing that it handles in a wrong way: one argument is null, and
of two the second is null or the first is a result buffer. -/
def Handled (hp : Heap) : UtlCtor → Prop
  | none => True
  | one ptr => ptr = .none
  | both pBuf rBuf => ¬ OfType hp .par pBuf ∨ rBuf = .none

end UtlCtor

section

variable {cli} {hp : Heap} {ptr : Option BufId}

theorem ofType_none (hp : Heap) (bt : BufType) : OfType hp bt none := nofun

theorem ofType_some {b : BufId} {bt : BufType} :
    OfType hp bt (some b) ↔ (hp.bufs b).bt = bt :=
  ⟨fun h => h b rfl, fun h _ hb => Option.some.inj hb ▸ h⟩

theorem ofType_congr {hp' : Heap} (h : hp'.bufs = hp.bufs) {bt : BufType} :
    OfType hp' bt ptr ↔ OfType hp bt ptr := by
  unfold OfType
  rw [h]

/-- A buffer that is no parameter buffer is a result buffer. -/
theorem bt_eq_res {b : BufId} (h : ¬ OfType hp .par (some b)) : (hp.bufs b).bt = .res := by
  rw [ofType_some] at h
  cases hbt : (hp.bufs b).bt with
  | par => exact absurd hbt h
  | res => rfl

namespace Utl

/-- What the check accepts does not depend on the slot it is for. -/
theorem chk_eq (hp : Heap) (ptr : Option BufId) (msg : Str) :
    chk hp ptr msg = if OfType hp .par ptr then .ok ptr else .error (.runtimeError msg) := by
  cases ptr with
  | none => exact (if_pos (ofType_none hp .par)).symm
  | some b =>
      unfold chk
      by_cases hbt : (hp.bufs b).bt = .par
      · exact (if_pos hbt).trans (if_pos (ofType_some.mpr hbt)).symm
      · exact (if_neg hbt).trans (if_neg fun h => hbt (ofType_some.mp h)).symm

theorem chk2_of_ofType {bt : BufType} (h : OfType hp bt ptr) : chk2 hp ptr bt = ptr := by
  cases ptr with
  | none => rfl
  | some b => exact if_pos (ofType_some.mp h)

variable {u : UtlId} {s : StmtId} {db : Handle} {sql : Str} {allowedCodes : List Int}
  {pBuf rBuf : Option BufId} {w : World σ}

theorem runOn_new_of_allocates (h : UtlCtor.Allocates cli w db) :
    ∃ w₁, (Statement.new cli s db sql).runOn w = (.ok ⟨⟩, w₁) ∧ w₁.heap.bufs = w.heap.bufs :=
  ⟨_, (runOn_new s db sql w).trans (if_pos h), rfl⟩

/-- Without a statement there is no query object. -/
theorem newBoth_of_not_allocates (h : ¬ UtlCtor.Allocates cli w db) :
    ∃ e, ((newBoth cli u s db sql allowedCodes pBuf rBuf).runOn w).1 = .error e := by
  have hnew := (@runOn_new σ cli s db sql w).trans (if_neg h)
  exact ⟨_, congrArg Prod.fst (runOn_bind_error hnew _)⟩

/-- With a statement and arguments that pass, each argument is stored in its slot. -/
theorem newBoth_ok (h : UtlCtor.Allocates cli w db) (hp : OfType w.heap .par pBuf)
    (hr : OfType w.heap .par rBuf) :
    ∃ w', (newBoth cli u s db sql allowedCodes pBuf rBuf).runOn w = (.ok ⟨⟩, w') ∧
      w'.heap.bufs = w.heap.bufs ∧
      w'.heap.utls u = { s, parBuf := pBuf, resBuf := rBuf, allowedCodes } := by
  obtain ⟨w₁, hnew, hbufs⟩ := @runOn_new_of_allocates σ cli s db sql w h
  unfold newBoth
  rw [runOn_bind_ok hnew, runOn_bind_ok (runOn_getHeap _), runOn_orElse, chk_eq, chk_eq,
    if_pos ((ofType_congr hbufs).mpr hp), if_pos ((ofType_congr hbufs).mpr hr)]
  exact ⟨_, rfl, hbufs, Heap.updUtl_same w₁.heap u fun _ =>
    { s, parBuf := pBuf, resBuf := rBuf, allowedCodes }⟩

/-- An argument that does not pass ends the constructor. -/
theorem newBoth_error (h : ¬ (OfType w.heap .par pBuf ∧ OfType w.heap .par rBuf)) :
    ∃ e, ((newBoth cli u s db sql allowedCodes pBuf rBuf).runOn w).1 = .error e := by
  by_cases halloc : UtlCtor.Allocates cli w db
  · obtain ⟨w₁, hnew, hbufs⟩ := @runOn_new_of_allocates σ cli s db sql w halloc
    rw [← ofType_congr hbufs, ← ofType_congr hbufs] at h
    have hcleanup : ∀ (e : Exc) (w : World σ), ∃ e',
        ((Statement.dispose cli s >>= fun _ => throw e : Act (World σ) Exc PUnit).runOn w).1 =
          .error e' := by
      intro e w
      rw [runOn_bind]
      cases (Statement.dispose cli s).runOn w with
      | mk r w' =>
          cases r with
          | error e' => exact ⟨e', rfl⟩
          | ok u => exact ⟨e, rfl⟩
    unfold newBoth
    rw [runOn_bind_ok hnew, runOn_bind_ok (runOn_getHeap _), runOn_orElse, chk_eq, chk_eq]
    by_cases hp : OfType w₁.heap .par pBuf
    · rw [if_pos hp, if_neg fun hr => h ⟨hp, hr⟩]
      exact hcleanup _ _
    · rw [if_neg hp]
      exact hcleanup _ _
  · exact newBoth_of_not_allocates halloc

/-- A constructor that does not throw leaves the buffers alone. -/
theorem newBoth_bufs {w' : World σ}
    (h : (newBoth cli u s db sql allowedCodes pBuf rBuf).runOn w = (.ok ⟨⟩, w')) :
    w'.heap.bufs = w.heap.bufs := by
  have hno : ¬ ∃ e, ((newBoth cli u s db sql allowedCodes pBuf rBuf).runOn w).1 = .error e := by
    rintro ⟨e, he⟩
    rw [h] at he
    cases he
  have halloc : UtlCtor.Allocates cli w db := by
    by_contra halloc
    exact hno (newBoth_of_not_allocates halloc)
  have htypes : OfType w.heap .par pBuf ∧ OfType w.heap .par rBuf := by
    by_contra htypes
    exact hno (newBoth_error htypes)
  obtain ⟨w₁, hrun, hbufs, -⟩ := @newBoth_ok σ cli u s db sql allowedCodes pBuf rBuf w halloc
    htypes.1 htypes.2
  rw [h] at hrun
  exact (Prod.mk.inj hrun).2 ▸ hbufs

theorem newOne_of_ofType (h : OfType w.heap .par ptr) :
    (newOne cli u s db sql allowedCodes ptr).runOn w =
      (newBoth cli u s db sql allowedCodes ptr ptr).runOn w := by
  unfold newOne
  rw [runOn_bind_ok (runOn_getHeap w), chk_eq, if_pos h, chk2_of_ofType h]
  rfl

/-- A result buffer ends the constructor that takes one. -/
theorem newOne_error (h : ¬ OfType w.heap .par ptr) :
    ∃ e, ((newOne cli u s db sql allowedCodes ptr).runOn w).1 = .error e := by
  unfold newOne
  rw [runOn_bind_ok (runOn_getHeap w), chk_eq, if_neg h]
  exact ⟨_, rfl⟩

end Utl

namespace UtlCtor

variable {u : UtlId} {s : StmtId} {db : Handle} {sql : Str} {allowedCodes : List Int}
  {c : UtlCtor} {w : World σ}

theorem wellTyped_none (hp : Heap) : none.WellTyped hp := fun _ => ofType_none _ _

theorem wellTyped_one (hp : Heap) (ptr : Option BufId) : (one ptr).WellTyped hp := by
  intro bt b hb
  exact of_decide_eq_true (Option.filter_eq_some_iff.mp hb).2

theorem wellTyped_both {pBuf rBuf : Option BufId} :
    (both pBuf rBuf).WellTyped hp ↔ OfType hp .par pBuf ∧ OfType hp .res rBuf := by
  constructor
  · exact fun h => ⟨h .par, h .res⟩
  · rintro ⟨hp, hr⟩ bt
    cases bt with
    | par => exact hp
    | res => exact hr

theorem run_bufs (c : UtlCtor) {w' : World σ}
    (h : (c.run cli u s db sql allowedCodes).runOn w = (.ok ⟨⟩, w')) :
    w'.heap.bufs = w.heap.bufs := by
  cases c with
  | none => exact Utl.newBoth_bufs h
  | one ptr =>
      by_cases hptr : OfType w.heap .par ptr
      · rw [run, Utl.newOne_of_ofType hptr] at h
        exact Utl.newBoth_bufs h
      · obtain ⟨e, he⟩ := @Utl.newOne_error σ cli ptr u s db sql allowedCodes w hptr
        cases (congrArg Prod.fst h).symm.trans he
  | both pBuf rBuf => exact Utl.newBoth_bufs h

/-- Without a statement a constructor throws, and that is right. -/
theorem right_of_not_allocates (h : ¬ Allocates cli w db) :
    Right cli u s db sql allowedCodes c w := by
  have herror : ∃ e, ((c.run cli u s db sql allowedCodes).runOn w).1 = .error e := by
    cases c with
    | none => exact Utl.newBoth_of_not_allocates h
    | one ptr =>
        by_cases hptr : OfType w.heap .par ptr
        · rw [run, Utl.newOne_of_ofType hptr]
          exact Utl.newBoth_of_not_allocates h
        · exact Utl.newOne_error hptr
    | both pBuf rBuf => exact Utl.newBoth_of_not_allocates h
  refine ⟨iff_of_true herror (.inr h), fun hok => ?_⟩
  obtain ⟨e, he⟩ := herror
  rw [hok] at he
  cases he

/-- A constructor that is given nothing wrong and stores what is given. -/
theorem right_of_ok {w' : World σ} (halloc : Allocates cli w db) (hc : c.WellTyped w.heap)
    (hrun : (c.run cli u s db sql allowedCodes).runOn w = (.ok ⟨⟩, w'))
    (hslots : ∀ bt, (w'.heap.utls u).slot bt = c.given w.heap bt) :
    Right cli u s db sql allowedCodes c w := by
  constructor
  · rw [hrun]
    refine iff_of_false nofun ?_
    rintro (h | h)
    · exact h hc
    · exact h halloc
  · rw [hrun]
    exact fun _ => hslots

/-- Two arguments that pass are stored, and that is right where they are what was given. -/
theorem right_of_newBoth {pBuf rBuf : Option BufId} (halloc : Allocates cli w db)
    (hp : OfType w.heap .par pBuf) (hr : OfType w.heap .par rBuf) (hc : c.WellTyped w.heap)
    (hrun : (c.run cli u s db sql allowedCodes).runOn w =
      (Utl.newBoth cli u s db sql allowedCodes pBuf rBuf).runOn w)
    (hpar : pBuf = c.given w.heap .par) (hres : rBuf = c.given w.heap .res) :
    Right cli u s db sql allowedCodes c w := by
  obtain ⟨w', hboth, -, hutl⟩ := @Utl.newBoth_ok σ cli u s db sql allowedCodes pBuf rBuf w
    halloc hp hr
  refine right_of_ok halloc hc (hrun.trans hboth) fun bt => ?_
  rw [hutl]
  cases bt with
  | par => exact hpar
  | res => exact hres

/-- A constructor that throws is right where it is given a buffer of a wrong type. -/
theorem right_of_error (halloc : Allocates cli w db)
    (herror : ∃ e, ((c.run cli u s db sql allowedCodes).runOn w).1 = .error e) :
    Right cli u s db sql allowedCodes c w ↔ ¬ c.WellTyped w.heap := by
  constructor
  · intro h
    exact (h.throws.mp herror).resolve_right (not_not_intro halloc)
  · intro hc
    refine ⟨iff_of_true herror (.inl hc), fun hok => ?_⟩
    obtain ⟨e, he⟩ := herror
    rw [hok] at he
    cases he

theorem right_one (halloc : Allocates cli w db) (ptr : Option BufId) :
    Right cli u s db sql allowedCodes (one ptr) w ↔ ptr = .none := by
  cases ptr with
  | none =>
      refine iff_of_true ?_ rfl
      exact right_of_newBoth halloc (ofType_none _ _) (ofType_none _ _) (wellTyped_one _ _)
        (Utl.newOne_of_ofType (ofType_none _ _)) rfl rfl
  | some b =>
      refine iff_of_false (fun h => ?_) nofun
      by_cases hb : OfType w.heap .par (some b)
      · -- the buffer is in both slots
        obtain ⟨w', hrun, -, hutl⟩ :=
          @Utl.newBoth_ok σ cli u s db sql allowedCodes (some b) (some b) w halloc hb hb
        have hone : ((one (some b)).run cli u s db sql allowedCodes).runOn w = (.ok ⟨⟩, w') :=
          (Utl.newOne_of_ofType hb).trans hrun
        have hres := h.stores (congrArg Prod.fst hone) .res
        rw [hone, hutl] at hres
        have hgiven : OfType w.heap .res (some b) := by
          have hwell := wellTyped_one w.heap (some b) .res
          rwa [← hres] at hwell
        rw [ofType_some] at hb hgiven
        rw [hb] at hgiven
        cases hgiven
      · have herror : ∃ e, (((one (some b)).run cli u s db sql allowedCodes).runOn w).1 =
            .error e := Utl.newOne_error hb
        exact (right_of_error halloc herror).mp h (wellTyped_one _ _)

theorem right_both (halloc : Allocates cli w db) (pBuf rBuf : Option BufId) :
    Right cli u s db sql allowedCodes (both pBuf rBuf) w ↔
      ¬ OfType w.heap .par pBuf ∨ rBuf = .none := by
  by_cases hp : OfType w.heap .par pBuf
  · rw [or_iff_right (not_not_intro hp)]
    cases rBuf with
    | none =>
        have hwell := wellTyped_both.mpr ⟨hp, ofType_none w.heap .res⟩
        refine iff_of_true ?_ rfl
        exact right_of_newBoth halloc hp (ofType_none _ _) hwell rfl rfl rfl
    | some b =>
        refine iff_of_false (fun h => ?_) nofun
        by_cases hb : OfType w.heap .par (some b)
        · -- a parameter buffer passes as the second one
          obtain ⟨w', hrun, -⟩ :=
            @Utl.newBoth_ok σ cli u s db sql allowedCodes pBuf (some b) w halloc hp hb
          have hwrong : ¬ (both pBuf (some b)).WellTyped w.heap := by
            intro hwell
            have hres := ofType_some.mp (wellTyped_both.mp hwell).2
            rw [ofType_some.mp hb] at hres
            cases hres
          obtain ⟨e, he⟩ := h.throws.mpr (.inl hwrong)
          have hok := congrArg Prod.fst hrun
          cases he.symm.trans hok
        · -- a result buffer does not
          have herror : ∃ e, (((both pBuf (some b)).run cli u s db sql allowedCodes).runOn w).1 =
              .error e := Utl.newBoth_error fun h => hb h.2
          refine (right_of_error halloc herror).mp h (wellTyped_both.mpr ⟨hp, ?_⟩)
          exact ofType_some.mpr (bt_eq_res hb)
  · have herror : ∃ e, (((both pBuf rBuf).run cli u s db sql allowedCodes).runOn w).1 =
        .error e := Utl.newBoth_error fun h => hp h.1
    refine iff_of_true ((right_of_error halloc herror).mpr fun hwell => ?_) (.inl hp)
    exact hp (wellTyped_both.mp hwell).1

/-- A constructor is right exactly where it is given nothing that it handles in a wrong way, or
gets no statement. -/
theorem right_iff :
    Right cli u s db sql allowedCodes c w ↔ ¬ Allocates cli w db ∨ c.Handled w.heap := by
  by_cases halloc : Allocates cli w db
  · rw [or_iff_right (not_not_intro halloc)]
    cases c with
    | none =>
        refine iff_of_true ?_ trivial
        exact right_of_newBoth halloc (ofType_none _ _) (ofType_none _ _) (wellTyped_none _)
          rfl rfl rfl
    | one ptr => exact right_one halloc ptr
    | both pBuf rBuf => exact right_both halloc pBuf rBuf
  · exact iff_of_true (right_of_not_allocates halloc) (.inl halloc)

end UtlCtor

end

/-! ## Setters -/

/-- What a setter is given is null or a buffer of the type of its slot. -/
def UtlOp.GivesTyped (hp : Heap) : UtlOp → Prop
  | .setParBuf p => OfType hp .par p
  | .setResBuf r => OfType hp .res r
  | .setOccupied _ _ | .exec _ => True

/-- Two states of the objects with the same types of buffers. -/
def SameTypes (hp hp' : Heap) : Prop := ∀ b, (hp'.bufs b).bt = (hp.bufs b).bt

section

variable {cli} {hp hp' : Heap} {u : UtlId} {w : World σ}

theorem SameTypes.ofType_iff (h : SameTypes hp hp') {bt : BufType} {ptr : Option BufId} :
    OfType hp' bt ptr ↔ OfType hp bt ptr := by
  unfold OfType
  simp only [h _]

theorem SameTypes.givesTyped_iff (h : SameTypes hp hp') {op : UtlOp} :
    op.GivesTyped hp' ↔ op.GivesTyped hp := by
  cases op with
  | setOccupied b v => exact Iff.rfl
  | setParBuf p => exact h.ofType_iff
  | setResBuf r => exact h.ofType_iff
  | exec sql => exact Iff.rfl

/-- With the same types and the same slots the slots are as typed as before. -/
theorem slotsTyped_congr (ht : SameTypes hp hp')
    (hs : ∀ bt, (hp'.utls u).slot bt = (hp.utls u).slot bt) :
    SlotsTyped hp' u ↔ SlotsTyped hp u :=
  forall_congr' fun bt => by rw [hs bt, ht.ofType_iff]

theorem Heap.Quiet.slot_eq (h : hp.Quiet hp') (u : UtlId) (bt : BufType) :
    (hp'.utls u).slot bt = (hp.utls u).slot bt := by
  cases bt with
  | par => exact h.parBuf u
  | res => exact h.resBuf u

/-- Executing changes neither the types nor the slots. -/
theorem exec_types_slots (u : UtlId) (sql : Str) (w : World σ) :
    SameTypes w.heap ((Utl.exec cli u sql).runOn w).2.heap ∧
      ∀ bt, (((Utl.exec cli u sql).runOn w).2.heap.utls u).slot bt =
        (w.heap.utls u).slot bt := by
  by_cases h : ∃ w₁, Utl.SetsUp cli u sql w w₁
  · obtain ⟨w₁, hw₁⟩ := h
    obtain ⟨hp, hrun, hquiet⟩ := Utl.runOn_exec_of_setsUp hw₁
    have hsetup := hw₁.reach.heap
    rw [hrun]
    constructor
    · intro b
      have hwrites : ((Utl.executed cli u w₁).heap.bufs b).bt = (w₁.heap.bufs b).bt :=
        (writes_sameShape _ w₁.heap b).bt
      exact (hquiet.bt b).trans (hwrites.trans (hsetup.bt b))
    · intro bt
      have hutls : (Utl.executed cli u w₁).heap.utls = w₁.heap.utls := issueWriting_utls cli w₁ _
      rw [hquiet.slot_eq u bt, hutls, hsetup.slot_eq u bt]
  · have hsetup := (Utl.setup_reach cli u sql w).heap
    rw [Utl.exec_state_of_not_setsUp fun w₁ hw₁ => h ⟨w₁, hw₁⟩]
    exact ⟨hsetup.bt, hsetup.slot_eq u⟩

theorem step_sameTypes (op : UtlOp) (u : UtlId) (w : World σ) :
    SameTypes w.heap (op.step cli u w).heap := by
  cases op with
  | setOccupied b v =>
      have hshape : ∀ bf : Buffer, SameShape bf { bf with occupied := v } :=
        fun _ => ⟨rfl, rfl, rfl⟩
      exact fun c => (updBuf_sameShape w.heap b hshape c).bt
  | setParBuf p => exact fun _ => rfl
  | setResBuf r => exact fun _ => rfl
  | exec sql => exact (exec_types_slots u sql w).1

/-- From typed slots, a step leads to typed slots where its setter is given what it should. -/
theorem slotsTyped_step_iff (h : SlotsTyped w.heap u) (op : UtlOp) :
    SlotsTyped (op.step cli u w).heap u ↔ op.GivesTyped w.heap := by
  cases op with
  | setOccupied b v =>
      have htypes := @step_sameTypes σ cli (.setOccupied b v) u w
      exact iff_of_true ((slotsTyped_congr htypes fun _ => rfl).mpr h) trivial
  | setParBuf p =>
      have hslots : (UtlOp.step cli u w (.setParBuf p)).heap.utls u =
          { w.heap.utls u with parBuf := p } :=
        Heap.updUtl_same w.heap u fun q => { q with parBuf := p }
      constructor
      · intro hafter
        have hpar := hafter .par
        rwa [hslots] at hpar
      · intro hp bt
        rw [hslots]
        cases bt with
        | par => exact hp
        | res => exact h .res
  | setResBuf r =>
      have hslots : (UtlOp.step cli u w (.setResBuf r)).heap.utls u =
          { w.heap.utls u with resBuf := r } :=
        Heap.updUtl_same w.heap u fun q => { q with resBuf := r }
      constructor
      · intro hafter
        have hres := hafter .res
        rwa [hslots] at hres
      · intro hr bt
        rw [hslots]
        cases bt with
        | par => exact h .par
        | res => exact hr
  | exec sql =>
      obtain ⟨htypes, hslots⟩ := @exec_types_slots σ cli u sql w
      exact iff_of_true ((slotsTyped_congr htypes hslots).mpr h) trivial

/-- From typed slots, the slots are typed throughout a run where every setter is given what it
should. -/
theorem slotsTyped_throughout_iff (h : SlotsTyped w.heap u) (ops : List UtlOp) :
    (∀ pre post, ops = pre ++ post → SlotsTyped (pre.foldl (UtlOp.step cli u) w).heap u) ↔
      ∀ op ∈ ops, op.GivesTyped w.heap := by
  rw [← allSteps_const (UtlOp.GivesTyped w.heap) ops w]
  refine AllSteps.holds_throughout_iff (D := fun _ _ => True)
    (I := fun w' : World σ => SlotsTyped w'.heap u ∧ SameTypes w.heap w'.heap)
    (fun _ h => h.1) ?_ ?_ (fun _ _ _ _ => trivial) ⟨h, fun _ => rfl⟩
  · rintro w' op ⟨hslots, htypes⟩ - hop
    refine ⟨(slotsTyped_step_iff hslots op).mpr (htypes.givesTyped_iff.mpr hop), fun b => ?_⟩
    exact (step_sameTypes op u w' b).trans (htypes b)
  · rintro w' op ⟨hslots, htypes⟩ - hop hafter
    exact hop (htypes.givesTyped_iff.mp ((slotsTyped_step_iff hslots op).mp hafter))

end

/-! ## Query objects from their construction on -/

/-- A constructor is right and the slots of the query object are typed ever after, exactly where
the constructor is given nothing that it handles in a wrong way and the setters are given
buffers of the types of their slots. Without a statement there is no query object. -/
theorem utl_slots_iff (u : UtlId) (s : StmtId) (db : Handle) (sql : Str)
    (allowedCodes : List Int) (c : UtlCtor) (ops : List UtlOp) (w : World σ) :
    (UtlCtor.Right cli u s db sql allowedCodes c w ∧
      ∀ w', (c.run cli u s db sql allowedCodes).runOn w = (.ok ⟨⟩, w') →
        ∀ pre post, ops = pre ++ post →
          SlotsTyped (pre.foldl (UtlOp.step cli u) w').heap u) ↔
    ¬ UtlCtor.Allocates cli w db ∨ c.Handled w.heap ∧
      (c.WellTyped w.heap → ∀ op ∈ ops, op.GivesTyped w.heap) := by
  by_cases halloc : UtlCtor.Allocates cli w db
  · rw [or_iff_right (not_not_intro halloc), UtlCtor.right_iff,
      or_iff_right (not_not_intro halloc)]
    refine and_congr_right fun hc => ?_
    have hright := (@UtlCtor.right_iff σ cli u s db sql allowedCodes c w).mpr (.inr hc)
    constructor
    · intro h hwell
      -- the constructor does not throw
      have hok : ∃ w', (c.run cli u s db sql allowedCodes).runOn w = (.ok ⟨⟩, w') := by
        rcases hrun : (c.run cli u s db sql allowedCodes).runOn w with ⟨e | ⟨⟩, w'⟩
        · have herror := hright.throws.mp ⟨e, congrArg Prod.fst hrun⟩
          exact absurd hwell (herror.resolve_right (not_not_intro halloc))
        · exact ⟨w', rfl⟩
      obtain ⟨w', hrun⟩ := hok
      have htypes : SameTypes w.heap w'.heap := fun b => by rw [c.run_bufs hrun]
      intro op hop
      have hslots := (slotsTyped_throughout_iff (h w' hrun [] ops rfl) ops).mp (h w' hrun) op hop
      exact htypes.givesTyped_iff.mp hslots
    · intro hops w' hrun
      have hwell : c.WellTyped w.heap := by
        by_contra hwrong
        obtain ⟨e, he⟩ := hright.throws.mpr (.inl hwrong)
        rw [hrun] at he
        cases he
      have htypes : SameTypes w.heap w'.heap := fun b => by rw [c.run_bufs hrun]
      have hslots : SlotsTyped w'.heap u := by
        intro bt
        have hstored := hright.stores (congrArg Prod.fst hrun) bt
        rw [hrun] at hstored
        rw [hstored, htypes.ofType_iff]
        exact hwell bt
      exact (slotsTyped_throughout_iff hslots ops).mpr fun op hop =>
        htypes.givesTyped_iff.mpr (hops hwell op hop)
  · refine iff_of_true ⟨UtlCtor.right_of_not_allocates halloc, fun w' hrun => ?_⟩ (.inl halloc)
    have herror := (@UtlCtor.right_of_not_allocates σ cli u s db sql allowedCodes c w
      halloc).throws.mpr (.inr halloc)
    rw [hrun] at herror
    obtain ⟨e, he⟩ := herror
    cases he

/-- A program with a parameter buffer, a result buffer and a driver. -/
def twoBuffers : World Unit where
  drv := ()
  heap :=
    { bufs := fun b => { bt := if b = 0 then .par else .res, arrSize := 1, attributes := [] }
      stmts := fun _ => {}
      utls := fun _ => { s := 0 } }

/-- A parameter buffer is stored in both slots, and a parameter and a result buffer in their
order are refused. -/
theorem utl_slots_wrong :
    (∃ w', (UtlCtor.run Cli.silent 0 0 1 [] [] (.one (some 0))).runOn twoBuffers = (.ok ⟨⟩, w') ∧
      (w'.heap.utls 0).resBuf = some 0 ∧ (w'.heap.bufs 0).bt = .par) ∧
    (UtlCtor.both (some 0) (some 1)).WellTyped twoBuffers.heap ∧
    ((UtlCtor.run Cli.silent 0 0 1 [] [] (.both (some 0) (some 1))).runOn twoBuffers).1 =
      .error (.runtimeError "Wrong buf type. Second is RESULT.") := by
  refine ⟨⟨_, rfl, rfl, rfl⟩, UtlCtor.wellTyped_both.mpr ⟨?_, ?_⟩, rfl⟩
  · exact ofType_some.mpr rfl
  · exact ofType_some.mpr rfl

end Dbgen3.Runtime
