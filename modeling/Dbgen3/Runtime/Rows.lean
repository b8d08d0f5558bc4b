import Dbgen3.Runtime.Driver
import Mathlib.Data.List.Forall2

/-!
# Rows in a buffer

Row `i` of a buffer is element `i` of each attribute. A fetch into bound columns
stores a block of rows from row zero on, and nothing else in the buffer changes
but the row counter.
-/

namespace Dbgen3.Runtime

/-! ## One element -/

namespace AttrRoot

variable {n : Nat}

theorem store_width (a : AttrRoot n) (i : Nat) (v : Cell) : (a.store i v).width = a.width := by
  unfold store
  split
  · cases v <;> rfl
  · rfl

/-- A value that fits is read back. -/
theorem cell_store_same (a : AttrRoot n) {i : Nat} (hi : i < n) {v : Cell}
    (hv : ∀ bytes, v = some bytes → bytes.length ≤ a.width) : (a.store i v).cell i = v := by
  unfold store cell
  rw [dif_pos hi, dif_pos hi]
  cases v with
  | none => simp
  | some bytes =>
      have hlen := hv bytes rfl
      have hne : ((bytes.length : Nat) : Int) ≠ sqlNullData := by
        unfold sqlNullData
        omega
      simp only [Vector.getElem_set_self, if_neg hne, Int.toNat_natCast, Option.some.injEq]
      apply List.ext_getElem
      · simp only [List.length_take, Vector.length_toList]
        omega
      · intro j h₁ h₂
        simp [h₂]

theorem cell_store_ne (a : AttrRoot n) {i j : Nat} (hij : j ≠ i) (v : Cell) :
    (a.store i v).cell j = a.cell j := by
  unfold store
  split
  · next hi =>
    unfold cell
    split
    · next hj =>
      cases v with
      | none => simp [Vector.getElem_set_ne _ _ (Ne.symm hij)]
      | some bytes => simp [Vector.getElem_set_ne _ _ (Ne.symm hij)]
    · rfl
  · rfl

end AttrRoot

/-! ## One row -/

/-- A row of values for attributes of these widths. -/
structure Row (widths : List Nat) where
  cells : List Cell
  fits : List.Forall₂ (fun v width => ∀ bytes, v = some bytes → bytes.length ≤ width) cells widths

namespace Buffer

/-- Element `i` of each attribute. -/
def row (b : Buffer) (i : Nat) : List Cell := b.attributes.map fun a => a.cell i

/-- `sizeof(T)` of each attribute. -/
def widths (b : Buffer) : List Nat := b.attributes.map AttrRoot.width

/-- Store a row, one attribute after the other. -/
def storeRow (b : Buffer) (i : Nat) (cells : List Cell) : Buffer :=
  cells.zipIdx.foldl (fun b ck => b.store ck.2 i ck.1) b

end Buffer

theorem foldl_modify_zipIdx {α β : Type} (f : β → α → α) (row : List β) (pre as : List α)
    (h : row.length = as.length) :
    (row.zipIdx pre.length).foldl (fun l ck => l.modify ck.2 (f ck.1)) (pre ++ as) =
      pre ++ List.zipWith f row as := by
  induction row generalizing pre as with
  | nil =>
      obtain rfl := List.length_eq_zero_iff.mp h.symm
      simp
  | cons c row ih =>
      cases as with
      | nil => cases h
      | cons a as =>
          have hmod : (pre ++ a :: as).modify pre.length (f c) = (pre ++ [f c a]) ++ as := by
            rw [List.modify_eq_take_cons_drop (by simp)]
            simp
          have hrest := ih (pre ++ [f c a]) as (by simpa using h)
          rw [List.length_append, List.length_singleton] at hrest
          rw [List.zipIdx_cons, List.foldl_cons, hmod, hrest]
          simp

namespace Buffer

theorem storeRow_eq (b : Buffer) (i : Nat) {cells : List Cell}
    (h : cells.length = b.attributes.length) :
    b.storeRow i cells = { b with
      attributes := List.zipWith (fun v a => a.store i v) cells b.attributes } := by
  have hfold : ∀ (cks : List (Cell × Nat)) (b : Buffer),
      cks.foldl (fun b ck => b.store ck.2 i ck.1) b = { b with
        attributes := cks.foldl (fun l ck => l.modify ck.2 fun a => a.store i ck.1) b.attributes } := by
    intro cks
    induction cks with
    | nil => exact fun b => rfl
    | cons ck cks ih => exact fun b => ih (b.store ck.2 i ck.1)
  unfold storeRow
  rw [hfold]
  have hall := foldl_modify_zipIdx (fun v (a : AttrRoot b.arrSize) => a.store i v) cells []
    b.attributes h
  rw [List.length_nil, List.nil_append, List.nil_append] at hall
  rw [hall]

theorem fits_length {b : Buffer} {cells : List Cell}
    (h : List.Forall₂ (fun v w => ∀ bytes, v = some bytes → bytes.length ≤ w) cells b.widths) :
    cells.length = b.attributes.length := by
  rw [h.length_eq, widths, List.length_map]

theorem storeRow_widths (b : Buffer) (i : Nat) {cells : List Cell}
    (h : cells.length = b.attributes.length) : (b.storeRow i cells).widths = b.widths := by
  rw [storeRow_eq b i h]
  unfold widths
  dsimp only
  rw [List.map_zipWith]
  apply List.ext_getElem
  · simp [h]
  · intro k h₁ h₂
    simp [AttrRoot.store_width]

/-- A stored row is read back, and the other rows stay. -/
theorem row_storeRow {b : Buffer} {i : Nat} (hi : i < b.arrSize) {cells : List Cell}
    (h : List.Forall₂ (fun v w => ∀ bytes, v = some bytes → bytes.length ≤ w) cells b.widths)
    (j : Nat) : (b.storeRow i cells).row j = if j = i then cells else b.row j := by
  have hlen := fits_length h
  rw [storeRow_eq b i hlen]
  unfold row
  dsimp only
  rw [List.map_zipWith]
  apply List.ext_getElem
  · split <;> simp [hlen]
  · intro k h₁ h₂
    have hk : k < cells.length := by
      rw [List.length_zipWith] at h₁
      omega
    rw [List.getElem_zipWith]
    split
    · next hj =>
      subst hj
      apply AttrRoot.cell_store_same _ hi
      have hfit := List.forall₂_iff_get.mp h
      intro bytes hbytes
      have hw := hfit.2 k hk (by rw [widths, List.length_map]; omega) bytes hbytes
      simpa [widths] using hw
    · next hj =>
      rw [AttrRoot.cell_store_ne _ hj, List.getElem_map]

/-- Store a block of rows from row `start` on. -/
def storeRows (b : Buffer) (start : Nat) (rows : List (List Cell)) : Buffer :=
  (rows.zipIdx start).foldl (fun b ri => b.storeRow ri.2 ri.1) b

theorem storeRow_arrSize (b : Buffer) (i : Nat) {cells : List Cell}
    (h : cells.length = b.attributes.length) : (b.storeRow i cells).arrSize = b.arrSize := by
  rw [storeRow_eq b i h]

/-- The rows of a stored block are read back in order, and the other rows stay. -/
theorem row_storeRows {widths : List Nat} (rows : List (Row widths)) {b : Buffer} (start : Nat)
    (hw : b.widths = widths) (hsize : start + rows.length ≤ b.arrSize) (j : Nat) :
    (b.storeRows start (rows.map Row.cells)).row j =
      if start ≤ j then (rows.map Row.cells)[j - start]?.getD (b.row j) else b.row j := by
  induction rows generalizing b start with
  | nil => simp [storeRows]
  | cons r rest ih =>
      subst hw
      rw [List.length_cons] at hsize
      have hlen := fits_length r.fits
      have hstep : b.storeRows start ((r :: rest).map Row.cells) =
          (b.storeRow start r.cells).storeRows (start + 1) (rest.map Row.cells) := rfl
      rw [hstep, ih (start + 1) (storeRow_widths b start hlen)
        (by rw [storeRow_arrSize b start hlen]; omega),
        row_storeRow (by omega) r.fits]
      rcases Nat.lt_trichotomy j start with hj | rfl | hj
      · rw [if_neg (by omega), if_neg (by omega), if_neg (by omega)]
      · rw [if_neg (by omega), if_pos rfl, if_pos (Nat.le_refl j), Nat.sub_self]
        rfl
      · rw [if_pos (by omega), if_neg (by omega), if_pos (by omega),
          show j - start = (j - (start + 1)) + 1 by omega, List.map_cons, List.getElem?_cons_succ]

theorem storeRows_shape {widths : List Nat} (rows : List (Row widths)) {b : Buffer} (start : Nat)
    (hw : b.widths = widths) :
    (b.storeRows start (rows.map Row.cells)).widths = widths ∧
      (b.storeRows start (rows.map Row.cells)).arrSize = b.arrSize := by
  induction rows generalizing b start with
  | nil => exact ⟨hw, rfl⟩
  | cons r rest ih =>
      subst hw
      have hlen := fits_length r.fits
      obtain ⟨h₁, h₂⟩ := ih (start + 1) (storeRow_widths b start hlen)
      exact ⟨h₁, h₂.trans (storeRow_arrSize b start hlen)⟩

end Buffer

/-! ## The writes of a fetch -/

theorem updBuf_updBuf (hp : Heap) (b : BufId) (f g : Buffer → Buffer) :
    (hp.updBuf b f).updBuf b g = hp.updBuf b fun bf => g (f bf) := by
  simp [Heap.updBuf]

theorem updBuf_id (hp : Heap) (b : BufId) : (hp.updBuf b fun bf => bf) = hp := by
  simp [Heap.updBuf]

/-- The columns of buffer `r` are bound in order. -/
def ColsBound (col : Int → Option DataAddr) (r : BufId) (n : Nat) : Prop :=
  ∀ k < n, col ((k : Int) + 1) = some ⟨r, k⟩

theorem foldl_rowWrites {col : Int → Option DataAddr} {r : BufId} {cells : List Cell}
    (hcol : ColsBound col r cells.length) (i : Nat) (hp : Heap) :
    (rowWrites col i cells).foldl Heap.write hp = hp.updBuf r fun bf => bf.storeRow i cells := by
  have hwrites : rowWrites col i cells =
      cells.zipIdx.map fun ck => .element ⟨r, ck.2⟩ i ck.1 := by
    unfold rowWrites
    rw [← List.filterMap_eq_map]
    apply List.filterMap_congr
    rintro ⟨v, k⟩ hk
    have hk' := List.snd_lt_of_mem_zipIdx hk
    simp [hcol k (by simpa using hk')]
  have hfold : ∀ (cks : List (Cell × Nat)) (hp : Heap),
      (cks.map fun ck => MemWrite.element ⟨r, ck.2⟩ i ck.1).foldl Heap.write hp =
        hp.updBuf r fun bf => cks.foldl (fun b ck => b.store ck.2 i ck.1) bf := by
    intro cks
    induction cks with
    | nil => exact fun hp => (updBuf_id hp r).symm
    | cons ck cks ih =>
        intro hp
        rw [List.map_cons, List.foldl_cons, ih, Heap.write, updBuf_updBuf]
        rfl
  rw [hwrites, hfold]
  rfl

/-- A fetch of `rows` into the bound columns of `r` stores them from row zero on and
sets the counter. -/
theorem foldl_fetchWrites {col : Int → Option DataAddr} {r : BufId} {rows : List (List Cell)}
    (hcol : ∀ row ∈ rows, ColsBound col r row.length) (hp : Heap) :
    (fetchWrites col (some r) rows).foldl Heap.write hp =
      hp.updBuf r fun bf => { bf.storeRows 0 rows with occupied := rows.length } := by
  have hfold : ∀ (ris : List (List Cell × Nat)) (hp : Heap),
      (∀ ri ∈ ris, ColsBound col r ri.1.length) →
      (ris.flatMap fun ri => rowWrites col ri.2 ri.1).foldl Heap.write hp =
        hp.updBuf r fun bf => ris.foldl (fun b ri => b.storeRow ri.2 ri.1) bf := by
    intro ris
    induction ris with
    | nil => exact fun hp _ => (updBuf_id hp r).symm
    | cons ri ris ih =>
        intro hp hris
        rw [List.flatMap_cons, List.foldl_append, foldl_rowWrites (hris ri List.mem_cons_self),
          ih _ fun x hx => hris x (List.mem_cons_of_mem _ hx), updBuf_updBuf]
        rfl
  have hmem : ∀ ri ∈ rows.zipIdx, ColsBound col r ri.1.length :=
    fun ri hri => hcol ri.1 (List.fst_mem_of_mem_zipIdx hri)
  unfold fetchWrites
  rw [List.foldl_append, hfold _ _ hmem]
  change (hp.updBuf r _).write (.occupied r rows.length) = _
  rw [Heap.write, updBuf_updBuf]
  rfl

end Dbgen3.Runtime
