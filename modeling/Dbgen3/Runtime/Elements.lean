import Dbgen3.Lib.Runs
import Dbgen3.Lib.Store
import Dbgen3.Runtime.World

/-!
# Elements of an attribute

`set_value` copies a view to the front of an element and writes its length to the
indicator. A view that starts where the element does is taken for the element
itself, and nothing is written. The indicator is 32 bits wide, and the getters
read it as an unsigned size.
-/

namespace Dbgen3.Runtime

open Runs

/-- What `sizeof` can give: no object is larger than `PTRDIFF_MAX` bytes. -/
abbrev ObjectSize := Fin (2 ^ 63)

/-- Where the first byte of a view lies: outside `data_`, or at an offset in it. -/
inductive ViewStart
  | outside
  | inside (off : Nat)
  deriving DecidableEq, Repr

/-- `cstr_t` and `cbstr_t`: where a view starts, and the bytes it shows. -/
structure ByteView where
  src : ViewStart := .outside
  bytes : List UInt8
  deriving Repr

/-- `std::array::at` of an array of `n` elements. -/
def atIndex {α : Type} (n ndx : Nat) (el : ndx < n → α) : Except Exc α :=
  if h : ndx < n then .ok (el h) else .error (.stdExc .outOfRange)

section At

variable {α : Type} {n ndx : Nat}

theorem atIndex_of_lt (h : ndx < n) (el : ndx < n → α) : atIndex n ndx el = .ok (el h) := dif_pos h

theorem atIndex_of_le (h : n ≤ ndx) (el : ndx < n → α) :
    atIndex n ndx el = .error (.stdExc .outOfRange) :=
  dif_neg (Nat.not_lt.mpr h)

end At

/-- `std::memcpy` to the front of `dst`. -/
def memcpy {width : Nat} (dst : Vector UInt8 width) (src : List UInt8) : Vector UInt8 width :=
  Vector.ofFn fun j => src.getD j dst[j]

/-- What is copied stands at the front, whatever stood there before. -/
theorem take_memcpy {width : Nat} (dst : Vector UInt8 width) {src : List UInt8}
    (h : src.length ≤ width) : (memcpy dst src).toList.take src.length = src := by
  apply List.ext_getElem
  · simp only [List.length_take, Vector.length_toList]
    omega
  · intro j h₁ h₂
    simp [memcpy, h₂]

/-! ## Setters and getters -/

namespace AttrRoot

variable {n : Nat}

/-- The element with the null indicator. -/
def nulled (a : AttrRoot n) (ndx : Nat) (h : ndx < n) : AttrRoot n :=
  { a with len := a.len.set ndx sqlNullData }

/-- `attr_root::set_null`. -/
def setNull (a : AttrRoot n) (ndx : Nat) : Except Exc (AttrRoot n) :=
  atIndex n ndx fun h => a.nulled ndx h

/-- `attr_root::is_null`. -/
def isNull (a : AttrRoot n) (ndx : Nat) : Except Exc Bool :=
  atIndex n ndx fun h => a.len[ndx] == sqlNullData

/-- `attr_root::el_size`: the indicator as a `size_t`. -/
def elSize (a : AttrRoot n) (ndx : Nat) : Except Exc Nat :=
  atIndex n ndx fun h => (a.len[ndx] % 2 ^ 64).toNat

/-- The element after `max_len` bytes of a value, and its length, are stored. -/
def stored (a : AttrRoot n) (ndx : Nat) (h : ndx < n) (bytes : List UInt8) : AttrRoot n :=
  { a with
    data := a.data.set ndx (memcpy a.data[ndx] (bytes.take (min a.width bytes.length)))
    len := a.len.set ndx (int32 (min a.width bytes.length : Nat)) }

/-- `attr_root::s_T`. -/
def sT (a : AttrRoot n) (v : Vector UInt8 a.width) (ndx : Nat) : Except Exc (AttrRoot n) :=
  if attrType a.dbType = .atomic then
    atIndex n ndx fun h =>
      { a with data := a.data.set ndx v, len := a.len.set ndx (int32 a.width) }
  else .ok a

/-- `attr_root::s_cstr` and `attr_root::s_bstr` behind their guards. -/
def assign (a : AttrRoot n) (v : ByteView) (ndx : Nat) : Except Exc (AttrRoot n) :=
  atIndex n ndx fun h =>
    if v.src ≠ .inside (ndx * a.width) then a.stored ndx h v.bytes else a

/-- `attr_root::s_cstr`. -/
def sCstr (a : AttrRoot n) (v : ByteView) (ndx : Nat) : Except Exc (AttrRoot n) :=
  if attrType a.dbType = .string then a.assign v ndx else .ok a

/-- `attr_root::s_bstr`. -/
def sBstr (a : AttrRoot n) (v : ByteView) (ndx : Nat) : Except Exc (AttrRoot n) :=
  if attrType a.dbType = .bstring then a.assign v ndx else .ok a

/-- `set_value` of the class for the type: `atomic`, `string` or `bstring`. The object
an `atomic` is given has the bytes of the view. -/
def setValue (a : AttrRoot n) (v : ByteView) (ndx : Nat) : Except Exc (AttrRoot n) :=
  match attrType a.dbType with
  | .atomic => a.sT (Vector.ofFn fun j => v.bytes.getD j 0) ndx
  | .string => a.sCstr v ndx
  | .bstring => a.sBstr v ndx
  | .unknown => .ok a

/-- `string::value` and `bstring::value`: the offset of the view in `data_`, and its length. -/
def valueView (a : AttrRoot n) (ndx : Nat) : Except Exc (Nat × Nat) := do
  let size ← a.elSize ndx
  atIndex n ndx fun _ => (ndx * a.width, size)

/-- The bytes that `value` gives: of an `atomic` the element, of the others those of the
view, as long as it stays in the element. -/
def value (a : AttrRoot n) (ndx : Nat) : Except Exc (Option (List UInt8)) :=
  if attrType a.dbType = .atomic then atIndex n ndx fun h => some a.data[ndx].toList
  else do
    let size ← a.elSize ndx
    atIndex n ndx fun h =>
      if size ≤ a.width then some (a.data[ndx].toList.take size) else none

/-- The indicator and the bytes of an element. -/
def element (a : AttrRoot n) (ndx : Nat) : Option (Int × List UInt8) :=
  if h : ndx < n then some (a.len[ndx], a.data[ndx].toList) else none

end AttrRoot

/-! ## Calls -/

/-- An argument of `set_value`: for an `atomic` an object of the type. -/
structure Arg (dbType : Int) (width : Nat) extends ByteView where
  sized : attrType dbType = .atomic → bytes.length = width

/-- The number of bytes a setter stores. -/
def Arg.size {dbType : Int} {width : Nat} (v : Arg dbType width) : Nat := min width v.bytes.length

/-- A call on an attribute of the type. -/
inductive ElCall (dbType : Int) (width : Nat)
  | setValue (v : Arg dbType width) (ndx : Nat)
  | setNull (ndx : Nat)

namespace ElCall

variable {dbType : Int} {width n : Nat}

/-- The index of the call. -/
def ndx : ElCall dbType width → Nat
  | .setValue _ ndx => ndx
  | .setNull ndx => ndx

/-- What the call writes, and where. -/
def write : ElCall dbType width → Nat × Option (Arg dbType width)
  | .setValue v ndx => (ndx, some v)
  | .setNull ndx => (ndx, none)

/-- No view into the attribute's own storage. -/
def Outside : ElCall dbType width → Prop
  | .setValue v _ => v.src = .outside
  | .setNull _ => True

/-- Not a view that starts where the element does. -/
def assigns : ElCall dbType width → Bool
  | .setValue v ndx => decide (attrType dbType = .atomic ∨ v.src ≠ .inside (ndx * width))
  | .setNull _ => true

/-- The call on an attribute. -/
def apply (c : ElCall dbType width) (a : AttrRoot n) : Except Exc (AttrRoot n) :=
  match c with
  | .setValue v ndx => a.setValue v.toByteView ndx
  | .setNull ndx => a.setNull ndx

/-- The attribute after a call; a call that throws leaves it as it is. -/
def step (a : AttrRoot n) (c : ElCall dbType width) : AttrRoot n :=
  match c.apply a with
  | .ok a' => a'
  | .error _ => a

/-- The attribute after a sequence of calls. -/
def run (a : AttrRoot n) (calls : List (ElCall dbType width)) : AttrRoot n := calls.foldl step a

/-- The value the last call on `i` set; none where it set null, or there was none. -/
def lastSet (i : Nat) (calls : List (ElCall dbType width)) : Option (Arg dbType width) :=
  (Store.lastValue i (calls.map write)).join

@[simp] theorem write_fst (c : ElCall dbType width) : c.write.1 = c.ndx := by
  cases c <;> rfl

theorem Outside.assigns {c : ElCall dbType width} (h : c.Outside) : c.assigns = true := by
  cases c with
  | setNull ndx => rfl
  | setValue v ndx =>
      have hsrc : v.src = .outside := h
      simp [ElCall.assigns, hsrc]

end ElCall

theorem not_atomic_of_view {dbType : Int}
    (h : attrType dbType = .string ∨ attrType dbType = .bstring) :
    attrType dbType ≠ .unknown ∧ attrType dbType ≠ .atomic := by
  cases h with
  | inl h => simp [h]
  | inr h => simp [h]

/-! ## What a call does to an element -/

namespace AttrRoot

variable {n : Nat} {a : AttrRoot n}

theorem element_nulled (a : AttrRoot n) {ndx : Nat} (h : ndx < n) (j : Nat) :
    (a.nulled ndx h).element j =
      if j = ndx then some (sqlNullData, a.data[ndx].toList) else a.element j := by
  unfold element nulled
  by_cases hj : j = ndx
  · subst hj
    rw [if_pos rfl, dif_pos h]
    simp only [Vector.getElem_set_self]
  · rw [if_neg hj]
    simp only [Vector.getElem_set_ne _ _ (Ne.symm hj)]

theorem element_stored (a : AttrRoot n) {ndx : Nat} (h : ndx < n) (bytes : List UInt8) (j : Nat) :
    (a.stored ndx h bytes).element j =
      if j = ndx then
        some (int32 (min a.width bytes.length : Nat),
          (memcpy a.data[ndx] (bytes.take (min a.width bytes.length))).toList)
      else a.element j := by
  unfold element stored
  by_cases hj : j = ndx
  · subst hj
    rw [if_pos rfl, dif_pos h]
    simp only [Vector.getElem_set_self]
  · rw [if_neg hj]
    simp only [Vector.getElem_set_ne _ _ (Ne.symm hj)]

/-- An object of the type fills the element. -/
theorem sT_eq (hkind : attrType a.dbType = .atomic) {bytes : List UInt8}
    (hsize : bytes.length = a.width) (ndx : Nat) :
    a.sT (Vector.ofFn fun j => bytes.getD j 0) ndx =
      atIndex n ndx fun h => a.stored ndx h bytes := by
  unfold sT
  rw [if_pos hkind]
  refine congrArg (atIndex n ndx) (funext fun h => ?_)
  have hmin : min a.width bytes.length = a.width := by omega
  have htake : bytes.take a.width = bytes := List.take_of_length_le (Nat.le_of_eq hsize)
  have hbytes : memcpy a.data[ndx] bytes = Vector.ofFn fun j => bytes.getD j 0 := by
    ext j hj
    simp [memcpy, hsize]
  simp only [stored, hmin, htake, hbytes]

/-- The one thing the three setters do, each for its kind. -/
theorem setValue_eq (hkind : attrType a.dbType ≠ .unknown) {v : ByteView}
    (hsize : attrType a.dbType = .atomic → v.bytes.length = a.width) (ndx : Nat) :
    a.setValue v ndx = atIndex n ndx fun h =>
      if attrType a.dbType = .atomic ∨ v.src ≠ .inside (ndx * a.width) then a.stored ndx h v.bytes
      else a := by
  unfold setValue
  cases hk : attrType a.dbType with
  | unknown => exact absurd hk hkind
  | atomic => simpa using sT_eq hk (hsize hk) ndx
  | string => simp [sCstr, hk, assign]
  | bstring => simp [sBstr, hk, assign]

end AttrRoot

section Written

variable {dbType : Int} {width n : Nat}

/-- The attribute has the type and the element size of the calls. -/
structure AttrRoot.Of (dbType : Int) (width : Nat) (a : AttrRoot n) : Prop where
  dbType_eq : a.dbType = dbType
  width_eq : a.width = width

/-- Element `i` is as a write leaves it. -/
def Written (a : AttrRoot n) (i : Nat) : Option (Arg dbType width) → Prop
  | none => ∃ bytes, a.element i = some (sqlNullData, bytes)
  | some v => ∃ bytes, a.element i = some (int32 v.size, bytes) ∧
      bytes.take v.size = v.bytes.take width

theorem Written.congr {a a' : AttrRoot n} {i : Nat} (h : a'.element i = a.element i)
    {w : Option (Arg dbType width)} (hw : Written a i w) : Written a' i w := by
  cases w with
  | none => simpa only [Written, h] using hw
  | some v => simpa only [Written, h] using hw

theorem written_new (dec : Int) {i : Nat} (hi : i < n) :
    Written (.new n dbType dec width) i (none : Option (Arg dbType width)) :=
  ⟨List.replicate width 0, by simp [AttrRoot.element, AttrRoot.new, hi]⟩

theorem written_stored {a : AttrRoot n} (ha : a.width = width) {i : Nat} (h : i < n)
    (v : Arg dbType width) : Written (a.stored i h v.bytes) i (some v) := by
  subst ha
  have hsize : (v.bytes.take v.size).length = v.size := by
    rw [List.length_take]
    exact Nat.min_eq_left (Nat.min_le_right _ _)
  have hle : (v.bytes.take v.size).length ≤ a.width := by
    rw [hsize]
    exact Nat.min_le_left _ _
  have htake := take_memcpy a.data[i] hle
  rw [hsize] at htake
  refine ⟨(memcpy a.data[i] (v.bytes.take v.size)).toList, ?_, ?_⟩
  · rw [AttrRoot.element_stored, if_pos rfl]
    rfl
  · rw [htake]
    exact List.take_eq_take_min.symm

namespace ElCall

/-- What a call in range does to the attribute. -/
def effect (c : ElCall dbType width) (a : AttrRoot n) (h : c.ndx < n) : AttrRoot n :=
  match c, h with
  | .setValue v ndx, h => a.stored ndx h v.bytes
  | .setNull ndx, h => a.nulled ndx h

variable {a : AttrRoot n}

theorem apply_eq (hkind : attrType dbType ≠ .unknown) (ha : a.Of dbType width)
    (c : ElCall dbType width) :
    c.apply a = atIndex n c.ndx fun h => if c.assigns then c.effect a h else a := by
  obtain ⟨rfl, rfl⟩ := ha
  cases c with
  | setNull ndx => rfl
  | setValue v ndx =>
      change a.setValue v.toByteView ndx = _
      rw [AttrRoot.setValue_eq hkind v.sized]
      simp only [assigns, decide_eq_true_eq]
      rfl

theorem step_of_le (hkind : attrType dbType ≠ .unknown) (ha : a.Of dbType width)
    {c : ElCall dbType width} (h : n ≤ c.ndx) :
    c.apply a = .error (.stdExc .outOfRange) ∧ step a c = a := by
  have happly : c.apply a = .error (.stdExc .outOfRange) := by
    rw [apply_eq hkind ha, atIndex_of_le h]
  refine ⟨happly, ?_⟩
  unfold step
  rw [happly]

theorem step_of_lt (hkind : attrType dbType ≠ .unknown) (ha : a.Of dbType width)
    {c : ElCall dbType width} (h : c.ndx < n) :
    step a c = if c.assigns then c.effect a h else a := by
  unfold step
  rw [apply_eq hkind ha, atIndex_of_lt h]

theorem of_effect (ha : a.Of dbType width) (c : ElCall dbType width) (h : c.ndx < n) :
    (c.effect a h).Of dbType width := by
  cases c with
  | setNull ndx => exact ⟨ha.dbType_eq, ha.width_eq⟩
  | setValue v ndx => exact ⟨ha.dbType_eq, ha.width_eq⟩

theorem of_step (hkind : attrType dbType ≠ .unknown) (ha : a.Of dbType width)
    (c : ElCall dbType width) : (step a c).Of dbType width := by
  by_cases h : c.ndx < n
  · rw [step_of_lt hkind ha h]
    split
    · exact of_effect ha c h
    · exact ha
  · rw [(step_of_le hkind ha (Nat.not_lt.mp h)).2]
    exact ha

/-- The element of the call is as its write leaves it. -/
theorem written_effect (ha : a.Of dbType width) (c : ElCall dbType width) (h : c.ndx < n) :
    Written (c.effect a h) c.ndx c.write.2 := by
  cases c with
  | setValue v ndx => exact written_stored ha.width_eq h v
  | setNull ndx => exact ⟨_, (AttrRoot.element_nulled a h ndx).trans (if_pos rfl)⟩

/-- Every other element is as it was. -/
theorem element_effect_ne {c : ElCall dbType width} (h : c.ndx < n) {j : Nat} (hj : j ≠ c.ndx) :
    (c.effect a h).element j = a.element j := by
  cases c with
  | setValue v ndx => exact (AttrRoot.element_stored a h v.bytes j).trans (if_neg hj)
  | setNull ndx => exact (AttrRoot.element_nulled a h j).trans (if_neg hj)

theorem element_step_ne (hkind : attrType dbType ≠ .unknown) (ha : a.Of dbType width)
    {c : ElCall dbType width} {j : Nat} (hj : j ≠ c.ndx) :
    (step a c).element j = a.element j := by
  by_cases h : c.ndx < n
  · rw [step_of_lt hkind ha h]
    split
    · exact element_effect_ne h hj
    · rfl
  · rw [(step_of_le hkind ha (Nat.not_lt.mp h)).2]

/-- After a run an element is as the last call that wrote to it left it. -/
theorem written_run (hkind : attrType dbType ≠ .unknown) {i : Nat} (hi : i < n)
    (calls : List (ElCall dbType width)) {a : AttrRoot n} (ha : a.Of dbType width)
    {w : Option (Arg dbType width)} (hw : Written a i w) :
    Written (run a calls) i
      ((Store.lastValue i ((calls.filter assigns).map write)).getD w) := by
  induction calls generalizing a w with
  | nil => exact hw
  | cons c calls ih =>
      have hstep := of_step hkind ha c
      change Written (run (step a c) calls) i _
      by_cases hc : c.assigns = true
      · rw [List.filter_cons_of_pos hc, List.map_cons]
        by_cases hndx : c.ndx = i
        · subst hndx
          have hwrite : Written (step a c) c.ndx c.write.2 := by
            rw [step_of_lt hkind ha hi, if_pos hc]
            exact written_effect ha c hi
          have hsplit : c.write = (c.ndx, c.write.2) := Prod.ext c.write_fst rfl
          rw [hsplit, Store.lastValue_cons_same, Option.getD_or]
          exact ih hstep hwrite
        · rw [Store.lastValue_cons_ne (by rwa [write_fst])]
          exact ih hstep (hw.congr (element_step_ne hkind ha (Ne.symm hndx)))
      · have hsame : step a c = a := by
          by_cases h : c.ndx < n
          · rw [step_of_lt hkind ha h, if_neg hc]
          · exact (step_of_le hkind ha (Nat.not_lt.mp h)).2
        rw [List.filter_cons_of_neg hc, hsame]
        exact ih ha hw

theorem of_run (hkind : attrType dbType ≠ .unknown) (calls : List (ElCall dbType width))
    {a : AttrRoot n} (ha : a.Of dbType width) : (run a calls).Of dbType width := by
  induction calls generalizing a with
  | nil => exact ha
  | cons c calls ih => exact ih (of_step hkind ha c)

/-- The same for the attribute as it is constructed. -/
theorem written_run_new (hkind : attrType dbType ≠ .unknown) (dec : Int) {i : Nat} (hi : i < n)
    (calls : List (ElCall dbType width)) :
    Written (run (.new n dbType dec width) calls) i (lastSet i (calls.filter assigns)) := by
  have h := written_run hkind hi calls ⟨rfl, rfl⟩ (written_new dec hi)
  unfold lastSet
  cases hl : Store.lastValue i ((calls.filter assigns).map write) with
  | none =>
      rw [hl] at h
      exact h
  | some w =>
      rw [hl] at h
      exact h

end ElCall

/-! ## Reading an element back -/

/-- An unsigned size stored in a 32-bit `int`. -/
theorem int32_natCast (m : Nat) :
    int32 m = if m % 2 ^ 32 < 2 ^ 31 then ((m % 2 ^ 32 : Nat) : Int)
      else ((m % 2 ^ 32 : Nat) : Int) - 2 ^ 32 := by
  unfold int32
  rw [Int.bmod_def]
  split <;> split <;> omega

theorem int32_natCast_eq_null_iff (m : Nat) :
    int32 m = sqlNullData ↔ m % 2 ^ 32 = 2 ^ 32 - 1 := by
  rw [int32_natCast]
  unfold sqlNullData
  split <;> omega

/-- The size a getter reads back is the size stored. -/
theorem toNat_int32_eq_iff {m : Nat} (h : m < 2 ^ 63) :
    (int32 m % 2 ^ 64).toNat = m ↔ m < 2 ^ 31 := by
  rw [int32_natCast]
  split <;> omega

/-- The size a getter reads back is at most `width`. -/
theorem toNat_int32_le_iff {m width : Nat} (h : m ≤ width) (hwidth : width < 2 ^ 63) :
    (int32 m % 2 ^ 64).toNat ≤ width ↔ m % 2 ^ 32 < 2 ^ 31 := by
  rw [int32_natCast]
  split <;> omega

namespace AttrRoot

variable {a : AttrRoot n} {i : Nat} {len : Int} {bytes : List UInt8}

theorem exists_of_element (h : a.element i = some (len, bytes)) :
    ∃ hi : i < n, a.len[i] = len ∧ a.data[i].toList = bytes := by
  unfold element at h
  split at h
  · next hi =>
    obtain ⟨hlen, hbytes⟩ := Prod.mk.inj (Option.some.inj h)
    exact ⟨hi, hlen, hbytes⟩
  · cases h

theorem isNull_of_element (h : a.element i = some (len, bytes)) :
    a.isNull i = .ok (len == sqlNullData) := by
  obtain ⟨hi, rfl, -⟩ := exists_of_element h
  exact atIndex_of_lt hi _

theorem elSize_of_element (h : a.element i = some (len, bytes)) :
    a.elSize i = .ok (len % 2 ^ 64).toNat := by
  obtain ⟨hi, rfl, -⟩ := exists_of_element h
  exact atIndex_of_lt hi _

theorem length_of_element (h : a.element i = some (len, bytes)) : bytes.length = a.width := by
  obtain ⟨hi, -, rfl⟩ := exists_of_element h
  simp

theorem valueView_of_element (h : a.element i = some (len, bytes)) :
    a.valueView i = .ok (i * a.width, (len % 2 ^ 64).toNat) := by
  obtain ⟨hi, -, -⟩ := exists_of_element h
  unfold valueView
  rw [elSize_of_element h]
  exact atIndex_of_lt hi _

theorem value_of_atomic (hkind : attrType a.dbType = .atomic)
    (h : a.element i = some (len, bytes)) : a.value i = .ok (some bytes) := by
  obtain ⟨hi, -, rfl⟩ := exists_of_element h
  unfold value
  rw [if_pos hkind, atIndex_of_lt hi]

theorem value_of_view (hkind : attrType a.dbType ≠ .atomic)
    (h : a.element i = some (len, bytes)) :
    a.value i = .ok (if (len % 2 ^ 64).toNat ≤ a.width then
      some (bytes.take (len % 2 ^ 64).toNat) else none) := by
  obtain ⟨hi, -, hbytes⟩ := exists_of_element h
  unfold value
  rw [if_neg hkind, elSize_of_element h, ← hbytes]
  exact atIndex_of_lt hi _

/-- A view of the size that was stored gives the bytes that were stored, and no other view. -/
theorem value_of_view_iff (hkind : attrType a.dbType ≠ .atomic)
    (h : a.element i = some (len, bytes)) {size : Nat} (hsize : size ≤ a.width) :
    a.value i = .ok (some (bytes.take size)) ↔ (len % 2 ^ 64).toNat = size := by
  rw [value_of_view hkind h]
  have hlength := length_of_element h
  constructor
  · intro heq
    split at heq
    · have htake := congrArg List.length (Option.some.inj (Except.ok.inj heq))
      simp only [List.length_take] at htake
      omega
    · cases heq
  · rintro rfl
    rw [if_pos hsize]

end AttrRoot

/-! ## The whole history of an attribute -/

/-- What the last call on an element promises about it. -/
structure ElementLaw (a : AttrRoot n) (i : Nat) (w : Option (Arg dbType width)) : Prop where
  null_iff : a.isNull i = .ok true ↔ w = none
  value_eq : ∀ v, w = some v → a.value i = .ok (some (v.bytes.take width))

/-- The indicator has room for the size stored: for an `atomic` it only must not be the
null indicator. -/
def Arg.Recorded (v : Arg dbType width) : Prop :=
  if attrType dbType = .atomic then width % 2 ^ 32 ≠ 2 ^ 32 - 1 else v.size < 2 ^ 31

theorem Arg.size_le (v : Arg dbType width) : v.size ≤ width := Nat.min_le_left _ _

theorem Arg.size_atomic (hkind : attrType dbType = .atomic) (v : Arg dbType width) :
    v.size = width := by
  unfold Arg.size
  rw [v.sized hkind, Nat.min_self]

theorem elementLaw_iff (hwidth : width < 2 ^ 63) {a : AttrRoot n} (ha : a.Of dbType width)
    {i : Nat} {w : Option (Arg dbType width)} (hw : Written a i w) :
    ElementLaw a i w ↔ ∀ v, w = some v → v.Recorded := by
  cases w with
  | none =>
      obtain ⟨bytes, h⟩ := hw
      refine iff_of_true ⟨iff_of_true ?_ rfl, ?_⟩ ?_
      · exact AttrRoot.isNull_of_element h
      · intro v hv
        cases hv
      · intro v hv
        cases hv
  | some v =>
      obtain ⟨bytes, h, htake⟩ := hw
      have hnull : (a.isNull i = .ok true ↔ some v = none) ↔ v.size % 2 ^ 32 ≠ 2 ^ 32 - 1 := by
        rw [AttrRoot.isNull_of_element h, ne_eq, ← int32_natCast_eq_null_iff]
        simp
      have hvalue : a.value i = .ok (some (v.bytes.take width)) ↔
          (attrType dbType = .atomic ∨ v.size < 2 ^ 31) := by
        by_cases hkind : attrType dbType = .atomic
        · refine iff_of_true ?_ (.inl hkind)
          rw [AttrRoot.value_of_atomic (by rwa [ha.dbType_eq]) h, ← htake, v.size_atomic hkind,
            ← ha.width_eq, List.take_of_length_le (Nat.le_of_eq (AttrRoot.length_of_element h))]
        · have hsize := toNat_int32_eq_iff (Nat.lt_of_le_of_lt v.size_le hwidth)
          rw [← htake, AttrRoot.value_of_view_iff (by rwa [ha.dbType_eq]) h
            (by rw [ha.width_eq]; exact v.size_le), hsize]
          exact ⟨.inr, fun h => h.resolve_left hkind⟩
      have hlaw : ElementLaw a i (some v) ↔ v.Recorded := by
        unfold Arg.Recorded
        constructor
        · intro hlaw
          have h₁ := hnull.mp hlaw.null_iff
          have h₂ := hvalue.mp (hlaw.value_eq v rfl)
          split
          · next hkind =>
            rwa [v.size_atomic hkind] at h₁
          · next hkind => exact h₂.resolve_left hkind
        · intro hrec
          refine ⟨hnull.mpr ?_, ?_⟩
          · split at hrec
            · next hkind => rwa [v.size_atomic hkind]
            · omega
          · rintro v' hv'
            obtain rfl := Option.some.inj hv'
            refine hvalue.mpr ?_
            split at hrec
            · next hkind => exact .inl hkind
            · exact .inr hrec
      rw [hlaw]
      exact ⟨fun h v' hv' => Option.some.inj hv' ▸ h, fun h => h v rfl⟩

/-- The law of `is_null`, `value` and `set_value` over a sequence of calls: the last call on
an element decides, a call past the end throws and changes nothing, and a call changes no
other element. -/
structure Lawful (start : AttrRoot n) (calls : List (ElCall dbType width)) : Prop where
  elements : ∀ i, i < n → ElementLaw (ElCall.run start calls) i (ElCall.lastSet i calls)
  rejects : AllSteps ElCall.step (fun (a : AttrRoot n) (c : ElCall dbType width) => n ≤ c.ndx →
    c.apply a = .error (.stdExc .outOfRange) ∧ ElCall.step a c = a) calls start
  others : AllSteps ElCall.step (fun (a : AttrRoot n) (c : ElCall dbType width) => ∀ j, j ≠ c.ndx →
    (ElCall.step a c).element j = a.element j) calls start

theorem filter_assigns {calls : List (ElCall dbType width)} (hout : ∀ c ∈ calls, c.Outside) :
    calls.filter ElCall.assigns = calls :=
  List.filter_eq_self.mpr fun c hc => (hout c hc).assigns

end Written

section Law

variable {n : Nat} {dbType : Int} {width : ObjectSize}

/-- The `sizeof` of a character large object of the greatest length. -/
def clobSize : ObjectSize := ⟨2 ^ 31, by decide⟩

/-- A value that fills it. -/
def clobValue : Arg (-99) clobSize := ⟨⟨.outside, List.replicate (2 ^ 31) 97⟩, by decide⟩

/-- The view of element `i` lies in its storage. -/
def AttrRoot.ViewInside (a : AttrRoot n) (i : Nat) : Prop :=
  ∃ start size, a.valueView i = .ok (start, size) ∧ i * a.width ≤ start ∧
    start + size ≤ i * a.width + a.width

theorem viewInside_of_element {a : AttrRoot n} {i : Nat} {len : Int} {bytes : List UInt8}
    (h : a.element i = some (len, bytes)) :
    a.ViewInside i ↔ (len % 2 ^ 64).toNat ≤ a.width := by
  unfold AttrRoot.ViewInside
  rw [AttrRoot.valueView_of_element h]
  constructor
  · rintro ⟨start, size, heq, hstart, hend⟩
    obtain ⟨rfl, rfl⟩ := Prod.mk.inj (Except.ok.inj heq)
    omega
  · intro hle
    exact ⟨_, _, rfl, Nat.le_refl _, by omega⟩

namespace AttrRoot

/-- Element `i` holds a value of `size` bytes. -/
structure HoldsValue (a : AttrRoot n) (i size : Nat) : Prop where
  lt : i < n
  len_eq : a.len[i] = size
  fits : size ≤ a.width
  size_lt : size < 2 ^ 31

/-- The first `k` bytes of element `i`. -/
def firstBytes (a : AttrRoot n) (i k : Nat) : List UInt8 :=
  match a.element i with
  | none => []
  | some (_, bytes) => bytes.take k

/-- The same as a view into `data_`. -/
def ownView (a : AttrRoot n) (i k : Nat) : ByteView := ⟨.inside (i * a.width), a.firstBytes i k⟩

/-- The value of element `i` after it is set. -/
def valueAfter (a : AttrRoot n) (v : ByteView) (i : Nat) : Except Exc (Option (List UInt8)) := do
  let a' ← a.setValue v i
  a'.value i

variable {a : AttrRoot n} {i size : Nat}

theorem HoldsValue.exists_element (h : a.HoldsValue i size) :
    ∃ bytes, a.element i = some ((size : Int), bytes) := by
  have hi := h.lt
  refine ⟨a.data[i].toList, ?_⟩
  unfold element
  rw [dif_pos hi, h.len_eq]

theorem firstBytes_of_element {len : Int} {bytes : List UInt8}
    (h : a.element i = some (len, bytes)) (k : Nat) : a.firstBytes i k = bytes.take k := by
  unfold firstBytes
  rw [h]

theorem HoldsValue.length_firstBytes (h : a.HoldsValue i size) {k : Nat} (hk : k ≤ size) :
    (a.firstBytes i k).length = k := by
  obtain ⟨bytes, hel⟩ := h.exists_element
  rw [firstBytes_of_element hel, List.length_take, length_of_element hel]
  exact Nat.min_eq_left (Nat.le_trans hk h.fits)

/-- A separate copy of the first bytes becomes the value. -/
theorem valueAfter_copy (hkind : attrType a.dbType = .string ∨ attrType a.dbType = .bstring)
    (h : a.HoldsValue i size) {k : Nat} (hk : k ≤ size) :
    a.valueAfter ⟨.outside, a.firstBytes i k⟩ i = .ok (some (a.firstBytes i k)) := by
  obtain ⟨hknown, hview⟩ := not_atomic_of_view hkind
  have hi := h.lt
  have hfits : k ≤ a.width := Nat.le_trans hk h.fits
  have hlength := h.length_firstBytes hk
  have htake := take_memcpy a.data[i] (Nat.le_trans (Nat.le_of_eq hlength) hfits)
  have hel := element_stored a hi (a.firstBytes i k) i
  rw [if_pos rfl, hlength, Nat.min_eq_right hfits,
    List.take_of_length_le (Nat.le_of_eq hlength)] at hel
  have hsize : (int32 k % 2 ^ 64).toNat = k := by
    have hlt := h.size_lt
    exact (toNat_int32_eq_iff (by omega)).mpr (by omega)
  have hvalue := (value_of_view_iff (by exact hview) hel (by exact hfits)).mpr hsize
  rw [hlength] at htake
  rw [htake] at hvalue
  unfold valueAfter
  rw [setValue_eq hknown (fun h => absurd h hview), atIndex_of_lt hi, if_pos (by simp)]
  exact hvalue

/-- A view of the element itself changes nothing. -/
theorem valueAfter_ownView (hkind : attrType a.dbType = .string ∨ attrType a.dbType = .bstring)
    (h : a.HoldsValue i size) (k : Nat) :
    a.valueAfter (a.ownView i k) i = .ok (some (a.firstBytes i size)) := by
  obtain ⟨hknown, hview⟩ := not_atomic_of_view hkind
  obtain ⟨bytes, hel⟩ := h.exists_element
  unfold valueAfter
  rw [setValue_eq hknown (fun h => absurd h hview), atIndex_of_lt h.lt,
    if_neg (by simp [ownView, hview])]
  change a.value i = _
  rw [firstBytes_of_element hel, value_of_view_iff hview hel h.fits]
  have hlt := h.size_lt
  omega

end AttrRoot

/-- Setting an element to the first `k` bytes of its own value works as with a separate
copy of them exactly when they are the whole value. -/
theorem setValue_ownView_iff {a : AttrRoot n} {i size k : Nat}
    (hkind : attrType a.dbType = .string ∨ attrType a.dbType = .bstring)
    (h : a.HoldsValue i size) (hk : k ≤ size) :
    (a.valueAfter (a.ownView i k) i = .ok (some (a.firstBytes i k)) ∧
        a.valueAfter (a.ownView i k) i = a.valueAfter ⟨.outside, a.firstBytes i k⟩ i) ↔
      k = size := by
  rw [AttrRoot.valueAfter_copy hkind h hk, AttrRoot.valueAfter_ownView hkind h, and_self]
  constructor
  · intro heq
    have hlength := congrArg List.length (Option.some.inj (Except.ok.inj heq))
    rw [h.length_firstBytes hk, h.length_firstBytes (Nat.le_refl size)] at hlength
    exact hlength.symm
  · rintro rfl
    rfl

/-- A `string` of three characters that holds one of two. -/
def shortValue : AttrRoot 1 := ElCall.run (.new 1 12 0 (3 : ObjectSize))
  ([.setValue ⟨⟨.outside, [97, 98]⟩, by decide⟩ 0] : List (ElCall 12 (3 : ObjectSize)))

theorem setValue_ownView_whole :
    shortValue.valueAfter (shortValue.ownView 0 2) 0 = .ok (some (shortValue.firstBytes 0 2)) ∧
      shortValue.valueAfter (shortValue.ownView 0 2) 0 =
        shortValue.valueAfter ⟨.outside, shortValue.firstBytes 0 2⟩ 0 :=
  (setValue_ownView_iff (.inl (by decide))
    ⟨Nat.zero_lt_one, by decide +kernel, by decide +kernel, by decide⟩ (Nat.le_refl 2)).mpr rfl

theorem setValue_ownView_first :
    shortValue.HoldsValue 0 2 ∧
      shortValue.valueAfter (shortValue.ownView 0 1) 0 ≠ .ok (some (shortValue.firstBytes 0 1)) := by
  have h : shortValue.HoldsValue 0 2 :=
    ⟨Nat.zero_lt_one, by decide +kernel, by decide +kernel, by decide⟩
  refine ⟨h, ?_⟩
  rw [AttrRoot.valueAfter_ownView (.inl (by decide)) h]
  intro heq
  have hbytes := Option.some.inj (Except.ok.inj heq)
  exact absurd hbytes (by decide +kernel)

end Law

end Dbgen3.Runtime
