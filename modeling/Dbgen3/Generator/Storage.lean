import Dbgen3.Generator.Declarations
import Dbgen3.Runtime.Elements
import Dbgen3.Runtime.Utl

/-!
# Storage of the generated columns

The size of an element comes from the array type that the generator prints. For
`char` the array has one element more than the column is wide, so that a value
may be one byte too long; for `uint8_t` it has none, and `ColumnSize`, which
leaves room for a terminator, is one too small.
-/

namespace Dbgen3.Generator

open Text
open Dbgen3.Runtime (Arg AttrRoot BufType CliCall DataAddr ElCall Handle Written attrType
  ctName names_of_attrType not_atomic_of_view)

/-! ## The size of an element -/

/-- The constants of `define_attributes_const`, by name. -/
def lenConstants (flds : List FldDscr) (name : Str) : Option Nat :=
  (flds.zipIdx.find? fun el => lenName el.2 = name).map fun el => el.1.width

/-- `sizeof` of an element: of an array of as many bytes as a constant says, or one more, or of
a C type. An array has at least one byte. `uint` is `std::size_t` in a generated header, so that
one more than a width of 32 bits is no overflow. -/
def elementSize (cSizeof : Str → Nat) (constants : Str → Option Nat) (type : Str) : Option Nat :=
  match constantsIn type with
  | [] => some (cSizeof type)
  | len :: _ => (constants len).map fun n =>
      max (if " + 1>".toList.isSuffixOf type then n + 1 else n) 1

theorem lenConstants_lenName {flds : List FldDscr} {k : Nat} {el : FldDscr}
    (hk : flds[k]? = some el) : lenConstants flds (lenName k) = some el.width := by
  have hmem : (el, k) ∈ flds.zipIdx := List.mem_zipIdx_iff_getElem?.mpr hk
  cases hfind : flds.zipIdx.find? fun el => lenName el.2 = lenName k with
  | none =>
      have hnone := List.find?_eq_none.mp hfind (el, k) hmem
      simp at hnone
  | some found =>
      have hname : lenName found.2 = lenName k := by simpa using List.find?_some hfind
      have hsome : flds[found.2]? = some found.1 :=
        List.mem_zipIdx_iff_getElem?.mp (List.mem_of_find?_eq_some hfind)
      rw [lenName_injective hname, hk] at hsome
      obtain rfl := Option.some.inj hsome
      unfold lenConstants
      rw [hfind]
      rfl

/-- A blank is in no name, so the array of bytes has no `+ 1`. -/
theorem not_isSuffixOf_bytes (head : Str) (k : Nat) :
    " + 1>".toList.isSuffixOf (head ++ lenName k ++ ">") = false := by
  rw [Bool.eq_false_iff]
  intro h
  have hsuffix : " + 1".toList ++ ['>'] <:+ head ++ lenName k ++ ['>'] :=
    List.isSuffixOf_iff_suffix.mp h
  have hname : " + 1".toList <:+ lenName k := by
    refine List.suffix_of_suffix_length_le ((List.suffix_append_inj_of_length_eq rfl).mp hsuffix).1
      (List.suffix_append head _) ?_
    simp [lenName]
  exact absurd (ident_lenName k ' ' (hname.subset (by decide))) (by decide)

/-- The size of an element of a column, where the constant that its type uses is the width. -/
theorem elementSize_eq {k : Nat} {el : FldDscr} (hel : attrType el.type.code ≠ .unknown)
    {type : Str} (htype : storedType k el = type ++ ";") (cSizeof : Str → Nat)
    {constants : Str → Option Nat}
    (hconstants : ∀ name ∈ usedByType k el, constants name = some el.width) :
    elementSize cSizeof constants type =
      some (match attrType el.type.code with
        | .string => el.width + 1
        | .bstring => max el.width 1
        | _ => cSizeof ((ctName el.type.code).getD [])) := by
  obtain ⟨name, -, hname, -⟩ := names_of_attrType hel
  obtain ⟨value, -, hvalue, hused⟩ := declaration_typeLine hel k 0
  have hcut : ∀ {t : Str}, storedType k el = t ++ ";" → t = type := fun h =>
    List.append_cancel_right (h.symm.trans htype)
  obtain rfl := hcut hvalue
  unfold elementSize
  rw [hused]
  unfold storedType at hcut
  unfold usedByType at hconstants ⊢
  rw [hname, Option.getD_some] at hcut ⊢
  cases h : attrType el.type.code with
  | unknown => exact absurd h hel
  | atomic =>
      simp only [h] at hcut
      obtain rfl := hcut rfl
      rfl
  | string =>
      simp only [h] at hcut hconstants
      obtain rfl : "std::array<char, " ++ lenName k ++ " + 1>" = value := hcut (by simp)
      have hsuffix : " + 1>".toList.isSuffixOf ("std::array<char, " ++ lenName k ++ " + 1>") =
          true := List.isSuffixOf_iff_suffix.mpr (List.suffix_append _ _)
      simp only [hconstants (lenName k) (List.mem_singleton_self _), Option.map_some, hsuffix,
        if_true]
      exact congrArg some (Nat.max_eq_left (Nat.le_add_left 1 el.width))
  | bstring =>
      simp only [h] at hcut hconstants
      obtain rfl : "std::array<uint8_t, " ++ lenName k ++ ">" = value := hcut (by simp)
      simp only [hconstants (lenName k) (List.mem_singleton_self _), Option.map_some,
        not_isSuffixOf_bytes, if_neg Bool.false_ne_true]

/-- The size of an element of a character or binary column. -/
theorem elementSize_column {flds : List FldDscr} {k : Nat} {el : FldDscr}
    (hk : flds[k]? = some el)
    (hkind : attrType el.type.code = .string ∨ attrType el.type.code = .bstring) {type : Str}
    (htype : aliasedType k el = .ok (type ++ ";")) (cSizeof : Str → Nat) :
    ∃ size, elementSize cSizeof (lenConstants flds) type = some size ∧
      (attrType el.type.code = .string → size = el.width + 1) ∧
      (attrType el.type.code = .bstring → size = max el.width 1) := by
  obtain ⟨hknown, -⟩ := not_atomic_of_view hkind
  rw [aliasedType_eq hknown] at htype
  have hconstants : ∀ name ∈ usedByType k el, lenConstants flds name = some el.width := by
    intro name hname
    obtain rfl : name = lenName k := by
      unfold usedByType at hname
      rcases hkind with h | h
      · simpa [h] using hname
      · simpa [h] using hname
    exact lenConstants_lenName hk
  refine ⟨_, elementSize_eq hknown (Except.ok.inj htype) cSizeof hconstants, ?_, ?_⟩
  · intro h
    rw [h]
  · intro h
    rw [h]

/-! ## Set and bound -/

/-- The attribute of a column in a buffer of `n` rows, with elements of `size` bytes. -/
def columnAttr (el : FldDscr) (size n : Nat) : AttrRoot n :=
  .new n el.type.code (if attrType el.type.code = .string then el.dec else 0) size

/-- The `ColumnSize` of `SQLBindParameter`. -/
def columnSize : CliCall → Option Int
  | .bindParameter _ _ _ _ size .. => some size
  | _ => none

/-- The `BufferLength` of `SQLBindParameter`. -/
def bufferLength : CliCall → Option Int
  | .bindParameter _ _ _ _ _ _ _ len => some len
  | _ => none

/-- A column of the width, stored and bound: no length in `a` is above the width or above the
`ColumnSize` of the call, and the call passes the width and the size of an element. -/
structure BindsWidth {n : Nat} (width : Nat) (a : AttrRoot n) (c : CliCall) : Prop where
  stored_le : ∀ i (h : i < n), a.len[i] ≤ width
  stored_le_columnSize : ∀ i (h : i < n) size, columnSize c = some size → a.len[i] ≤ size
  columnSize_eq : columnSize c = some (width : Int)
  bufferLength_eq : bufferLength c = some (a.width : Int)

/-- The last value set on each element has at most `size` bytes. -/
def LastSetsFit {dbType : Int} {width : Nat} (n size : Nat) (calls : List (ElCall dbType width)) :
    Prop :=
  ∀ i, i < n → ∀ v, ElCall.lastSet i (calls.filter ElCall.assigns) = some v →
    v.bytes.length ≤ size

theorem bindsWidth_bindCall_iff {n : Nat} (a : AttrRoot n) (width : Nat) (h : Handle) (ndx : Int)
    (data : DataAddr) :
    BindsWidth width a (a.bindCall .par h ndx data) ↔
      a.width_ = a.width ∧ a.width = width + 1 ∧ ∀ i (h : i < n), a.len[i] ≤ width := by
  constructor
  · intro hb
    have hsize : a.width_ - 1 = width := Option.some.inj hb.columnSize_eq
    have hbuf : a.width_ = a.width := Option.some.inj hb.bufferLength_eq
    exact ⟨hbuf, by omega, hb.stored_le⟩
  · rintro ⟨hbuf, hwidth, hlen⟩
    have hsize : a.width_ - 1 = width := by omega
    refine ⟨hlen, ?_, congrArg some hsize, congrArg some hbuf⟩
    intro i hi size hs
    obtain rfl : a.width_ - 1 = size := Option.some.inj hs
    rw [hsize]
    exact hlen i hi

/-- In an element of one byte more than the column is wide, the lengths are within the width
when the values are. -/
theorem len_le_iff {dbType : Int} {width size n : Nat} (hsize : size = width + 1)
    (hlt : size < 2 ^ 31) (hkind : attrType dbType ≠ .unknown) (dec : Int)
    (calls : List (ElCall dbType size)) :
    (∀ i (h : i < n), (ElCall.run (.new n dbType dec size) calls).len[i] ≤ (width : Int)) ↔
      LastSetsFit n width calls := by
  have hel : ∀ i (h : i < n),
      ((ElCall.run (.new n dbType dec size) calls).len[i] ≤ (width : Int) ↔
        ∀ v, ElCall.lastSet i (calls.filter ElCall.assigns) = some v →
          v.bytes.length ≤ width) := by
    intro i hi
    have hw := ElCall.written_run_new hkind dec hi calls
    cases hlast : ElCall.lastSet i (calls.filter ElCall.assigns) with
    | none =>
        rw [hlast] at hw
        obtain ⟨bytes, h⟩ := hw
        obtain ⟨_, hlen, _⟩ := AttrRoot.exists_of_element h
        rw [hlen]
        refine iff_of_true ?_ ?_
        · unfold Runtime.sqlNullData
          omega
        · intro v hv
          cases hv
    | some v =>
        rw [hlast] at hw
        obtain ⟨bytes, h, -⟩ := hw
        obtain ⟨_, hlen, _⟩ := AttrRoot.exists_of_element h
        have hself : int32 v.size = v.size :=
          (int32_natCast_eq_self_iff v.size).mpr (Nat.lt_of_le_of_lt v.size_le hlt)
        have hmin : v.size = min size v.bytes.length := rfl
        rw [hlen, hself]
        constructor
        · intro hle v' hv'
          obtain rfl := Option.some.inj hv'
          omega
        · intro hall
          have hle := hall v rfl
          omega
  constructor
  · intro h i hi
    exact (hel i hi).mp (h i hi)
  · intro h i hi
    exact (hel i hi).mpr (h i hi)

/-- A character column is bound as wide as it is, and stores no more than its width, exactly
when the width is below the greatest 32-bit number by two and every value set is within it;
a binary column only when its width is zero. -/
theorem column_bindsWidth_iff {flds : List FldDscr} {k : Nat} {el : FldDscr}
    (hk : flds[k]? = some el)
    (hkind : attrType el.type.code = .string ∨ attrType el.type.code = .bstring) {type : Str}
    (htype : aliasedType k el = .ok (type ++ ";")) (cSizeof : Str → Nat) :
    ∃ size, elementSize cSizeof (lenConstants flds) type = some size ∧
      ∀ (n : Nat) (calls : List (ElCall el.type.code size)) (h : Handle) (ndx : Int)
        (data : DataAddr),
        BindsWidth el.width (ElCall.run (columnAttr el size n) calls)
            ((ElCall.run (columnAttr el size n) calls).bindCall .par h ndx data) ↔
          (attrType el.type.code = .string ∧ el.width ≤ 2 ^ 31 - 2 ∨
            attrType el.type.code = .bstring ∧ el.width = 0) ∧ LastSetsFit n el.width calls := by
  obtain ⟨hknown, -⟩ := not_atomic_of_view hkind
  obtain ⟨size, hsize, hstring, hbstring⟩ := elementSize_column hk hkind htype cSizeof
  refine ⟨size, hsize, fun n calls h ndx data => ?_⟩
  have hnew : (columnAttr el size n).Of el.type.code size := ⟨rfl, rfl⟩
  have hof := ElCall.of_run hknown calls hnew
  have hfits : size < 2 ^ 31 ∧ size = el.width + 1 ↔
      (attrType el.type.code = .string ∧ el.width ≤ 2 ^ 31 - 2 ∨
        attrType el.type.code = .bstring ∧ el.width = 0) := by
    rcases hkind with hs | hb
    · rw [hstring hs, hs]
      simp only [true_and, and_true, reduceCtorEq, false_and, or_false]
      omega
    · rw [hbstring hb, hb]
      simp only [true_and, reduceCtorEq, false_and, false_or]
      omega
  rw [bindsWidth_bindCall_iff, hof.width_eq, AttrRoot.width_, hof.width_eq,
    int32_natCast_eq_self_iff, ← and_assoc, hfits]
  refine and_congr_right fun hw => ?_
  obtain ⟨hlt, hsize⟩ := hfits.mpr hw
  exact len_le_iff hsize hlt hknown _ calls

/-- A column of three characters. -/
def nameColumn : FldDscr := .new 1 "name" .varchar 3 0 .noNulls

/-- Its storage type. -/
def nameType : Str := "std::array<char, len_00 + 1>"

/-- A value set in the first row. -/
def setName (bytes : List UInt8) : List (ElCall nameColumn.type.code 4) :=
  [.setValue ⟨⟨.outside, bytes⟩, fun h => absurd h (by decide +kernel)⟩ 0]

theorem column_bindsWidth_within :
    elementSize (fun _ => 1) (lenConstants [nameColumn]) nameType = some 4 ∧
      BindsWidth 3 (ElCall.run (columnAttr nameColumn 4 1) (setName [97, 98, 99]))
        ((ElCall.run (columnAttr nameColumn 4 1) (setName [97, 98, 99])).bindCall
          .par 1 1 ⟨0, 0⟩) := by
  have hkind : attrType nameColumn.type.code = .string := by decide +kernel
  have hk : [nameColumn][0]? = some nameColumn := rfl
  have htype : aliasedType 0 nameColumn = .ok (nameType ++ ";") := by decide +kernel
  obtain ⟨size, hsize, hiff⟩ := column_bindsWidth_iff hk (.inl hkind) htype fun _ => 1
  obtain rfl : size = 4 := by
    have hfour : elementSize (fun _ => 1) (lenConstants [nameColumn]) nameType = some 4 := by
      decide +kernel
    exact Option.some.inj (hsize.symm.trans hfour)
  refine ⟨hsize, (hiff 1 (setName [97, 98, 99]) 1 1 ⟨0, 0⟩).mpr ⟨.inl ⟨hkind, by decide⟩, ?_⟩⟩
  intro i hi v hv
  obtain rfl : i = 0 := by omega
  have hlength : (ElCall.lastSet 0 ((setName [97, 98, 99]).filter ElCall.assigns)).map
      (fun v => v.bytes.length) = some 3 := by decide +kernel
  rw [hv] at hlength
  exact Nat.le_of_eq (Option.some.inj hlength)

theorem column_not_bindsWidth_long :
    elementSize (fun _ => 1) (lenConstants [nameColumn]) nameType = some 4 ∧
      ¬ BindsWidth 3 (ElCall.run (columnAttr nameColumn 4 1) (setName [97, 98, 99, 100]))
        ((ElCall.run (columnAttr nameColumn 4 1) (setName [97, 98, 99, 100])).bindCall
          .par 1 1 ⟨0, 0⟩) := by
  refine ⟨by decide +kernel, fun h => ?_⟩
  exact absurd (h.stored_le 0 Nat.zero_lt_one) (by decide +kernel)

end Dbgen3.Generator
