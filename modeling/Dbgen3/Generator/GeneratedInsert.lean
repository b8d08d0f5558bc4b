import Dbgen3.Generator.GeneratedSelect
import Dbgen3.Runtime.Inserting

/-!
# From the description of a query to its batches

The database describes the parameters of a query, the generator prints a class for
them, and a program that was compiled with the class inserts batches of rows. The
driver gets the rows that the parameters have room for, unless a single row
follows a larger batch.
-/

namespace Dbgen3.Generator

open Act
open Dbgen3.Runtime (AttrDscr Buffer Cell Cli DriverView FitsBuffer FitsField Handle Insertable
  Inserts NoneSingleAfter StmtId UtlId World attrType complete ctName insertAll insertAll_sends_iff
  newEvents newHandle sentIn typesOf)

/-- A value that is given for a parameter: at most as many bytes as the parameter is wide, or
as many as its C type has. -/
def FitsParam (cSizeof : Str → Nat) (el : FldDscr) (cell : Cell) : Prop :=
  ∀ bytes, cell = some bytes → match attrType el.type.code with
    | .string | .bstring => bytes.length ≤ el.width
    | _ => bytes.length = cSizeof ((ctName el.type.code).getD [])

/-- Such a value is taken by the attribute. -/
theorem FitsParam.fitsField {cSizeof : Str → Nat} {el : FldDscr} {cell : Cell}
    (h : FitsParam cSizeof el cell) : FitsField (fieldAttr cSizeof el) cell := by
  have htype : (fieldAttr cSizeof el).dbType = el.type.code := rfl
  refine ⟨fun bytes hbytes hatomic => ?_, fun bytes hbytes => ?_⟩
  · rw [htype] at hatomic
    have hlength := h bytes hbytes
    unfold fieldAttr
    simp only [hatomic] at hlength ⊢
    exact hlength
  · have hle := h bytes hbytes
    unfold fieldAttr
    cases hkind : attrType el.type.code with
    | unknown =>
        simp only [hkind] at hle
        exact Nat.le_of_eq hle
    | atomic =>
        simp only [hkind] at hle
        exact Nat.le_of_eq hle
    | string =>
        simp only [hkind] at hle
        exact Nat.le_succ_of_le hle
    | bstring =>
        simp only [hkind] at hle
        exact Nat.le_trans hle (Nat.le_max_left el.width 1)

/-- A batch for the parameters: it has a row, and its rows have a value for every parameter. -/
structure FitsParams (cSizeof : Str → Nat) (n : Nat) (flds : List FldDscr)
    (rows : List (List Cell)) : Prop where
  ne_nil : rows ≠ []
  length_le : rows.length ≤ n
  params : ∀ row ∈ rows, List.Forall₂ (FitsParam cSizeof) flds row

theorem FitsParams.fitsBuffer {cSizeof : Str → Nat} {n : Nat} {flds : List FldDscr}
    {rows : List (List Cell)} (h : FitsParams cSizeof n flds rows) :
    FitsBuffer n (flds.map (fieldAttr cSizeof)) rows where
  ne_nil := h.ne_nil
  length_le := h.length_le
  fields row hrow := by
    rw [List.forall₂_map_left_iff]
    exact (h.params row hrow).imp fun _ _ hfits => hfits.fitsField

/-- The attributes of a class that is printed can be set and bound. -/
theorem insertable_fieldAttr {cSizeof : Str → Nat} {n : Nat} {flds : List FldDscr}
    (hstored : ∀ el ∈ flds, attrType el.type.code ≠ .unknown) (hlength : flds.length < 2 ^ 15)
    (hwidth : ∀ el ∈ flds, (fieldAttr cSizeof el).width < 2 ^ 31) (hn : 1 ≤ n) (hsize : n < 2 ^ 32) :
    Insertable n (flds.map (fieldAttr cSizeof)) where
  storable := by
    intro t ht
    rw [typesOf, List.map_map] at ht
    obtain ⟨el, hel, rfl⟩ := List.mem_map.mp ht
    exact ⟨hstored el hel, hwidth el hel⟩
  cols := by rwa [List.length_map]
  rows := hn
  size := hsize

/-- A driver that describes two parameters: an integer and a text of width 20. -/
def twoParams : Cli Unit where
  call _ c := (match c with
    | .numParams _ => { rc := 0, count := 2 }
    | .describeParam _ 1 => { rc := 0, dscr := { type := 4, nullable := 0 } }
    | .describeParam _ _ => { rc := 0, dscr := { type := 12, width := 20, nullable := 1 } }
    | _ => { rc := 0, handle := 1 }, ())
  diag _ _ _ := []

/-- A query with the two parameters that are described. -/
def twoParamQuery : GsqlQ where
  id := "q"
  par :=
    { type := .par, id := "p"
      flds := [.new 1 "par_1" .integer 0 0 .noNulls, .new 2 "par_2" .varchar 20 0 .nullable] }
  sqlSet := { dbType := .db2 }

theorem fitsParams_twoRows {k : Nat} (hk : 1 ≤ k) :
    FitsParams (fun _ => 4) 2 (twoParamQuery.bufDscr .par).flds (twoRows.take k) where
  ne_nil h := by
    have hnil := (List.take_eq_nil_iff.mp h).resolve_left (by omega)
    cases hnil
  length_le := List.length_take_le' k twoRows
  params row hrow := by
    have hnumber : ∀ b, FitsParam (fun _ => 4) (.new 1 "par_1" .integer 0 0 .noNulls)
        (some [b, 0, 0, 0]) := by
      rintro b bytes ⟨rfl⟩
      rfl
    have htext : FitsParam (fun _ => 4) (.new 2 "par_2" .varchar 20 0 .nullable)
        (some [97, 98]) := by
      rintro bytes ⟨rfl⟩
      exact (by decide : 2 ≤ 20)
    rcases List.mem_cons.mp (List.mem_of_mem_take hrow) with rfl | hrow
    · exact .cons (hnumber 1) (.cons htext .nil)
    · obtain rfl := List.mem_singleton.mp hrow
      exact .cons (hnumber 2) (.cons nofun .nil)

end Dbgen3.Generator
