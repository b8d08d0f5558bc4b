import Dbgen3.Generator.ClassReader
import Dbgen3.Generator.LineText
import Dbgen3.Runtime.FetchLoop

/-!
# From the description of a query to its rows

The database describes the columns of a query, the generator prints a class for
them, and a program that was compiled with the class fetches rows through it.
Rows that fit the columns as they were described arrive unchanged.
-/

namespace Dbgen3.Generator

open Act
open Dbgen3.Runtime (AttrDscr BufType Cell Cli DriverView Fetches Handle Row StmtId UtlId World
  attrType ctName cursor_start fetchLoop_cursor runOn_newGenerated selectAll)

/-- A value that fits a column: as many bytes as the column is wide, or as many as its C type
has. -/
def FitsColumn (cSizeof : Str → Nat) (el : FldDscr) (cell : Cell) : Prop :=
  ∀ bytes, cell = some bytes → bytes.length ≤ match attrType el.type.code with
    | .string | .bstring => el.width
    | _ => cSizeof ((ctName el.type.code).getD [])

/-- Such a value fits an element of the attribute. -/
theorem FitsColumn.le_width {cSizeof : Str → Nat} {el : FldDscr} {cell : Cell}
    (h : FitsColumn cSizeof el cell) :
    ∀ bytes, cell = some bytes → bytes.length ≤ (fieldAttr cSizeof el).width := by
  intro bytes hbytes
  have hle := h bytes hbytes
  unfold fieldAttr
  cases hkind : attrType el.type.code with
  | unknown =>
      simp only [hkind] at hle
      exact hle
  | atomic =>
      simp only [hkind] at hle
      exact hle
  | string =>
      simp only [hkind] at hle
      exact Nat.le_succ_of_le hle
  | bstring =>
      simp only [hkind] at hle
      exact Nat.le_trans hle (Nat.le_max_left el.width 1)

/-- Rows that fit the columns are rows of the buffer. -/
theorem exists_rows {cSizeof : Str → Nat} {flds : List FldDscr} {rows : List (List Cell)}
    (hrows : ∀ row ∈ rows, List.Forall₂ (FitsColumn cSizeof) flds row) :
    ∃ result : List (Row ((flds.map (fieldAttr cSizeof)).map AttrDscr.width)),
      result.map Row.cells = rows := by
  induction rows with
  | nil => exact ⟨[], rfl⟩
  | cons row rows ih =>
      obtain ⟨hrow, hrest⟩ := List.forall_mem_cons.mp hrows
      obtain ⟨result, rfl⟩ := ih hrest
      have hfits : List.Forall₂ (fun cell width => ∀ bytes, cell = some bytes →
          bytes.length ≤ width) row ((flds.map (fieldAttr cSizeof)).map AttrDscr.width) := by
        rw [List.map_map, List.forall₂_map_right_iff]
        exact hrow.flip.imp fun _ _ h => FitsColumn.le_width h
      exact ⟨⟨row, hfits⟩ :: result, rfl⟩

/-- Described fields with names, for which a class is printed, can be compiled. -/
theorem compilable_of_described {σ : Type} {cli : Cli σ} {names : List Str} {stmt : StmtId}
    {w w' : World σ} {q : GsqlQ} {bt : BufType} {offs : Nat} {text : Str}
    (hdescribed : runOn (fetchParamDscr cli names bt stmt) w = (.ok (q.bufDscr bt).flds, w'))
    (hprinted : genBufClass q bt offs = .ok text)
    (hident : ∀ el ∈ (q.bufDscr bt).flds, el.name ≠ [] ∧ Ident el.name)
    (hdec : ∀ el ∈ (q.bufDscr bt).flds, 0 ≤ el.dec) :
    (q.bufDscr bt).flds.length < 2 ^ 15 ∧ Compilable (q.bufDscr bt).flds := by
  have hok : (genBufClass q bt offs).isOk = true := by
    rw [hprinted]
    rfl
  obtain ⟨-, hstored⟩ := isOk_genBufClass.mp hok
  obtain ⟨hlength, e, events, -, hall⟩ := fetchParamDscr_ok cli hdescribed
  exact ⟨hlength, ⟨hstored, names_of_described cli (by omega) hall⟩, hident, hdec⟩

/-- The rows of the result set through a new query object. -/
theorem selectAll_rows {τ : Type} {cli : Cli τ} {v : DriverView τ} {attrs : List AttrDscr}
    {result : List (Row (attrs.map AttrDscr.width))} (hf : Fetches cli v (result.map Row.cells))
    (u : UtlId) (db : Handle) (sql : Str) (allowedCodes : List Int)
    (par : Option (Nat × List AttrDscr)) {n : Nat} (hn : 1 ≤ n) (hcols : attrs.length < 2 ^ 15)
    {fuel : Nat} (hfuel : result.length < fuel) (w : World τ) :
    ((selectAll cli u db sql allowedCodes par n attrs fuel).runOn w).1 =
      .ok (some (result.map Row.cells)) := by
  obtain ⟨w₀, hnew, hfresh⟩ := runOn_newGenerated hf u db sql allowedCodes par n attrs w
  obtain ⟨w₁, hexec, hcursor⟩ := cursor_start hf hn hcols hfresh []
  unfold selectAll
  rw [runOn_bind_ok hnew, runOn_bind_ok hexec]
  exact fetchLoop_cursor hf hn fuel hcursor hfuel

/-- A query with the two columns that are described. -/
def twoColumnQuery : GsqlQ where
  id := "q"
  res := { type := .res, id := "r", flds := twoFields }
  sqlSet := { dbType := .db2 }

/-- Two rows of a number and a text; the second has no text. -/
def twoRows : List (List Cell) :=
  [[some [1, 0, 0, 0], some [97, 98]], [some [2, 0, 0, 0], none]]

theorem fitsColumn_twoRows :
    ∀ row ∈ twoRows, List.Forall₂ (FitsColumn fun _ => 4) (twoColumnQuery.bufDscr .res).flds row := by
  have hnumber : ∀ b, FitsColumn (fun _ => 4) (.new 1 "id" .integer 0 0 .noNulls)
      (some [b, 0, 0, 0]) := by
    rintro b bytes ⟨rfl⟩
    exact Nat.le_refl 4
  have htext : FitsColumn (fun _ => 4) (.new 2 "name" .varchar 20 0 .nullable)
      (some [97, 98]) := by
    rintro bytes ⟨rfl⟩
    exact (by decide : 2 ≤ 20)
  refine List.forall_mem_cons.mpr ⟨.cons (hnumber 1) (.cons htext .nil), ?_⟩
  exact List.forall_mem_singleton.mpr (.cons (hnumber 2) (.cons nofun .nil))

end Dbgen3.Generator
