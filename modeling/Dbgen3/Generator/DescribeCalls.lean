import Dbgen3.Generator.Columns

/-!
# The calls that describe a buffer

The driver is asked for the number of fields and then for each field. A buffer is
described exactly when every answer is a success that the type tables know.
-/

namespace Dbgen3.Generator

open Act Text
open Dbgen3.Runtime (BufType Cli Handle World ctName runOn_cliCall sqlSuccess)

variable {σ : Type} (cli : Cli σ)

/-! ## Answers a description can use -/

/-- The type and the nullability are known, and the type has a C type name. -/
def Described (d : Runtime.ColumnDscr) : Prop :=
  ∃ type nulls, OdbcType.ofCode (int16 d.type) = some type ∧
    Dbn.ofCode (int16 d.nullable) = some nulls ∧ ctName type.code ≠ none

/-- The ordinal of a position, a 16-bit unsigned number. -/
def fieldOrdinal (ndx : Nat) : Int := ((ndx + 1) % 2 ^ 16 : Nat)

/-- The driver behind the calls that describe `n` fields from position `cnt` on. -/
def fieldsState (bt : BufType) (h : Handle) : Nat → Nat → σ → σ
  | 0, _, d => d
  | n + 1, cnt, d =>
      fieldsState bt h n (cnt + 1) (cli.call d (describeCall bt h (fieldOrdinal cnt))).2

/-- Each of these calls is answered with a description of a known type. -/
def FieldsAnswered (bt : BufType) (h : Handle) : Nat → Nat → σ → Prop
  | 0, _, _ => True
  | n + 1, cnt, d =>
      (cli.call d (describeCall bt h (fieldOrdinal cnt))).1.rc = sqlSuccess ∧
        Described (cli.call d (describeCall bt h (fieldOrdinal cnt))).1.dscr ∧
        FieldsAnswered bt h n (cnt + 1) (cli.call d (describeCall bt h (fieldOrdinal cnt))).2

/-- The number of fields the driver answers with. -/
def fieldCount (bt : BufType) (h : Handle) (d : σ) : Nat :=
  (int16 (cli.call d (countCall bt h)).1.count).toNat

/-- The driver behind the calls that describe a buffer. -/
def bufState (bt : BufType) (h : Handle) (d : σ) : σ :=
  fieldsState cli bt h (fieldCount cli bt h d) 0 (cli.call d (countCall bt h)).2

/-- These calls are answered. -/
def BufAnswered (bt : BufType) (h : Handle) (d : σ) : Prop :=
  (cli.call d (countCall bt h)).1.rc = sqlSuccess ∧
    FieldsAnswered cli bt h (fieldCount cli bt h d) 0 (cli.call d (countCall bt h)).2

instance (d : Runtime.ColumnDscr) : Decidable (Described d) :=
  decidable_of_iff ((OdbcType.ofCode (int16 d.type)).any (fun type => (ctName type.code).isSome) ∧
      (Dbn.ofCode (int16 d.nullable)).isSome) (by
    unfold Described
    cases OdbcType.ofCode (int16 d.type) <;> cases Dbn.ofCode (int16 d.nullable) <;>
      simp [Option.isSome_iff_ne_none])

instance FieldsAnswered.decidable (bt : BufType) (h : Handle) :
    (n cnt : Nat) → (d : σ) → Decidable (FieldsAnswered cli bt h n cnt d)
  | 0, _, _ => .isTrue trivial
  | n + 1, cnt, d =>
      have := FieldsAnswered.decidable bt h n (cnt + 1)
        (cli.call d (describeCall bt h (fieldOrdinal cnt))).2
      inferInstanceAs (Decidable (_ ∧ _ ∧ _))

instance (bt : BufType) (h : Handle) (d : σ) : Decidable (BufAnswered cli bt h d) :=
  inferInstanceAs (Decidable (_ ∧ _))

theorem described_iff {defName : Str} {bt : BufType} {ndx : Nat} {d : Runtime.ColumnDscr} :
    (∃ fld, describedField defName bt ndx d = .ok fld ∧ ctName fld.type.code ≠ none) ↔
      Described d := by
  constructor
  · rintro ⟨fld, hfld, hname⟩
    unfold describedField at hfld
    split at hfld
    · cases hfld
    · next type htype =>
      split at hfld
      · cases hfld
      · next nulls hnulls =>
        obtain rfl := Except.ok.inj hfld
        exact ⟨type, nulls, htype, hnulls, hname⟩
  · rintro ⟨type, nulls, htype, hnulls, hname⟩
    unfold describedField
    rw [htype, hnulls]
    exact ⟨_, rfl, hname⟩

theorem runOn_loadFldDscr (defName : Str) (bt : BufType) (h : Handle) (ndx : Nat) (w : World σ) :
    runOn (loadFldDscr cli defName bt h ndx) w =
      runOn (if (cli.call w.drv (describeCall bt h (fieldOrdinal ndx))).1.rc = sqlSuccess then
          fromResult (describedField defName bt ndx
            (cli.call w.drv (describeCall bt h (fieldOrdinal ndx))).1.dscr)
        else throwStmtError cli h) (w.issue cli (describeCall bt h (fieldOrdinal ndx))) :=
  runOn_bind_ok (runOn_cliCall cli w (describeCall bt h (fieldOrdinal ndx))) _

/-- The fields are described, and have a C type each, exactly when every call is answered. -/
theorem fetchFields_answered_iff (names : List Str) (bt : BufType) (h : Handle) (n cnt : Nat)
    (w : World σ) :
    (∃ flds w', runOn (fetchFields cli names bt h n cnt) w = (.ok flds, w') ∧
        (∀ fld ∈ flds, ctName fld.type.code ≠ none)) ↔
      FieldsAnswered cli bt h n cnt w.drv := by
  induction n generalizing cnt w with
  | zero => exact iff_of_true ⟨[], w, rfl, by simp⟩ trivial
  | succ n ih =>
      let c := describeCall bt h (fieldOrdinal cnt)
      have hrest := ih (cnt + 1) (w.issue cli c)
      constructor
      · rintro ⟨flds, w', hrun, hnames⟩
        obtain ⟨fld, w₁, hfld, hmore⟩ := runOn_bind_eq_ok hrun
        obtain ⟨rest, w₂, hflds, hpure⟩ := runOn_bind_eq_ok hmore
        obtain rfl := Except.ok.inj (Prod.mk.inj hpure).1
        obtain ⟨hname, hnames⟩ := List.forall_mem_cons.mp hnames
        rw [runOn_loadFldDscr] at hfld
        split at hfld
        · next hrc =>
          rw [runOn_fromResult] at hfld
          obtain ⟨hfield, rfl⟩ := Prod.mk.inj hfld
          exact ⟨hrc, described_iff.mp ⟨fld, hfield, hname⟩, hrest.mp ⟨rest, w₂, hflds, hnames⟩⟩
        · exact absurd (congrArg Prod.fst hfld) (throwStmtError_ne_ok cli h _ fld)
      · rintro ⟨hrc, hdscr, hanswered⟩
        obtain ⟨fld, hfld, hname⟩ := described_iff.mpr hdscr
        obtain ⟨flds, w', hflds, hnames⟩ := hrest.mpr hanswered
        refine ⟨fld :: flds, w', ?_, List.forall_mem_cons.mpr ⟨hname, hnames⟩⟩
        have hload : runOn (loadFldDscr cli (names.getD cnt []) bt h cnt) w =
            (.ok fld, w.issue cli c) := by
          rw [runOn_loadFldDscr, if_pos hrc, runOn_fromResult, hfld]
        rw [fetchFields, runOn_bind_ok hload, runOn_bind_ok hflds]
        rfl

theorem fetchFields_state {names : List Str} {bt : BufType} {h : Handle} {n cnt : Nat}
    {w w' : World σ} {flds : List FldDscr}
    (hrun : runOn (fetchFields cli names bt h n cnt) w = (.ok flds, w')) :
    w'.drv = fieldsState cli bt h n cnt w.drv ∧ w'.heap = w.heap := by
  induction n generalizing cnt w flds with
  | zero =>
      obtain ⟨-, rfl⟩ := Prod.mk.inj hrun
      exact ⟨rfl, rfl⟩
  | succ n ih =>
      obtain ⟨fld, w₁, hfld, hmore⟩ := runOn_bind_eq_ok hrun
      obtain ⟨rest, w₂, hflds, hpure⟩ := runOn_bind_eq_ok hmore
      obtain ⟨-, rfl⟩ := Prod.mk.inj hpure
      rw [runOn_loadFldDscr] at hfld
      split at hfld
      · rw [runOn_fromResult] at hfld
        obtain ⟨-, rfl⟩ := Prod.mk.inj hfld
        exact ih hflds
      · exact absurd (congrArg Prod.fst hfld) (throwStmtError_ne_ok cli h _ fld)

theorem runOn_fetchParamDscr (names : List Str) (bt : BufType) {h : Handle} {w : World σ}
    (hh : (w.heap.stmts stmtM).handle = h) :
    runOn (fetchParamDscr cli names bt stmtM) w =
      runOn (if (cli.call w.drv (countCall bt h)).1.rc = sqlSuccess then
          fetchFields cli names bt h (fieldCount cli bt h w.drv) 0
        else throwStmtError cli h) (w.issue cli (countCall bt h)) := by
  subst hh
  exact fetchParamDscr_eq cli names bt stmtM w

/-- A buffer is described exactly when every call for it is answered. -/
theorem describeBuf_answered_iff (b : GsqlQbufDscr) (w : World σ) :
    (∃ b' w', runOn (describeBuf cli b) w = (.ok b', w')) ↔
      BufAnswered cli b.type (w.heap.stmts stmtM).handle w.drv := by
  obtain ⟨h, hh⟩ : ∃ h, (w.heap.stmts stmtM).handle = h := ⟨_, rfl⟩
  have hfetch := runOn_fetchParamDscr cli b.names b.type hh
  rw [hh]
  have hfields := fetchFields_answered_iff cli b.names b.type h (fieldCount cli b.type h w.drv) 0
    (w.issue cli (countCall b.type h))
  constructor
  · rintro ⟨b', w', hrun⟩
    obtain ⟨flds, w₁, hflds, hset⟩ := runOn_bind_eq_ok hrun
    rw [runOn_fromResult] at hset
    obtain ⟨n, hn, -⟩ := except_bind_eq_ok (Prod.mk.inj hset).1
    rw [hflds] at hfetch
    by_cases hrc : (cli.call w.drv (countCall b.type h)).1.rc = sqlSuccess
    · rw [if_pos hrc] at hfetch
      exact ⟨hrc, hfields.mp ⟨flds, w₁, hfetch.symm, GsqlQbufDscr.maxCtypeFrom_ok_iff.mp ⟨n, hn⟩⟩⟩
    · rw [if_neg hrc] at hfetch
      exact absurd (congrArg Prod.fst hfetch.symm) (throwStmtError_ne_ok cli h _ flds)
  · rintro ⟨hrc, hanswered⟩
    obtain ⟨flds, w', hflds, hnames⟩ := hfields.mpr hanswered
    obtain ⟨n, hn⟩ := (@GsqlQbufDscr.maxCtypeFrom_ok_iff 0 flds).mpr hnames
    rw [if_pos hrc] at hfetch
    refine ⟨{ b with flds, maxCtypeLen := n, maxNameLen := GsqlQbufDscr.calcMaxNameLength flds },
      w', ?_⟩
    rw [describeBuf, runOn_bind_ok (hfetch.trans hflds), runOn_fromResult, GsqlQbufDscr.setFlds,
      GsqlQbufDscr.calcMaxCtypeLength, hn]
    rfl

theorem describeBuf_state {b b' : GsqlQbufDscr} {w w' : World σ}
    (hrun : runOn (describeBuf cli b) w = (.ok b', w')) :
    w'.drv = bufState cli b.type (w.heap.stmts stmtM).handle w.drv ∧ w'.heap = w.heap := by
  obtain ⟨flds, w₁, hflds, hset⟩ := runOn_bind_eq_ok hrun
  rw [runOn_fromResult] at hset
  obtain ⟨-, rfl⟩ := Prod.mk.inj hset
  have hfetch := runOn_fetchParamDscr cli b.names b.type (w := w) rfl
  rw [hflds] at hfetch
  split at hfetch
  · exact fetchFields_state cli hfetch.symm
  · exact absurd (congrArg Prod.fst hfetch.symm) (throwStmtError_ne_ok cli _ _ flds)

end Dbgen3.Generator
