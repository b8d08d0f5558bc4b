import Dbgen3.Generator.CoreParser
import Dbgen3.Runtime.Raises

/-!
# What the description of a query can raise

Describing a query on the database raises what the runtime raises, and a few
exceptions of its own for answers it does not understand.
-/

namespace Dbgen3.Generator

open Act Text
open Dbgen3.Runtime (Cli World Handle StmtId CoversRuntime raises_pure raises_getHeap_bind
  raises_get_bind raises_cliCall_bind raises_load_bind wrapDiagRec DiagReply DiagRec)

variable {σ : Type} {cli : Cli σ}

/-- An exception of the description of a query. -/
inductive FromDatabase : Exc → Prop
  | errorException (what : Str) : FromDatabase (.errorException what)
  | diagnostics {h : Handle} {errors : List DiagRec} {reply : DiagReply} {e : Exc}
      (he : wrapDiagRec h errors reply = .error e) : FromDatabase e
  | unsupported (code : Int) :
      FromDatabase (.runtimeError ("Unsupported column type " ++ intDecimal code))
  | stdExc (kind : StdExc) : FromDatabase (.stdExc kind)
  | terminated : FromDatabase .terminated

theorem coversRuntime : CoversRuntime FromDatabase where
  errorException := .errorException
  diagnostics := .diagnostics

theorem fromDatabase_describedField {defName : Str} {bt : Runtime.BufType} {ndx : Nat}
    {d : Runtime.ColumnDscr} {e : Exc} (he : describedField defName bt ndx d = .error e) :
    FromDatabase e := by
  unfold describedField at he
  split at he
  · obtain rfl := Except.error.inj he
    exact .unsupported _
  · split at he
    · obtain rfl := Except.error.inj he
      exact .stdExc _
    · cases he

theorem raises_throwStmtError {α : Type} (h : Handle) :
    Raises FromDatabase (throwStmtError cli h : Act (World σ) Exc α) := by
  apply raises_get_bind
  intro w
  exact raises_load_bind coversRuntime fun errors => raises_throw (.errorException _)

theorem raises_fetchFields (names : List Str) (bt : Runtime.BufType) (h : Handle) (n cnt : Nat) :
    Raises FromDatabase (fetchFields cli names bt h n cnt) := by
  induction n generalizing cnt with
  | zero => exact raises_pure _
  | succ n ih =>
      have hfld : Raises FromDatabase (loadFldDscr cli (names.getD cnt []) bt h cnt) := by
        apply raises_cliCall_bind
        intro reply
        apply Raises.ite
        · exact raises_fromResult fun _ he => fromDatabase_describedField he
        · exact raises_throwStmtError h
      exact hfld.bind fun fld => (ih (cnt + 1)).bind fun flds => raises_pure _

theorem raises_fetchParamDscr (names : List Str) (bt : Runtime.BufType) (stmt : StmtId) :
    Raises FromDatabase (fetchParamDscr cli names bt stmt) := by
  apply raises_getHeap_bind
  intro hp
  apply raises_cliCall_bind
  intro reply
  apply Raises.ite
  · exact raises_fetchFields names bt _ _ 0
  · exact raises_throwStmtError _

theorem fromDatabase_maxCtypeFrom {len : Nat} {vec : List FldDscr} {e : Exc}
    (he : GsqlQbufDscr.maxCtypeFrom len vec = .error e) : FromDatabase e := by
  induction vec generalizing len with
  | nil => cases he
  | cons fld vec ih =>
      rw [GsqlQbufDscr.maxCtypeFrom] at he
      split at he
      · obtain rfl := Except.error.inj he
        exact .stdExc _
      · exact ih he

theorem raises_describeBuf (b : GsqlQbufDscr) : Raises FromDatabase (describeBuf cli b) := by
  refine (raises_fetchParamDscr b.names b.type stmtM).bind fun flds => ?_
  apply raises_fromResult
  intro e he
  unfold GsqlQbufDscr.setFlds GsqlQbufDscr.calcMaxCtypeLength at he
  cases hm : GsqlQbufDscr.maxCtypeFrom 0 flds with
  | error e' =>
      rw [hm] at he
      obtain rfl := Except.error.inj he
      exact fromDatabase_maxCtypeFrom hm
  | ok n =>
      rw [hm] at he
      cases he

/-- Describing a query on the database raises exceptions of the description only. -/
theorem raises_loadQSqlsetFromDb (r : GsqlQ) (db : Handle) :
    Raises FromDatabase (loadQSqlsetFromDb cli r db) := by
  have hprep : Raises FromDatabase (executePrep cli r.sqlPrep) :=
    Raises.ite (Runtime.Statement.raises_execDirect coversRuntime _ _ _) (raises_pure _)
  have hbody : Raises FromDatabase (describeQuery cli r db) := by
    refine hprep.bind fun _ => ?_
    refine (Runtime.Statement.raises_prepare coversRuntime stmtM r.sql).bind fun _ => ?_
    refine (raises_describeBuf r.par).bind fun par => ?_
    refine (raises_describeBuf r.res).bind fun res => ?_
    refine (Runtime.Statement.raises_rollback db).bind fun _ => ?_
    exact (Runtime.Statement.raises_rollback db).bind fun _ => raises_pure _
  apply Raises.ite
  · apply Runtime.Statement.raises_withLocal coversRuntime .terminated
    exact Runtime.Statement.raises_withLocal coversRuntime .terminated hbody
  · exact raises_pure r

end Dbgen3.Generator
