import Dbgen3.Generator.DescribeCalls
import Dbgen3.Runtime.Raises

/-!
# Describing a query on a driver that answers

Where every call succeeds and every description is one that the type tables
know, describing a query raises nothing.
-/

namespace Dbgen3.Generator

open Act Text
open Dbgen3.Runtime (BufType Cli CliCall Handle HandleType Reply Ret StmtId World
  cliCall cliCallWriting raises_getHeap_bind raises_get_bind raises_modifyHeap raises_pure
  sqlSuccess throwOnError)

/-- A driver that answers every call with success and describes columns of known types. -/
structure Answers {σ : Type} (cli : Cli σ) : Prop where
  succeeds : ∀ d c, (cli.call d c).1.rc = sqlSuccess
  describes : ∀ d c, Described (cli.call d c).1.dscr

variable {σ α : Type} {cli : Cli σ} {P : Exc → Prop}

/-! ## Calls -/

theorem Answers.raises_cliCall_bind (hcli : Answers cli) {c : CliCall}
    {f : Reply → Act (World σ) Exc α}
    (hf : ∀ r, r.rc = sqlSuccess → Described r.dscr → Raises P (f r)) :
    Raises P (cliCall cli c >>= f) := by
  have hy : Yields (fun r => r.rc = sqlSuccess ∧ Described r.dscr) (cliCall cli c) := by
    intro w r w' h
    obtain rfl := Except.ok.inj (Prod.mk.inj h).1
    exact ⟨hcli.succeeds _ _, hcli.describes _ _⟩
  exact (raises_of_ok fun w => ⟨(cli.call w.drv c).1, rfl⟩).bind_yields hy fun r hr => hf r hr.1 hr.2

theorem Answers.raises_cliCallWriting_bind (hcli : Answers cli) {c : CliCall}
    {f : Reply → Act (World σ) Exc α} (hf : ∀ r, r.rc = sqlSuccess → Raises P (f r)) :
    Raises P (cliCallWriting cli c >>= f) := by
  have hy : Yields (fun r => r.rc = sqlSuccess) (cliCallWriting cli c) := by
    intro w r w' h
    obtain rfl := Except.ok.inj (Prod.mk.inj h).1
    exact hcli.succeeds _ _
  exact (raises_of_ok fun w => ⟨(cli.call w.drv c).1, rfl⟩).bind_yields hy hf

theorem raises_throwOnError_success {rc : Ret} (hrc : rc = sqlSuccess) (h : Handle)
    (type : HandleType) (msg : Str) : Raises P (throwOnError cli rc h type msg) := by
  apply raises_get_bind
  intro w
  rw [if_neg (not_not_intro hrc)]
  exact raises_pure _

/-! ## Statements -/

namespace Answers

variable (hcli : Answers cli)
include hcli

theorem raises_new (s : StmtId) (db : Handle) (sql : Str) :
    Raises P (Runtime.Statement.new cli s db sql) := by
  have halloc : Raises P (Runtime.allocStmtHandle cli db) := by
    refine hcli.raises_cliCall_bind fun reply hrc _ => ?_
    exact (raises_throwOnError_success hrc _ _ _).bind fun _ => raises_pure _
  exact halloc.bind fun _ => raises_modifyHeap _

omit hcli in
theorem raises_chk (s : StmtId) {rc : Ret} (hrc : rc = sqlSuccess) (shouldThrow : Bool) :
    Raises P (Runtime.Statement.chk cli s rc shouldThrow) := by
  apply raises_get_bind
  intro w
  rw [if_neg (not_not_intro hrc)]
  exact raises_pure _

theorem raises_execDirect (s : StmtId) (sql : Str) (shouldThrow : Bool) :
    Raises P (Runtime.Statement.execDirect cli s sql shouldThrow) := by
  have hgiven : Raises P (Runtime.Statement.execGiven cli s shouldThrow) := by
    apply raises_getHeap_bind
    intro hp
    refine hcli.raises_cliCallWriting_bind fun reply hrc => ?_
    exact raises_chk s hrc shouldThrow
  rw [Runtime.Statement.execDirect_eq]
  exact Raises.ite ((raises_modifyHeap _).bind fun _ => hgiven) hgiven

theorem raises_prepare (s : StmtId) (sql : Str) :
    Raises P (Runtime.Statement.prepare cli s sql) := by
  have hgiven : Raises P (Runtime.Statement.prepareGiven cli s) := by
    apply raises_getHeap_bind
    intro hp
    apply Raises.ite
    · refine hcli.raises_cliCall_bind fun reply hrc _ => ?_
      refine (raises_chk s hrc false).bind fun rc => ?_
      exact (raises_modifyHeap _).bind fun _ => raises_pure rc
    · exact raises_pure _
  rw [Runtime.Statement.prepare_eq]
  exact Raises.ite ((raises_modifyHeap _).bind fun _ => hgiven) hgiven

theorem raises_dispose (s : StmtId) : Raises P (Runtime.Statement.dispose cli s) := by
  apply raises_getHeap_bind
  intro hp
  let h := (hp.stmts s).handle
  have hfree : Raises (fun _ => False) (do
      let reply ← cliCall cli (.freeHandle .stmt h)
      throwOnError cli reply.rc h .stmt
        ("Can't free statement handle handle=" ++ intDecimal h ++ ".")) :=
    hcli.raises_cliCall_bind fun reply hrc _ => raises_throwOnError_success hrc _ _ _
  exact hfree.orElse fun _ h => h.elim

theorem raises_withLocal {s : StmtId} {db : Handle} {body : Act (World σ) Exc α}
    (hbody : Raises P body) : Raises P (Runtime.Statement.withLocal cli s db body) :=
  (hcli.raises_new s db []).bind fun _ => hbody.withCleanup (hcli.raises_dispose s)

/-! ## Descriptions -/

theorem bufAnswered (bt : BufType) (h : Handle) (d : σ) : BufAnswered cli bt h d := by
  have hfields : ∀ n cnt d, FieldsAnswered cli bt h n cnt d := by
    intro n
    induction n with
    | zero => exact fun _ _ => trivial
    | succ n ih => exact fun _ _ => ⟨hcli.succeeds _ _, hcli.describes _ _, ih _ _⟩
  exact ⟨hcli.succeeds _ _, hfields _ _ _⟩

theorem raises_describeBuf (b : GsqlQbufDscr) : Raises P (describeBuf cli b) := by
  apply raises_of_ok
  intro w
  obtain ⟨b', w', hrun⟩ := (describeBuf_answered_iff cli b w).mpr (hcli.bufAnswered _ _ _)
  exact ⟨b', congrArg Prod.fst hrun⟩

/-- Describing a query raises nothing on a driver that answers. -/
theorem raises_loadQSqlsetFromDb (r : GsqlQ) (db : Handle) :
    Raises P (loadQSqlsetFromDb cli r db) := by
  have hprep : Raises P (executePrep cli r.sqlPrep) :=
    Raises.ite (hcli.raises_execDirect _ _ _) (raises_pure _)
  have hbody : Raises P (describeQuery cli r db) := by
    refine hprep.bind fun _ => ?_
    refine (hcli.raises_prepare stmtM r.sql).bind fun _ => ?_
    refine (hcli.raises_describeBuf r.par).bind fun par => ?_
    refine (hcli.raises_describeBuf r.res).bind fun res => ?_
    refine (Runtime.Statement.raises_rollback db).bind fun _ => ?_
    exact (Runtime.Statement.raises_rollback db).bind fun _ => raises_pure _
  apply Raises.ite
  · exact hcli.raises_withLocal (hcli.raises_withLocal hbody)
  · exact raises_pure r

end Answers

end Dbgen3.Generator
