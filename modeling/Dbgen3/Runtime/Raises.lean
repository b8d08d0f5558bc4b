import Dbgen3.Runtime.Statement

/-!
# What the methods of a statement can raise

A failed call is raised as the exception of the runtime, and reading the
diagnostics can fail by itself. A destructor that fails ends the program.
-/

namespace Dbgen3.Runtime

open Act

variable {σ α : Type} {cli : Cli σ} {P : Exc → Prop}

/-- `P` accepts the exceptions of the runtime. -/
structure CoversRuntime (P : Exc → Prop) : Prop where
  errorException : ∀ what, P (.errorException what)
  diagnostics : ∀ {h errors reply e}, wrapDiagRec h errors reply = .error e → P e

/-! ## Steps that raise nothing themselves -/

theorem raises_pure (a : α) : Raises P (pure a : Act (World σ) Exc α) :=
  raises_of_ok fun _ => ⟨a, rfl⟩

theorem raises_modifyHeap (f : Heap → Heap) :
    Raises P (modifyHeap f : Act (World σ) Exc PUnit) :=
  raises_of_ok fun _ => ⟨⟨⟩, rfl⟩

theorem raises_get_bind {f : World σ → Act (World σ) Exc α} (hf : ∀ w, Raises P (f w)) :
    Raises P (get >>= f) :=
  (raises_of_ok fun w => ⟨w, rfl⟩).bind hf

theorem raises_getHeap_bind {f : Heap → Act (World σ) Exc α} (hf : ∀ hp, Raises P (f hp)) :
    Raises P (getHeap >>= f) :=
  (raises_of_ok fun w => ⟨w.heap, rfl⟩).bind hf

theorem raises_cliCall_bind {c : CliCall} {f : Reply → Act (World σ) Exc α}
    (hf : ∀ r, Raises P (f r)) : Raises P (cliCall cli c >>= f) :=
  (raises_of_ok fun w => ⟨(cli.call w.drv c).1, rfl⟩).bind hf

theorem raises_cliCallWriting_bind {c : CliCall} {f : Reply → Act (World σ) Exc α}
    (hf : ∀ r, Raises P (f r)) : Raises P (cliCallWriting cli c >>= f) :=
  (raises_of_ok fun w => ⟨(cli.call w.drv c).1, rfl⟩).bind hf

/-! ## Diagnostics -/

theorem error_of_loadFrom (hP : CoversRuntime P) {h : Handle} {replies : List DiagReply}
    {errors : List DiagRec} {e : Exc} (he : loadFrom h replies errors = .error e) : P e := by
  induction replies generalizing errors with
  | nil => cases he
  | cons reply replies ih =>
      rw [loadFrom] at he
      cases hr : wrapDiagRec h errors reply with
      | error e' =>
          rw [hr] at he
          obtain rfl := Except.error.inj he
          exact hP.diagnostics hr
      | ok r =>
          rw [hr] at he
          obtain ⟨rc, errors'⟩ := r
          by_cases hrc : rc = sqlSuccess
          · simp only [hrc, ite_true] at he
            exact ih he
          · simp only [hrc, ite_false] at he
            cases he

theorem raises_load_bind (hP : CoversRuntime P) {type : HandleType} {h : Handle} {d : σ}
    {f : List DiagRec → Act (World σ) Exc α} (hf : ∀ errors, Raises P (f errors)) :
    Raises P (fromResult (load cli d type h) >>= f) :=
  (raises_fromResult fun _ he => error_of_loadFrom hP he).bind hf

theorem raises_throwOnError (hP : CoversRuntime P) (rc : Ret) (h : Handle) (type : HandleType)
    (msg : Str) : Raises P (throwOnError cli rc h type msg) := by
  apply raises_get_bind
  intro w
  apply Raises.ite
  · exact raises_load_bind hP fun errors => raises_throw (hP.errorException _)
  · exact raises_pure _

/-! ## Statements -/

namespace Statement

theorem raises_new (hP : CoversRuntime P) (s : StmtId) (db : Handle) (sql : Str) :
    Raises P (new cli s db sql) := by
  have halloc : Raises P (allocStmtHandle cli db) := by
    apply raises_cliCall_bind
    intro reply
    exact (raises_throwOnError hP _ _ _ _).bind fun _ => raises_pure _
  exact halloc.bind fun _ => raises_modifyHeap _

theorem raises_chk (hP : CoversRuntime P) (s : StmtId) (rc : Ret) (shouldThrow : Bool) :
    Raises P (chk cli s rc shouldThrow) := by
  apply raises_get_bind
  intro w
  apply Raises.ite
  · apply raises_load_bind hP
    intro errors
    exact Raises.ite (raises_throw (hP.errorException _)) (raises_pure _)
  · exact raises_pure _

theorem raises_execDirect (hP : CoversRuntime P) (s : StmtId) (sql : Str) (shouldThrow : Bool) :
    Raises P (execDirect cli s sql shouldThrow) := by
  have hgiven : Raises P (execGiven cli s shouldThrow) := by
    apply raises_getHeap_bind
    intro hp
    apply raises_cliCallWriting_bind
    intro reply
    exact raises_chk hP s reply.rc shouldThrow
  rw [execDirect_eq]
  exact Raises.ite ((raises_modifyHeap _).bind fun _ => hgiven) hgiven

theorem raises_prepare (hP : CoversRuntime P) (s : StmtId) (sql : Str) :
    Raises P (prepare cli s sql) := by
  have hgiven : Raises P (prepareGiven cli s) := by
    apply raises_getHeap_bind
    intro hp
    apply Raises.ite
    · apply raises_cliCall_bind
      intro reply
      refine (raises_chk hP s reply.rc false).bind fun rc => ?_
      exact (raises_modifyHeap _).bind fun _ => raises_pure rc
    · exact raises_pure _
  rw [prepare_eq]
  exact Raises.ite ((raises_modifyHeap _).bind fun _ => hgiven) hgiven

theorem raises_rollback (db : Handle) : Raises P (rollback cli db) :=
  raises_cliCall_bind fun _ => raises_pure _

theorem raises_dispose (hterm : P .terminated) (s : StmtId) : Raises P (dispose cli s) := by
  apply raises_getHeap_bind
  intro hp
  apply raises_orElse
  intro e
  exact raises_throw hterm

theorem raises_withLocal (hP : CoversRuntime P) (hterm : P .terminated) {s : StmtId}
    {db : Handle} {body : Act (World σ) Exc α} (hbody : Raises P body) :
    Raises P (withLocal cli s db body) :=
  (raises_new hP s db []).bind fun _ => hbody.withCleanup (raises_dispose hterm s)

end Statement

end Dbgen3.Runtime
