import Dbgen3.Lib.Runs
import Dbgen3.Runtime.Exec

/-!
# Runs of a client program

A client calls the methods of its query objects in any order. It may go on
after an exception, so a step of a run keeps the state an exception left.
-/

namespace Dbgen3.Runtime

open Act Runs

variable {σ : Type} (cli : Cli σ)

/-- One method call on a query object or on one of its buffers. -/
inductive UtlOp
  | setOccupied (b : BufId) (v : Nat)
  | setParBuf (p : Option BufId)
  | setResBuf (r : Option BufId)
  | exec (sql : Str)

/-- The world after one method call on query object `u`. -/
def UtlOp.step (u : UtlId) (w : World σ) : UtlOp → World σ
  | .setOccupied b v => ((Runtime.setOccupied b v).runOn w).2
  | .setParBuf p => ((Utl.setParBuf u p).runOn w).2
  | .setResBuf r => ((Utl.setResBuf u r).runOn w).2
  | .exec sql => ((Utl.exec cli u sql).runOn w).2

/-- The world after a sequence of method calls. -/
def run (ops : List (UtlId × UtlOp)) (w : World σ) : World σ :=
  ops.foldl (fun w op => op.2.step cli op.1 w) w

/-- The driver calls made between two worlds of a run. -/
def newEvents (w w' : World σ) : List (Event σ) := newEntries World.trace w w'

variable {cli}

theorem step_exec (u : UtlId) (sql : Str) (w : World σ) :
    (UtlOp.exec sql).step cli u w = ((Utl.exec cli u sql).runOn w).2 := rfl

/-- Only `exec` calls the driver. -/
theorem step_trace_of_not_exec (u : UtlId) (w : World σ) {op : UtlOp}
    (h : ∀ sql, op ≠ .exec sql) : (op.step cli u w).trace = w.trace ∧
      (op.step cli u w).drv = w.drv := by
  cases op with
  | setOccupied b v => exact ⟨rfl, rfl⟩
  | setParBuf p => exact ⟨rfl, rfl⟩
  | setResBuf r => exact ⟨rfl, rfl⟩
  | exec sql => exact absurd rfl (h sql)

theorem grows : Grows (fun w (op : UtlId × UtlOp) => op.2.step cli op.1 w) World.trace := by
  rintro w ⟨u, op⟩
  change w.trace <+: (op.step cli u w).trace
  by_cases h : ∃ sql, op = .exec sql
  · obtain ⟨sql, rfl⟩ := h
    rw [step_exec]
    obtain ⟨new, -, ⟨w₁, -, -, ht⟩ | ⟨-, ht⟩⟩ := Utl.exec_new_events cli u sql w
    · exact ⟨new ++ [Utl.executeEvent cli u w₁], by rw [ht, List.append_assoc]⟩
    · exact ⟨new, ht.symm⟩
  · have htrace : (op.step cli u w).trace = w.trace :=
      (step_trace_of_not_exec u w fun sql hop => h ⟨sql, hop⟩).1
    exact ⟨[], by rw [List.append_nil, htrace]⟩

/-- The moment at which `exec` issues `SQLExecute`, always on the handle of `u`. -/
theorem forall_exec_execute_iff (P : σ → Heap → Handle → Prop) (u : UtlId) (sql : Str)
    (w : World σ) :
    (∀ e ∈ newEvents w ((Utl.exec cli u sql).runOn w).2, ∀ h, e.call = .execute h →
        P e.drv e.heap h) ↔
      ∀ w₁, Utl.SetsUp cli u sql w w₁ → P w₁.drv w₁.heap (w₁.heap.handle u) := by
  obtain ⟨new, hnew, ⟨w₁, hw₁, -, ht⟩ | ⟨hno, ht⟩⟩ := Utl.exec_new_events cli u sql w
  · rw [List.append_assoc] at ht
    rw [newEvents, newEntries_eq ht]
    constructor
    · intro h w₂ hw₂
      have heq : w₁ = w₂ := by
        have := hw₁.symm.trans hw₂
        simpa using this
      exact heq ▸ h (Utl.executeEvent cli u w₁) (by simp) _ rfl
    · intro h e he hd hcall
      rcases List.mem_append.mp he with he | he
      · have hsetup := hnew e he
        rw [hcall] at hsetup
        exact hsetup.elim
      · obtain rfl := List.mem_singleton.mp he
        obtain rfl : w₁.heap.handle u = hd := CliCall.execute.inj hcall
        exact h w₁ hw₁
  · rw [newEvents, newEntries_eq ht]
    refine iff_of_true (fun e he hd hcall => ?_) fun w₁ hw₁ => absurd hw₁ (hno w₁)
    have hsetup := hnew e he
    rw [hcall] at hsetup
    exact hsetup.elim

/-- The moments at which `op` issues `SQLExecute`. -/
theorem forall_execute_iff (P : σ → Heap → Prop) (u : UtlId) (op : UtlOp) (w : World σ) :
    (∀ e ∈ newEvents w (op.step cli u w), ∀ h, e.call = .execute h → P e.drv e.heap) ↔
      ∀ sql, op = .exec sql → ∀ w₁, Utl.SetsUp cli u sql w w₁ → P w₁.drv w₁.heap := by
  cases op with
  | exec sql =>
      rw [step_exec, forall_exec_execute_iff fun d hp _ => P d hp]
      constructor
      · rintro h _ ⟨rfl⟩
        exact h
      · exact fun h => h sql rfl
  | _ => simp [newEvents, newEntries, step_trace_of_not_exec]

/-- What holds whenever a run issues `SQLExecute` is what holds at the end of every
successful set-up phase of the run. -/
theorem forall_run_execute_iff (P : σ → Heap → Prop) (ops : List (UtlId × UtlOp)) (w : World σ) :
    (∀ e ∈ newEvents w (run cli ops w), ∀ h, e.call = .execute h → P e.drv e.heap) ↔
      AllSteps (fun w (op : UtlId × UtlOp) => op.2.step cli op.1 w)
        (fun w op => ∀ sql, op.2 = .exec sql →
          ∀ w₁, Utl.SetsUp cli op.1 sql w w₁ → P w₁.drv w₁.heap) ops w := by
  unfold newEvents run
  rw [grows.forall_newEntries_iff]
  apply AllSteps.congr
  rintro s ⟨u, op⟩ -
  exact forall_execute_iff P u op s

end Dbgen3.Runtime
