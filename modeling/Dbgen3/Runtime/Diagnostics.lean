import Dbgen3.Runtime.Statement

/-!
# Reading the diagnostics of a handle

A handle holds a list of records. A call for a record hands it out or fails, and
`error::load` ends normally exactly when no call fails; it then has all records.
-/

namespace Dbgen3.Runtime

variable {σ : Type}

/-- An answer that is neither a record nor the end of the records. -/
def DiagReply.fails : DiagReply → Bool
  | .success _ | .noData => false
  | _ => true

/-- No call fails before the end of the records. -/
def readable : List DiagReply → Bool
  | [] => true
  | .success _ :: replies => readable replies
  | reply :: _ => ! reply.fails

/-- The handle holds these records: call `i` hands out record `i` or fails, and no call
past them hands out a record. -/
inductive HasRecords : List DiagReply → List DiagRec → Prop
  | past {replies : List DiagReply} (h : ∀ r, replies.head? ≠ some (.success r)) :
      HasRecords replies []
  | record {replies : List DiagReply} {records : List DiagRec} (r : DiagRec)
      (h : HasRecords replies records) : HasRecords (.success r :: replies) (r :: records)
  | failed {reply : DiagReply} {replies : List DiagReply} {records : List DiagRec} (r : DiagRec)
      (hf : reply.fails = true) (h : HasRecords replies records) :
      HasRecords (reply :: replies) (r :: records)

/-- An answer is accepted when it does not fail. -/
theorem wrapDiagRec_of_fails {reply : DiagReply} (hf : reply.fails = true) (h : Handle)
    (errors : List DiagRec) :
    ∃ what, wrapDiagRec h errors reply = .error (.runtimeError what) := by
  cases reply with
  | success r => cases hf
  | noData => cases hf
  | successWithInfo n => exact ⟨_, rfl⟩
  | invalidHandle => exact ⟨_, rfl⟩
  | error => exact ⟨_, rfl⟩
  | other rc => exact ⟨_, rfl⟩

/-- The loop goes on after a record. -/
theorem loadFrom_success (h : Handle) (r : DiagRec) (replies : List DiagReply)
    (errors : List DiagRec) :
    loadFrom h (.success r :: replies) errors = loadFrom h replies (errors ++ [r]) := by
  simp [loadFrom, wrapDiagRec]

theorem loadFrom_noData (h : Handle) (replies : List DiagReply) (errors : List DiagRec) :
    loadFrom h (.noData :: replies) errors = .ok errors := by
  simp [loadFrom, wrapDiagRec, sqlNoData, sqlSuccess]

/-- Diagnostics that cannot be read are a `std::runtime_error`. -/
theorem loadFrom_of_not_readable {replies : List DiagReply} (hr : readable replies = false)
    (h : Handle) (errors : List DiagRec) :
    ∃ what, loadFrom h replies errors = .error (.runtimeError what) := by
  induction replies generalizing errors with
  | nil => cases hr
  | cons reply replies ih =>
      by_cases hf : reply.fails = true
      · obtain ⟨what, he⟩ := wrapDiagRec_of_fails hf h errors
        exact ⟨what, by rw [loadFrom, he]⟩
      · cases reply with
        | success r =>
            rw [loadFrom_success]
            exact ih hr (errors ++ [r])
        | noData => cases hr
        | _ => exact absurd rfl hf

/-- Diagnostics that can be read are the records of the handle, in order. -/
theorem loadFrom_of_readable {replies : List DiagReply} {records : List DiagRec}
    (hrec : HasRecords replies records) (hr : readable replies = true) (h : Handle)
    (errors : List DiagRec) : loadFrom h replies errors = .ok (errors ++ records) := by
  induction hrec generalizing errors with
  | @past replies hpast =>
      rw [List.append_nil]
      cases replies with
      | nil => rfl
      | cons reply replies =>
          cases reply with
          | success r => exact absurd rfl (hpast r)
          | noData => exact loadFrom_noData h replies errors
          | _ => cases hr
  | record r hrec ih =>
      rw [loadFrom_success, ih hr (errors ++ [r]), List.append_assoc]
      rfl
  | @failed reply replies records r hf hrec ih =>
      cases reply with
      | success r => cases hf
      | noData => cases hf
      | _ => cases hr

/-- Every list of answers comes from some records. -/
theorem exists_hasRecords (replies : List DiagReply) : ∃ records, HasRecords replies records := by
  induction replies with
  | nil => exact ⟨[], .past (by simp)⟩
  | cons reply replies ih =>
      cases reply with
      | success r =>
          obtain ⟨records, hrec⟩ := ih
          exact ⟨r :: records, .record r hrec⟩
      | _ => exact ⟨[], .past (by simp)⟩

section Load

variable {cli : Cli σ} {d : σ} {type : HandleType} {h : Handle} {records : List DiagRec}

theorem load_of_readable (hrec : HasRecords (cli.diag d type h) records)
    (hr : readable (cli.diag d type h) = true) : load cli d type h = .ok records :=
  loadFrom_of_readable hrec hr h []

theorem load_of_not_readable (hr : readable (cli.diag d type h) = false) :
    ∃ what, load cli d type h = .error (.runtimeError what) :=
  loadFrom_of_not_readable hr h []

variable (cli d type h) in
/-- `error::load` ends normally exactly when the diagnostics can be read. -/
theorem load_ok_iff :
    (∃ errors, load cli d type h = .ok errors) ↔ readable (cli.diag d type h) = true := by
  constructor
  · rintro ⟨errors, he⟩
    by_contra hr
    obtain ⟨what, hw⟩ := load_of_not_readable (Bool.eq_false_iff.mpr hr)
    rw [hw] at he
    cases he
  · intro hr
    obtain ⟨records, hrec⟩ := exists_hasRecords (cli.diag d type h)
    exact ⟨records, load_of_readable hrec hr⟩

end Load

end Dbgen3.Runtime
