import Dbgen3.Runtime.Calls

/-!
# Who releases the environment

Every close asks the driver to free the environment handle, whatever the counter
says. The request is the last call of the operation that makes it, so the counter
at the request is the counter the operation leaves.
-/

namespace Dbgen3.Runtime

open Act ConnWorld Runs

variable {σ : Type} {cli : Cli σ}

namespace Session

/-- The driver calls of a session. -/
def trace (s : Session σ) : List (Event σ) := s.base.world.trace

variable (cli) in
/-- The operation asks the driver to free the environment handle. -/
def Requests (s : Session σ) (op : Op) : Prop :=
  ∃ e ∈ newEntries trace s (s.step cli op), ∃ h, e.call = .freeHandle .env h

/-- No connection is counted and no connection object is live. -/
structure Unused (s : Session σ) : Prop where
  count : s.base.henvRefCnt = 0
  conns : ∀ c, s.conns c = none

end Session

/-- The counter when the handler of a failed open asks for the release, from the counter
before the open. -/
def Failure.countAtRelease (f : Failure σ) (n : Nat) : Nat :=
  let counted := if f.Counted then countUp n else n
  if f.dbHandle ≠ 0 then countDown counted else counted

namespace Session

variable (cli) in
/-- An operation that closes the last connection: the object it destroys is the only live one
and alone counted; an open whose handler runs has no other connection beside it. -/
def ClosesLast (s : Session σ) : Op → Prop
  | .destroyConnection c => ∀ h, s.conns c = some h →
      (if h ≠ 0 then countDown s.base.henvRefCnt else s.base.henvRefCnt) = 0 ∧
        ∀ c', c' ≠ c → s.conns c' = none
  | .connect c database user password => s.conns c = none → ∀ f : Failure σ,
      s.base.opening cli database user password = .error f → f.Readable cli →
        f.countAtRelease s.base.henvRefCnt = 0 ∧ ∀ c', s.conns c' = none
  | _ => True

variable {s : Session σ}

/-- An operation whose calls are of a kind that frees no environment asks for no release. -/
theorem not_requests {op : Op} {P : CliCall → Prop} {t : ConnWorld σ}
    (hP : ∀ h, ¬ P (.freeHandle .env h)) (ht : Extends P s.base.world t.world)
    (hs : (s.step cli op).base = t) : ¬ s.Requests cli op := by
  rintro ⟨e, hmem, h, hcall⟩
  obtain ⟨new, htrace, hnew⟩ := ht
  have hentries : newEntries trace s (s.step cli op) = new :=
    newEntries_eq ((congrArg (fun b => b.world.trace) hs).trans htrace)
  rw [hentries] at hmem
  exact hP h (hcall ▸ hnew e hmem)

variable (cli) in
/-- The last call of a close. -/
theorem closed_trace (t : ConnWorld σ) (h : Handle) :
    ∃ new e, (t.closed cli h).world.trace = t.world.trace ++ new ++ [e] ∧
      e.call = .freeHandle .env t.henv := by
  obtain ⟨new, htrace, -⟩ := extends_dropped cli t h
  have hissue := issue_trace cli (t.dropped cli h).world (.freeHandle .env (t.dropped cli h).henv)
  refine ⟨new, _, hissue.trans (congrArg (· ++ _) htrace), ?_⟩
  simp

/-- An operation that ends with a close asks for the release. -/
theorem requests_of_closed {op : Op} {P : CliCall → Prop} {t : ConnWorld σ} {h : Handle}
    (ht : Extends P s.base.world t.world) (hs : (s.step cli op).base = t.closed cli h) :
    s.Requests cli op := by
  obtain ⟨new, htrace, -⟩ := ht
  obtain ⟨new', e, hclosed, hcall⟩ := closed_trace cli t h
  have hentries : (s.step cli op).trace = s.trace ++ (new ++ (new' ++ [e])) := by
    calc (s.step cli op).trace
        = (t.closed cli h).world.trace := congrArg (fun b => b.world.trace) hs
      _ = t.world.trace ++ new' ++ [e] := hclosed
      _ = s.trace ++ (new ++ (new' ++ [e])) := by simp [htrace, trace]
  refine ⟨e, ?_, _, hcall⟩
  rw [newEntries_eq hentries]
  simp

section Steps

variable {c : ConnId} {database user password : Str}

theorem step_of_not_ended (he : s.ended = false) (op : Op) : s.step cli op = s.perform cli op :=
  if_neg (by simp [he])

/-- A successful constructor. -/
theorem connect_ok (hc : s.conns c = none) {h : Handle} {t : ConnWorld σ}
    (ho : s.base.opening cli database user password = .ok (h, t)) :
    s.connect cli c database user password =
      { s with base := t, conns := Function.update s.conns c (some h) } := by
  simp only [connect, hc, Connection.runOn_openConnection, ho, Connection.settles]

/-- A constructor that raises an exception. -/
theorem connect_error (hc : s.conns c = none) {f : Failure σ}
    (ho : s.base.opening cli database user password = .error f) :
    s.connect cli c database user password = { s with base := f.left cli } := by
  simp only [connect, hc, Connection.runOn_openConnection, ho, Connection.settles]

theorem destroyConnection_eq {h : Handle} (hc : s.conns c = some h) :
    s.destroyConnection cli c =
      { s with
        base := s.base.closed cli h
        conns := Function.update s.conns c none } := by
  simp only [destroyConnection, hc, onBase, Connection.runOn_closeConnection]

end Steps

/-- Operations on statements and transactions ask for no release. -/
theorem not_requests_of_onStatements {op : Op} (hop : op.OnStatements) : ¬ s.Requests cli op := by
  obtain ⟨w, hbase, hchain⟩ := statement_chain cli s hop
  exact not_requests (fun _ => id) (extends_of_chain hchain) hbase

/-- What the constructor of a connection asks for. -/
theorem connect_requests_iff {c : ConnId} {database user password : Str} (he : s.ended = false) :
    s.Requests cli (.connect c database user password) ↔
      s.conns c = none ∧ ∃ f : Failure σ,
        s.base.opening cli database user password = .error f ∧ f.Readable cli := by
  have hopen : ∀ h, ¬ CliCall.opens (.freeHandle .env h) := fun _ => id
  have hstep : s.step cli (.connect c database user password) =
      s.connect cli c database user password := step_of_not_ended he _
  cases hc : s.conns c with
  | some h =>
      have hsame : (s.step cli (.connect c database user password)).base = s.base := by
        simp only [hstep, connect, hc]
      refine iff_of_false (not_requests hopen (.refl _) hsame) ?_
      simp
  | none =>
      cases ho : s.base.opening cli database user password with
      | ok r =>
          rw [connect_ok hc ho] at hstep
          refine iff_of_false (not_requests hopen (extends_of_chain (opens_opening ho))
            (congrArg base hstep)) ?_
          simp
      | error f =>
          have hreached := extends_of_chain (opens_fails (opening_error ho))
          rw [connect_error hc ho] at hstep
          by_cases hr : f.Readable cli
          · rw [Failure.left_of_readable hr] at hstep
            refine iff_of_true ?_ ⟨rfl, f, rfl, hr⟩
            exact requests_of_closed hreached (congrArg base hstep)
          · rw [Failure.left_of_not_readable hr] at hstep
            refine iff_of_false (not_requests hopen hreached (congrArg base hstep)) ?_
            rintro ⟨-, g, hg, hgr⟩
            obtain rfl := Except.error.inj hg
            exact hr hgr

theorem destroyConnection_requests_iff {c : ConnId} (he : s.ended = false) :
    s.Requests cli (.destroyConnection c) ↔ ∃ h, s.conns c = some h := by
  have hstep : s.step cli (.destroyConnection c) = s.destroyConnection cli c :=
    step_of_not_ended he _
  cases hc : s.conns c with
  | some h =>
      rw [destroyConnection_eq hc] at hstep
      refine iff_of_true ?_ ⟨h, rfl⟩
      exact requests_of_closed (P := fun _ => False) (.refl _) (congrArg base hstep)
  | none =>
      have hsame : (s.step cli (.destroyConnection c)).base = s.base := by
        simp only [hstep, destroyConnection, hc]
      refine iff_of_false ?_ (by simp)
      exact not_requests (P := fun _ => False) (fun _ => id) (.refl _) hsame

/-- One operation requests the release with nothing counted and nobody left exactly when it
closes the last connection. -/
theorem request_unused_iff (s : Session σ) (he : s.ended = false) (op : Op) :
    (s.Requests cli op → (s.step cli op).Unused) ↔ s.ClosesLast cli op := by
  by_cases hop : op.OnStatements
  · refine iff_of_true (fun h => absurd h (not_requests_of_onStatements hop)) ?_
    cases op <;> trivial
  cases op with
  | destroyConnection c =>
      rw [destroyConnection_requests_iff he, step_of_not_ended he]
      simp only [perform, ClosesLast]
      cases hc : s.conns c with
      | none => simp
      | some h =>
          rw [destroyConnection_eq hc]
          constructor
          · intro hunused h' hh'
            obtain rfl := Option.some.inj hh'
            obtain ⟨hcount, hconns⟩ := hunused ⟨h, rfl⟩
            refine ⟨(closed_henvRefCnt cli s.base h).symm.trans hcount, fun c' hne => ?_⟩
            exact (Function.update_of_ne hne none s.conns).symm.trans (hconns c')
          · rintro hlast -
            obtain ⟨hcount, hothers⟩ := hlast h rfl
            refine ⟨(closed_henvRefCnt cli s.base h).trans hcount, fun c' => ?_⟩
            by_cases hne : c' = c
            · subst hne
              exact Function.update_self c' none s.conns
            · exact (Function.update_of_ne hne none s.conns).trans (hothers c' hne)
  | connect c database user password =>
      rw [connect_requests_iff he, step_of_not_ended he]
      simp only [perform, ClosesLast]
      constructor
      · intro hunused hc f ho hr
        have hu := hunused ⟨hc, f, ho, hr⟩
        rw [connect_error hc ho, Failure.left_of_readable hr] at hu
        obtain ⟨hcount, hconns⟩ := hu
        refine ⟨?_, hconns⟩
        rw [closed_henvRefCnt, (opening_error ho).henvRefCnt] at hcount
        exact hcount
      · rintro hlast ⟨hc, f, ho, hr⟩
        obtain ⟨hcount, hconns⟩ := hlast hc f ho hr
        rw [connect_error hc ho, Failure.left_of_readable hr]
        refine ⟨?_, hconns⟩
        rw [closed_henvRefCnt, (opening_error ho).henvRefCnt]
        exact hcount
  | _ => exact absurd trivial hop

/-- Over a whole program: every request for the release comes when nothing is counted and no
connection is live, exactly when every operation that makes one closes the last connection. -/
theorem env_released_last_iff (ops : List Op) (s : Session σ) :
    AllSteps (step cli) (fun s op => s.Requests cli op → (s.step cli op).Unused) ops s ↔
      AllSteps (step cli) (fun s op => s.ended = false → s.ClosesLast cli op) ops s := by
  apply AllSteps.congr
  rintro s op -
  cases he : s.ended with
  | false => simpa using request_unused_iff s he op
  | true =>
      have hsame : s.step cli op = s := if_pos he
      refine iff_of_true (fun h => ?_) (by simp)
      exact absurd h (not_requests (P := fun _ => False) (fun _ => id) (.refl _) (congrArg base hsame))

/-- Two connections are opened and one is closed: the environment is to be released while
the other connection is open. -/
theorem env_requested_too_early :
    ¬ AllSteps (step grantingCli)
        (fun s op => s.Requests grantingCli op → (s.step grantingCli op).Unused)
        [.connect 0 [] [] [], .connect 1 [] [] [], .destroyConnection 0]
        { base := .start ({} : Books) } := by
  intro h
  let s : Session Books := run grantingCli { base := .start {} }
    [.connect 0 [] [] [], .connect 1 [] [] []]
  have hlast := h [.connect 0 [] [] [], .connect 1 [] [] []] (.destroyConnection 0) [] rfl
  have hasks : s.Requests grantingCli (.destroyConnection 0) :=
    (destroyConnection_requests_iff (by decide +kernel)).mpr ⟨2, by decide +kernel⟩
  exact absurd (hlast hasks).count (by decide +kernel)

end Session

end Dbgen3.Runtime
