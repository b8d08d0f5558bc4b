import Dbgen3.Runtime.Connection

/-!
# Opening and closing, call by call

`open_connection` is a chain of driver calls that stops at the first one that
does not answer `SQL_SUCCESS`. The chain is a function to the failing call, and
what the handler does afterwards depends on that call alone.
-/

namespace Dbgen3.Runtime

open Act

variable {σ : Type} (cli : Cli σ)

/-- One more in the 32 bits of the counter. -/
def countUp (n : Nat) : Nat := (n + 1) % 2 ^ 32

/-- One less in the 32 bits of the counter. -/
def countDown (n : Nat) : Nat := (n + (2 ^ 32 - 1)) % 2 ^ 32

section Count

variable {n : Nat}

theorem countUp_of_lt (h : n + 1 < 2 ^ 32) : countUp n = n + 1 := Nat.mod_eq_of_lt h

theorem countDown_of_pos (h : n < 2 ^ 32) (hn : n ≠ 0) : countDown n = n - 1 := by
  unfold countDown
  omega

/-- Counting and uncounting cancel in the range of the counter. -/
theorem countDown_countUp (h : n < 2 ^ 32) : countDown (countUp n) = n := by
  unfold countUp countDown
  omega

theorem countUp_ne (n : Nat) : countUp n ≠ n := by
  unfold countUp
  omega

theorem countDown_ne (n : Nat) : countDown n ≠ n := by
  unfold countDown
  omega

end Count

namespace ConnWorld

variable (t : ConnWorld σ)

/-- The answer to a call. -/
def reply (c : CliCall) : Reply := (cli.call t.world.drv c).1

/-- The state after a call. -/
def issue (c : CliCall) : ConnWorld σ := { t with world := t.world.issue cli c }

/-- `henv_ref_cnt_++`. -/
def counted : ConnWorld σ := { t with henvRefCnt := countUp t.henvRefCnt }

/-- `henv_ref_cnt_--`. -/
def uncounted : ConnWorld σ := { t with henvRefCnt := countDown t.henvRefCnt }

/-- The state of `close_connection` before it frees the environment handle. -/
def dropped (h : Handle) : ConnWorld σ :=
  if h ≠ 0 then ((t.issue cli (.disconnect h)).uncounted).issue cli (.freeHandle .dbc h) else t

/-- The state after `close_connection`. -/
def closed (h : Handle) : ConnWorld σ :=
  (t.dropped cli h).issue cli (.freeHandle .env (t.dropped cli h).henv)

@[simp] theorem issue_world (c : CliCall) : (t.issue cli c).world = t.world.issue cli c := rfl
@[simp] theorem issue_henv (c : CliCall) : (t.issue cli c).henv = t.henv := rfl
@[simp] theorem issue_henvRefCnt (c : CliCall) : (t.issue cli c).henvRefCnt = t.henvRefCnt := rfl
@[simp] theorem counted_world : t.counted.world = t.world := rfl
@[simp] theorem counted_henv : t.counted.henv = t.henv := rfl

@[simp] theorem uncounted_world : t.uncounted.world = t.world := by
  change (ConnWorld.mk t.world t.henv (countDown t.henvRefCnt)).world = t.world
  rfl

@[simp] theorem uncounted_henv : t.uncounted.henv = t.henv := by
  change (ConnWorld.mk t.world t.henv (countDown t.henvRefCnt)).henv = t.henv
  rfl

@[simp] theorem dropped_zero : t.dropped cli 0 = t := rfl

theorem dropped_of_ne {h : Handle} (hh : h ≠ 0) :
    t.dropped cli h = ((t.issue cli (.disconnect h)).uncounted).issue cli (.freeHandle .dbc h) :=
  if_pos hh

@[simp] theorem dropped_henv (h : Handle) : (t.dropped cli h).henv = t.henv := by
  unfold dropped
  split <;> rfl

@[simp] theorem closed_henv (h : Handle) : (t.closed cli h).henv = t.henv := by
  simp [closed]

/-- The count after `close_connection`, which is the count when it frees the environment. -/
theorem closed_henvRefCnt (h : Handle) :
    (t.closed cli h).henvRefCnt =
      if h ≠ 0 then countDown t.henvRefCnt else t.henvRefCnt := by
  simp only [closed, issue_henvRefCnt, dropped]
  split <;> rfl

end ConnWorld

variable {cli} in
theorem runOn_onWorld {α : Type} (m : Act (World σ) Exc α) (t : ConnWorld σ) :
    (onWorld m).runOn t = ((m.runOn t.world).1, { t with world := (m.runOn t.world).2 }) :=
  runOn_zoom _ _ m t

theorem runOn_onWorld_cliCall (c : CliCall) (t : ConnWorld σ) :
    (onWorld (cliCall cli c)).runOn t = (.ok (t.reply cli c), t.issue cli c) := by
  rw [runOn_onWorld, runOn_cliCall]
  rfl

namespace Connection

open ConnWorld

/-- Closing never fails: the results of its calls are not looked at. -/
theorem runOn_closeConnection (h : Handle) (t : ConnWorld σ) :
    (closeConnection cli h).runOn t =
      (.ok ((t.dropped cli h).reply cli (.freeHandle .env t.henv)).rc, t.closed cli h) := by
  unfold closeConnection
  by_cases hh : h = 0
  · subst hh
    rfl
  · rw [closed, dropped_of_ne cli t hh, if_pos hh]
    rfl

end Connection

/-! ## The failing call -/

/-- The calls of `open_connection`. -/
inductive Stage
  | environment | version | handle | connect | autocommit
  deriving DecidableEq, Repr

/-- A call of `open_connection` that did not answer `SQL_SUCCESS`: its answer, the state
just after it, what its error is built from, and the value of `db_handle`. -/
structure Failure (σ : Type) where
  stage : Stage
  answer : Reply
  reached : ConnWorld σ
  errHandle : Handle
  errType : HandleType
  msg : Str
  dbHandle : Handle := 0

/-- What `throw_on_error` raises: the records of the handle, or the failure to read them. -/
def raised (w : World σ) (h : Handle) (type : HandleType) (msg : Str) : Exc :=
  match load cli w.drv type h with
  | .ok errors => .errorException (errorDump errors msg)
  | .error e => e

namespace Failure

variable (f : Failure σ)

/-- The diagnostics of the failing call can be read, so that its exception is an
`error_exception`. -/
def Readable : Prop := (load cli f.reached.world.drv f.errType f.errHandle).isOk = true

instance : Decidable (f.Readable cli) := inferInstanceAs (Decidable (_ = true))

/-- The exception of the failing call. -/
def exc : Exc := raised cli f.reached.world f.errHandle f.errType f.msg

/-- The counter was incremented. -/
def Counted : Prop := f.stage = .connect ∨ f.stage = .autocommit

instance : Decidable f.Counted := inferInstanceAs (Decidable (_ ∨ _))

/-- The state the exception leaves: only an `error_exception` passes the handler that closes
the connection. -/
def left : ConnWorld σ :=
  if f.Readable cli then f.reached.closed cli f.dbHandle else f.reached

end Failure

namespace ConnWorld

variable (t : ConnWorld σ)

/-- The failure of a call. -/
def failed (c : CliCall) (stage : Stage) (errHandle : Handle) (errType : HandleType) (msg : Str)
    (dbHandle : Handle) : Failure σ :=
  { stage, answer := t.reply cli c, reached := t.issue cli c, errHandle, errType, msg, dbHandle }

/-- One call of the chain: it goes on after `SQL_SUCCESS` only. -/
def attempt (c : CliCall) (stage : Stage) (errHandle : Handle) (errType : HandleType) (msg : Str)
    (dbHandle : Handle) : Except (Failure σ) (ConnWorld σ) :=
  if (t.reply cli c).rc = sqlSuccess then .ok (t.issue cli c)
  else .error (t.failed cli c stage errHandle errType msg dbHandle)

variable {cli t} in
theorem attempt_ok {c : CliCall} {stage : Stage} {h : Handle} {type : HandleType} {msg : Str}
    {dbHandle : Handle} {t' : ConnWorld σ}
    (ha : t.attempt cli c stage h type msg dbHandle = .ok t') :
    (t.reply cli c).rc = sqlSuccess ∧ t' = t.issue cli c := by
  unfold attempt at ha
  split at ha
  · next hrc => exact ⟨hrc, (Except.ok.inj ha).symm⟩
  · cases ha

variable {cli t} in
theorem attempt_error {c : CliCall} {stage : Stage} {h : Handle} {type : HandleType} {msg : Str}
    {dbHandle : Handle} {f : Failure σ}
    (ha : t.attempt cli c stage h type msg dbHandle = .error f) :
    (t.reply cli c).rc ≠ sqlSuccess ∧ f = t.failed cli c stage h type msg dbHandle := by
  unfold attempt at ha
  split at ha
  · cases ha
  · next hrc => exact ⟨hrc, (Except.error.inj ha).symm⟩

/-- The environment handle: a new one when nobody holds it. -/
def withEnvironment : Except (Failure σ) (ConnWorld σ) :=
  if t.henvRefCnt = 0 then do
    let henv := (t.reply cli (.allocHandle .env 0)).handle
    let t ← t.attempt cli (.allocHandle .env 0) .environment henv .env
      "ERROR while allocating the environment handle." 0
    pure { t with henv := henv }
  else pure t

/-- The state with a new environment handle. -/
def environed : ConnWorld σ :=
  { t.issue cli (.allocHandle .env 0) with
    henv := (t.reply cli (.allocHandle .env 0)).handle }

variable {cli t} in
theorem withEnvironment_ok {u : ConnWorld σ} (h : t.withEnvironment cli = .ok u) :
    (t.henvRefCnt ≠ 0 ∧ u = t) ∨
      (t.henvRefCnt = 0 ∧ (t.reply cli (.allocHandle .env 0)).rc = sqlSuccess ∧
        u = t.environed cli) := by
  unfold withEnvironment at h
  split at h
  · next h0 =>
    obtain ⟨t₁, ht₁, h⟩ := except_bind_eq_ok h
    obtain ⟨hrc, rfl⟩ := attempt_ok ht₁
    exact .inr ⟨h0, hrc, (Except.ok.inj h).symm⟩
  · next h0 => exact .inl ⟨h0, (Except.ok.inj h).symm⟩

/-- The handle `SQLAllocHandle` answers with when the chain asks for a connection. -/
def newHandle : Handle := (t.reply cli (.allocHandle .dbc t.henv)).handle

/-- The arguments of `SQLConnect`. -/
def connectCall (h : Handle) (database user password : Str) : CliCall :=
  if database ≠ [] then .connect h (nts database) (nts user) (nts password)
  else .connect h [] [] []

theorem connectCall_eq (h : Handle) (database user password : Str) :
    ∃ d us pw, connectCall h database user password = .connect h d us pw := by
  unfold connectCall
  split
  · exact ⟨_, _, _, rfl⟩
  · exact ⟨_, _, _, rfl⟩

/-- The state with a new connection handle, which is counted. -/
def allocated : ConnWorld σ := (t.issue cli (.allocHandle .dbc t.henv)).counted

/-- That state after `SQLConnect`. -/
def connected (database user password : Str) : ConnWorld σ :=
  (t.allocated cli).issue cli (connectCall (t.newHandle cli) database user password)

/-- The chain from the allocated connection handle on. -/
def connecting (h : Handle) (database user password : Str) :
    Except (Failure σ) (ConnWorld σ) := do
  let t ← t.counted.attempt cli (connectCall h database user password) .connect h .dbc
    "ERROR connecting to the database." h
  t.attempt cli (.setConnectAttr h) .autocommit h .dbc "ERROR cannot switch off auto commit." h

/-- The chain up to the call that allocates the connection handle. -/
def requesting : Except (Failure σ) (ConnWorld σ) := do
  let t ← t.withEnvironment cli
  t.attempt cli (.setEnvAttr t.henv) .version t.henv .env "ERROR enabling ODBC 3.8." 0

/-- The chain from that call on. -/
def allocating (database user password : Str) : Except (Failure σ) (ConnWorld σ) := do
  let h := t.newHandle cli
  let t ← t.attempt cli (.allocHandle .dbc t.henv) .handle t.henv .env
    "ERROR allocating db handle." h
  t.connecting cli h database user password

/-- The chain of calls of `open_connection`: the failing call, or the new handle. -/
def opening (database user password : Str) : Except (Failure σ) (Handle × ConnWorld σ) := do
  let t ← t.requesting cli
  let t' ← t.allocating cli database user password
  pure (t.newHandle cli, t')

/-- The failing call of a chain, one case for each call, with the state it was made in. -/
inductive Fails (database user password : Str) (t : ConnWorld σ) : Failure σ → Prop
  | environment (h0 : t.henvRefCnt = 0)
      (hrc : (t.reply cli (.allocHandle .env 0)).rc ≠ sqlSuccess) :
      Fails database user password t
        (t.failed cli (.allocHandle .env 0) .environment
          (t.reply cli (.allocHandle .env 0)).handle .env
          "ERROR while allocating the environment handle." 0)
  | version {u : ConnWorld σ} (hu : t.withEnvironment cli = .ok u)
      (hrc : (u.reply cli (.setEnvAttr u.henv)).rc ≠ sqlSuccess) :
      Fails database user password t
        (u.failed cli (.setEnvAttr u.henv) .version u.henv .env "ERROR enabling ODBC 3.8." 0)
  | handle {u : ConnWorld σ} (hu : t.requesting cli = .ok u)
      (hrc : (u.reply cli (.allocHandle .dbc u.henv)).rc ≠ sqlSuccess) :
      Fails database user password t
        (u.failed cli (.allocHandle .dbc u.henv) .handle u.henv .env "ERROR allocating db handle."
          (u.newHandle cli))
  | connect {u : ConnWorld σ} (hu : t.requesting cli = .ok u)
      (ha : (u.reply cli (.allocHandle .dbc u.henv)).rc = sqlSuccess)
      (hrc : ((u.allocated cli).reply cli
        (connectCall (u.newHandle cli) database user password)).rc ≠ sqlSuccess) :
      Fails database user password t
        ((u.allocated cli).failed cli (connectCall (u.newHandle cli) database user password) .connect
          (u.newHandle cli) .dbc "ERROR connecting to the database." (u.newHandle cli))
  | autocommit {u : ConnWorld σ} (hu : t.requesting cli = .ok u)
      (ha : (u.reply cli (.allocHandle .dbc u.henv)).rc = sqlSuccess)
      (hc : ((u.allocated cli).reply cli
        (connectCall (u.newHandle cli) database user password)).rc = sqlSuccess)
      (hrc : ((u.connected cli database user password).reply cli
        (.setConnectAttr (u.newHandle cli))).rc ≠ sqlSuccess) :
      Fails database user password t
        ((u.connected cli database user password).failed cli (.setConnectAttr (u.newHandle cli))
          .autocommit (u.newHandle cli) .dbc "ERROR cannot switch off auto commit."
          (u.newHandle cli))

variable {cli t} {database user password : Str}

theorem withEnvironment_error {f : Failure σ} (h : t.withEnvironment cli = .error f) :
    Fails cli database user password t f := by
  unfold withEnvironment at h
  split at h
  · next h0 =>
    obtain h | ⟨t₁, ht₁, h⟩ := except_bind_eq_error h
    · obtain ⟨hrc, rfl⟩ := attempt_error h
      exact .environment h0 hrc
    · cases h
  · cases h

theorem requesting_error {f : Failure σ} (h : t.requesting cli = .error f) :
    Fails cli database user password t f := by
  obtain h | ⟨u, hu, h⟩ := except_bind_eq_error h
  · exact withEnvironment_error h
  · obtain ⟨hrc, rfl⟩ := attempt_error h
    exact .version hu hrc

theorem allocating_error {u : ConnWorld σ} {f : Failure σ} (hu : t.requesting cli = .ok u)
    (h : u.allocating cli database user password = .error f) :
    Fails cli database user password t f := by
  obtain h | ⟨u₁, h₁, h⟩ := except_bind_eq_error h
  · obtain ⟨hrc, rfl⟩ := attempt_error h
    exact .handle hu hrc
  · obtain ⟨ha, rfl⟩ := attempt_ok h₁
    obtain h | ⟨u₂, h₂, h⟩ := except_bind_eq_error h
    · obtain ⟨hrc, rfl⟩ := attempt_error h
      exact .connect hu ha hrc
    · obtain ⟨hc, rfl⟩ := attempt_ok h₂
      obtain ⟨hrc, rfl⟩ := attempt_error h
      exact .autocommit hu ha hc hrc

theorem requesting_dbHandle {f : Failure σ} (h : t.requesting cli = .error f) :
    f.dbHandle = 0 := by
  obtain h | ⟨u, -, h⟩ := except_bind_eq_error h
  · unfold withEnvironment at h
    split at h
    · obtain h | ⟨t₁, -, h⟩ := except_bind_eq_error h
      · obtain ⟨-, rfl⟩ := attempt_error h
        rfl
      · cases h
    · cases h
  · obtain ⟨-, rfl⟩ := attempt_error h
    rfl

theorem allocating_dbHandle {f : Failure σ}
    (h : t.allocating cli database user password = .error f) : f.dbHandle = t.newHandle cli := by
  obtain h | ⟨u₁, -, h⟩ := except_bind_eq_error h
  · obtain ⟨-, rfl⟩ := attempt_error h
    rfl
  · obtain h | ⟨u₂, -, h⟩ := except_bind_eq_error h
    · obtain ⟨-, rfl⟩ := attempt_error h
      rfl
    · obtain ⟨-, rfl⟩ := attempt_error h
      rfl

theorem opening_error {f : Failure σ} (h : t.opening cli database user password = .error f) :
    Fails cli database user password t f := by
  obtain h | ⟨u, hu, h⟩ := except_bind_eq_error h
  · exact requesting_error h
  · obtain h | ⟨u', -, h⟩ := except_bind_eq_error h
    · exact allocating_error hu h
    · cases h

/-- A chain without a failing call. -/
theorem opening_ok {h : Handle} {t' : ConnWorld σ}
    (ho : t.opening cli database user password = .ok (h, t')) :
    ∃ u, t.requesting cli = .ok u ∧ (u.reply cli (.allocHandle .dbc u.henv)).rc = sqlSuccess ∧
      ((u.allocated cli).reply cli
        (connectCall (u.newHandle cli) database user password)).rc = sqlSuccess ∧
      ((u.connected cli database user password).reply cli
        (.setConnectAttr (u.newHandle cli))).rc = sqlSuccess ∧ h = u.newHandle cli ∧
      t' = (u.connected cli database user password).issue cli (.setConnectAttr h) := by
  obtain ⟨u, hu, ho⟩ := except_bind_eq_ok ho
  obtain ⟨u₃, hall, ho⟩ := except_bind_eq_ok ho
  obtain ⟨u₁, h₁, hall⟩ := except_bind_eq_ok hall
  obtain ⟨ha, rfl⟩ := attempt_ok h₁
  obtain ⟨u₂, h₂, hall⟩ := except_bind_eq_ok hall
  obtain ⟨hc, rfl⟩ := attempt_ok h₂
  obtain ⟨hs, rfl⟩ := attempt_ok hall
  obtain ⟨rfl, rfl⟩ := Prod.mk.inj (Except.ok.inj ho)
  exact ⟨u, hu, ha, hc, hs, rfl, rfl⟩

theorem requesting_ok {u : ConnWorld σ} (h : t.requesting cli = .ok u) :
    ∃ t₁, t.withEnvironment cli = .ok t₁ ∧
      (t₁.reply cli (.setEnvAttr t₁.henv)).rc = sqlSuccess ∧
      u = t₁.issue cli (.setEnvAttr t₁.henv) := by
  obtain ⟨t₁, ht₁, h⟩ := except_bind_eq_ok h
  obtain ⟨hrc, rfl⟩ := attempt_ok h
  exact ⟨t₁, ht₁, hrc, rfl⟩

theorem withEnvironment_henvRefCnt {u : ConnWorld σ} (h : t.withEnvironment cli = .ok u) :
    u.henvRefCnt = t.henvRefCnt := by
  obtain ⟨-, rfl⟩ | ⟨-, -, rfl⟩ := withEnvironment_ok h
  · rfl
  · rfl

theorem requesting_henvRefCnt {u : ConnWorld σ} (h : t.requesting cli = .ok u) :
    u.henvRefCnt = t.henvRefCnt := by
  obtain ⟨t₁, ht₁, -, rfl⟩ := requesting_ok h
  have hcount := withEnvironment_henvRefCnt ht₁
  exact hcount

/-- The counter at the failing call. -/
theorem Fails.henvRefCnt {f : Failure σ} (hf : Fails cli database user password t f) :
    f.reached.henvRefCnt = if f.Counted then countUp t.henvRefCnt else t.henvRefCnt := by
  cases hf with
  | environment h0 hrc => rfl
  | version hu hrc =>
      have hcount := withEnvironment_henvRefCnt hu
      exact hcount
  | handle hu hrc =>
      have hcount := requesting_henvRefCnt hu
      exact hcount
  | connect hu ha hrc =>
      have hcount := congrArg countUp (requesting_henvRefCnt hu)
      exact hcount
  | autocommit hu ha hc hrc =>
      have hcount := congrArg countUp (requesting_henvRefCnt hu)
      exact hcount

end ConnWorld

/-! ## The chain is what the code does -/

/-- Diagnostics that cannot be read raise a `std::runtime_error`. -/
theorem loadFrom_error {h : Handle} {replies : List DiagReply} {errors : List DiagRec} {e : Exc}
    (he : loadFrom h replies errors = .error e) : ∃ what, e = .runtimeError what := by
  induction replies generalizing errors with
  | nil => cases he
  | cons reply replies ih =>
      cases reply with
      | success r => exact ih (by simpa [loadFrom, wrapDiagRec] using he)
      | noData => simp [loadFrom, wrapDiagRec, sqlNoData, sqlSuccess] at he
      | _ =>
          simp only [loadFrom, wrapDiagRec, Except.error.injEq] at he
          exact ⟨_, he.symm⟩

theorem runOn_throwOnError_success {rc : Ret} (hrc : rc = sqlSuccess) (h : Handle)
    (type : HandleType) (msg : Str) (w : World σ) :
    (throwOnError cli rc h type msg).runOn w = (.ok ⟨⟩, w) := by
  unfold throwOnError
  rw [runOn_bind_ok (runOn_get w), if_neg (not_not.mpr hrc), runOn_pure]

theorem runOn_throwOnError_failure {rc : Ret} (hrc : rc ≠ sqlSuccess) (h : Handle)
    (type : HandleType) (msg : Str) (w : World σ) :
    (throwOnError cli rc h type msg).runOn w = (.error (raised cli w h type msg), w) := by
  unfold throwOnError raised
  rw [runOn_bind_ok (runOn_get w), if_pos hrc]
  cases hload : load cli w.drv type h with
  | error e => rfl
  | ok errors => rfl

namespace Failure

variable {cli} {f : Failure σ}

theorem left_of_readable (h : f.Readable cli) : f.left cli = f.reached.closed cli f.dbHandle :=
  if_pos h

theorem left_of_not_readable (h : ¬ f.Readable cli) : f.left cli = f.reached := if_neg h

/-- An `error_exception` comes from diagnostics that could be read. -/
theorem readable_of_exc {what : Str} (h : f.exc cli = .errorException what) : f.Readable cli := by
  unfold exc raised at h
  unfold Readable
  rcases hd : load cli f.reached.world.drv f.errType f.errHandle with e | errors
  · obtain ⟨what', rfl⟩ := loadFrom_error hd
    simp [hd] at h
  · rfl

/-- The handler of `open_connection` after the failing call. -/
theorem runOn_closeAndRethrow {α : Type} :
    (Connection.closeAndRethrow cli f.dbHandle (f.exc cli) : Act (ConnWorld σ) Exc α).runOn
      f.reached = (.error (f.exc cli), f.left cli) := by
  rcases hd : load cli f.reached.world.drv f.errType f.errHandle with e | errors
  · obtain ⟨what, rfl⟩ := loadFrom_error hd
    have hexc : f.exc cli = .runtimeError what := by simp [exc, raised, hd]
    have hleft : f.left cli = f.reached := if_neg (by simp [Readable, hd, Except.isOk, Except.toBool])
    rw [hexc, hleft]
    rfl
  · have hexc : f.exc cli = .errorException (errorDump errors f.msg) := by simp [exc, raised, hd]
    have hleft : f.left cli = f.reached.closed cli f.dbHandle :=
      if_pos (by simp [Readable, hd, Except.isOk, Except.toBool])
    rw [hexc, hleft]
    exact runOn_bind_ok (Connection.runOn_closeConnection cli f.dbHandle f.reached) _

end Failure

namespace Connection

open ConnWorld

/-- How a part of the chain ends when it is run. -/
def ends {α β : Type} (value : β → α) (state : β → ConnWorld σ) :
    Except (Failure σ) β → Except Exc α × ConnWorld σ
  | .ok b => (.ok (value b), state b)
  | .error f => (.error (f.exc cli), f.reached)

variable {cli}

/-- A call whose failure is raised with the diagnostics of a handle, which may be the one
the call answered with. -/
theorem runOn_attempt {α : Type} (t : ConnWorld σ) (c : CliCall) (stage : Stage)
    (h : Reply → Handle) (type : HandleType) (msg : Str) (dbHandle : Handle) (v : Reply → α) :
    (onWorld (do
      let reply ← cliCall cli c
      throwOnError cli reply.rc (h reply) type msg
      pure (v reply))).runOn t =
      ends cli (fun _ => v (t.reply cli c)) id
        (t.attempt cli c stage (h (t.reply cli c)) type msg dbHandle) := by
  have hcall : (cliCall cli c).runOn t.world = (.ok (t.reply cli c), t.world.issue cli c) := rfl
  rw [runOn_onWorld]
  unfold attempt
  by_cases hrc : (t.reply cli c).rc = sqlSuccess
  · have hthrow := runOn_throwOnError_success cli hrc (h (t.reply cli c)) type msg
      (t.world.issue cli c)
    rw [runOn_bind_ok hcall, runOn_bind_ok hthrow, if_pos hrc]
    rfl
  · have hthrow := runOn_throwOnError_failure cli hrc (h (t.reply cli c)) type msg
      (t.world.issue cli c)
    rw [runOn_bind_ok hcall, runOn_bind_error hthrow, if_neg hrc]
    rfl

theorem ends_bind {α β γ δ : Type} {m : Act (ConnWorld σ) Exc α} {k : α → Act (ConnWorld σ) Exc γ}
    {x : Except (Failure σ) β} {y : β → Except (Failure σ) δ} {v : β → α} {s : β → ConnWorld σ}
    {v' : δ → γ} {s' : δ → ConnWorld σ} {t : ConnWorld σ} (hm : m.runOn t = ends cli v s x)
    (hk : ∀ b, x = .ok b → (k (v b)).runOn (s b) = ends cli v' s' (y b)) :
    (m >>= k).runOn t = ends cli v' s' (x >>= y) := by
  cases x with
  | error f => exact runOn_bind_error hm k
  | ok b => exact (runOn_bind_ok hm k).trans (hk b rfl)

variable (cli) in
/-- The calls up to the one that allocates the connection handle. -/
theorem runOn_allocateDbHandle (t : ConnWorld σ) :
    (allocateDbHandle cli).runOn t =
      ends cli (fun t => t.reply cli (.allocHandle .dbc t.henv))
        (fun t => t.issue cli (.allocHandle .dbc t.henv)) (t.requesting cli) := by
  have hrest : ∀ t : ConnWorld σ,
      (do
        let t ← get
        let _ ← onWorld (checked cli (.setEnvAttr t.henv) t.henv .env "ERROR enabling ODBC 3.8.")
        onWorld (cliCall cli (.allocHandle .dbc t.henv)) : Act (ConnWorld σ) Exc Reply).runOn t =
      ends cli (fun t => t.reply cli (.allocHandle .dbc t.henv))
        (fun t => t.issue cli (.allocHandle .dbc t.henv))
        (t.attempt cli (.setEnvAttr t.henv) .version t.henv .env "ERROR enabling ODBC 3.8." 0) := by
    intro t
    rw [runOn_bind_ok (runOn_get t), ← bind_pure (attempt cli t _ _ _ _ _ _)]
    refine ends_bind (runOn_attempt t _ .version (fun _ => t.henv) .env _ 0 id) ?_
    intro t' ht'
    obtain ⟨-, rfl⟩ := attempt_ok ht'
    exact runOn_onWorld_cliCall cli _ _
  unfold allocateDbHandle requesting withEnvironment
  rw [runOn_bind_ok (runOn_get t)]
  by_cases h : t.henvRefCnt = 0
  · rw [if_pos h, if_pos h, bind_assoc]
    refine ends_bind (runOn_attempt t _ .environment Reply.handle .env _ 0 Reply.handle) ?_
    intro t' ht'
    exact (runOn_bind_ok (runOn_modify _ _) _).trans (hrest _)
  · rw [if_neg h, if_neg h]
    exact hrest t

/-- The check of an answer that the caller got. -/
theorem runOn_answered (t : ConnWorld σ) (c : CliCall) (stage : Stage) (h : Handle)
    (type : HandleType) (msg : Str) (dbHandle : Handle) :
    (onWorld (throwOnError cli (t.reply cli c).rc h type msg)).runOn (t.issue cli c) =
      ends cli (fun _ => ⟨⟩) id (t.attempt cli c stage h type msg dbHandle) := by
  rw [runOn_onWorld, issue_world]
  unfold attempt
  by_cases hrc : (t.reply cli c).rc = sqlSuccess
  · rw [runOn_throwOnError_success cli hrc, if_pos hrc]
    rfl
  · rw [runOn_throwOnError_failure cli hrc, if_neg hrc]
    rfl

variable (cli) in
/-- The calls from that one on. -/
theorem runOn_connectTo (database user password : Str) (t : ConnWorld σ) :
    (connectTo cli (t.reply cli (.allocHandle .dbc t.henv)) database user password).runOn
        (t.issue cli (.allocHandle .dbc t.henv)) =
      ends cli (fun _ => t.newHandle cli) id (t.allocating cli database user password) := by
  unfold connectTo allocating connecting
  rw [runOn_bind_ok (runOn_get _)]
  refine ends_bind (runOn_answered t _ .handle _ _ _ _) ?_
  intro t' _
  rw [runOn_bind_ok (runOn_modify _ _)]
  refine ends_bind (runOn_attempt t'.counted _ .connect (fun _ => _) .dbc _ _ id) ?_
  intro t' _
  rw [← bind_pure (attempt cli t' _ _ _ _ _ _)]
  refine ends_bind (runOn_attempt t' _ .autocommit (fun _ => _) .dbc _ _ id) ?_
  intro t' _
  rfl

variable (cli) in
/-- How `open_connection` ends: the handler has run for the failing call. -/
def settles {α β : Type} (value : β → α) (state : β → ConnWorld σ) :
    Except (Failure σ) β → Except Exc α × ConnWorld σ
  | .ok b => (.ok (value b), state b)
  | .error f => (.error (f.exc cli), f.left cli)

theorem orElse_ends {α β : Type} {m : Act (ConnWorld σ) Exc α} {x : Except (Failure σ) β}
    {v : β → α} {s : β → ConnWorld σ} {t : ConnWorld σ} {h : Handle} (hm : m.runOn t = ends cli v s x)
    (hh : ∀ f, x = .error f → f.dbHandle = h) :
    (orElse m (closeAndRethrow cli h)).runOn t = settles cli v s x := by
  rw [runOn_orElse, hm]
  cases x with
  | ok b => rfl
  | error f =>
      obtain rfl := hh f rfl
      exact Failure.runOn_closeAndRethrow

/-- `open_connection` is its chain of calls followed by the handler of the failing one. -/
theorem runOn_openConnection (database user password : Str) (t : ConnWorld σ) :
    (openConnection cli database user password).runOn t =
      settles cli Prod.fst Prod.snd (t.opening cli database user password) := by
  have hrequest := orElse_ends (runOn_allocateDbHandle cli t) fun _ hf =>
    requesting_dbHandle hf
  unfold openConnection opening
  cases hr : t.requesting cli with
  | error f =>
      rw [hr] at hrequest
      exact runOn_bind_error hrequest _
  | ok u =>
      rw [hr] at hrequest
      have hconnect := orElse_ends (runOn_connectTo cli database user password u)
        fun _ hf => allocating_dbHandle hf
      rw [runOn_bind_ok hrequest]
      refine hconnect.trans ?_
      change _ = settles cli Prod.fst Prod.snd
        (u.allocating cli database user password >>= fun t' => pure (u.newHandle cli, t'))
      cases u.allocating cli database user password with
      | error f => rfl
      | ok u' => rfl

end Connection

end Dbgen3.Runtime
