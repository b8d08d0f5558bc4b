import Dbgen3.Runtime.Opening
import Mathlib.Data.Finset.Lattice.Fold
import Mathlib.Order.Lattice.Nat

/-!
# The handles a driver has allocated

The books of a driver follow from its answers: an accepted allocation enters a
handle and an accepted release strikes it out. A failed `open_connection` leaves
the books and the counter as they were exactly when its handler runs and the
driver takes back what the call had got.
-/

namespace Dbgen3.Runtime

open ConnWorld

variable {σ : Type} (cli : Cli σ)

/-- `SQL_SUCCEEDED`. -/
def Reply.Accepted (r : Reply) : Prop := r.rc = sqlSuccess ∨ r.rc = sqlSuccessWithInfo

instance (r : Reply) : Decidable r.Accepted := inferInstanceAs (Decidable (_ ∨ _))

theorem Reply.Accepted.of_success {r : Reply} (h : r.rc = sqlSuccess) : r.Accepted := .inl h

/-- The allocated handles, the connections that are open, and what each handle was
allocated on. -/
@[ext]
structure Books where
  envs : Finset Handle := ∅
  dbcs : Finset Handle := ∅
  stmts : Finset Handle := ∅
  connected : Finset Handle := ∅
  envOf : Handle → Handle := fun _ => 0
  dbcOf : Handle → Handle := fun _ => 0

namespace Books

/-- The allocated handles of a type. -/
def allocated (b : Books) : HandleType → Finset Handle
  | .env => b.envs
  | .dbc => b.dbcs
  | .stmt => b.stmts

/-- The books after an accepted call. A disconnect also drops the statements of the connection. -/
def enter (b : Books) (handle : Handle) : CliCall → Books
  | .allocHandle .env _ => { b with envs := insert handle b.envs }
  | .allocHandle .dbc env =>
      { b with
        dbcs := insert handle b.dbcs
        envOf := Function.update b.envOf handle env }
  | .allocHandle .stmt dbc =>
      { b with
        stmts := insert handle b.stmts
        dbcOf := Function.update b.dbcOf handle dbc }
  | .freeHandle .env h => { b with envs := b.envs.erase h }
  | .freeHandle .dbc h => { b with dbcs := b.dbcs.erase h }
  | .freeHandle .stmt h => { b with stmts := b.stmts.erase h }
  | .connect h _ _ _ => { b with connected := insert h b.connected }
  | .disconnect h =>
      { b with
        connected := b.connected.erase h
        stmts := b.stmts.filter fun s => b.dbcOf s ≠ h }
  | _ => b

/-- The books after a call and its answer. -/
def record (b : Books) (c : CliCall) (r : Reply) : Books :=
  if r.Accepted then b.enter r.handle c else b

variable {b : Books} {c : CliCall} {r : Reply}

theorem record_of_accepted (h : r.Accepted) : b.record c r = b.enter r.handle c := if_pos h

theorem record_of_not_accepted (h : ¬ r.Accepted) : b.record c r = b := if_neg h

/-- What a call that does not concern a component leaves of it. -/
theorem record_component {α : Type} (f : Books → α) (h : ∀ handle, f (b.enter handle c) = f b) :
    f (b.record c r) = f b := by
  unfold record
  split
  · exact h _
  · rfl

end Books

/-- `view` is the driver's own bookkeeping: it follows the answers, and a handle handed out
is not one that is still allocated. -/
structure Keeps (view : σ → Books) : Prop where
  records : ∀ d c, view (cli.call d c).2 = (view d).record c (cli.call d c).1
  fresh : ∀ d type input, (cli.call d (.allocHandle type input)).1.Accepted →
    (cli.call d (.allocHandle type input)).1.handle ∉ (view d).allocated type

/-- The books of the driver. -/
def ConnWorld.books (view : σ → Books) (t : ConnWorld σ) : Books := view t.world.drv

section Books

variable {cli} {view : σ → Books} (hk : Keeps cli view) (t : ConnWorld σ)
include hk

theorem books_issue (c : CliCall) :
    (t.issue cli c).books view = (t.books view).record c (t.reply cli c) :=
  hk.records t.world.drv c

/-- Calls that allocate and free no connection handle. -/
theorem books_issue_dbcs {c : CliCall} (h : ∀ (b : Books) handle, (b.enter handle c).dbcs = b.dbcs) :
    ((t.issue cli c).books view).dbcs = (t.books view).dbcs := by
  rw [books_issue hk]
  exact Books.record_component Books.dbcs (h _)

theorem books_issue_envs {c : CliCall} (h : ∀ (b : Books) handle, (b.enter handle c).envs = b.envs) :
    ((t.issue cli c).books view).envs = (t.books view).envs := by
  rw [books_issue hk]
  exact Books.record_component Books.envs (h _)

/-- Calls the books do not record. -/
theorem books_issue_same {c : CliCall} (h : ∀ (b : Books) handle, b.enter handle c = b) :
    (t.issue cli c).books view = t.books view := by
  rw [books_issue hk]
  exact Books.record_component id (h _)

omit hk in
@[simp] theorem books_counted : t.counted.books view = t.books view := rfl

omit hk in
@[simp] theorem books_uncounted : t.uncounted.books view = t.books view := by
  unfold books
  rw [uncounted_world]

end Books

/-! ## A driver that keeps its books -/

/-- A number beyond every allocated handle. -/
@[irreducible]
def Books.next (b : Books) : Handle := ((b.envs ∪ b.dbcs ∪ b.stmts).sup Int.natAbs : Nat) + 1

theorem Books.next_notMem (b : Books) (type : HandleType) : b.next ∉ b.allocated type := by
  intro h
  have hmem : b.next ∈ b.envs ∪ b.dbcs ∪ b.stmts := by
    cases type <;> simp_all [allocated]
  have hle : Int.natAbs b.next ≤ (b.envs ∪ b.dbcs ∪ b.stmts).sup Int.natAbs :=
    Finset.le_sup (f := Int.natAbs) hmem
  unfold next at hle
  omega

theorem Books.next_pos (b : Books) : 0 < b.next := by
  have hpos : (0 : Int) < ((b.envs ∪ b.dbcs ∪ b.stmts).sup Int.natAbs : Nat) + 1 := by omega
  unfold next
  exact hpos

/-- A driver whose return codes are given. It hands out a new handle with every accepted
allocation. -/
def bookCli (answer : Books → CliCall → Ret) (diags : List DiagReply) : Cli Books where
  call b c :=
    let handle := match c with
      | .allocHandle _ _ => if ({ rc := answer b c } : Reply).Accepted then b.next else 0
      | _ => 0
    ({ rc := answer b c, handle }, b.record c { rc := answer b c, handle })
  diag _ _ _ := diags

theorem bookCli_keeps (answer : Books → CliCall → Ret) (diags : List DiagReply) :
    Keeps (bookCli answer diags) id where
  records _ _ := rfl
  fresh b type input h := by
    have hhandle : ((bookCli answer diags).call b (.allocHandle type input)).1.handle = b.next :=
      if_pos h
    rw [hhandle]
    exact b.next_notMem type

/-- The driver that grants every call. -/
def grantingCli : Cli Books := bookCli (fun _ _ => sqlSuccess) []

/-- The state of a program that has opened nothing. -/
def ConnWorld.start {σ : Type} (d : σ) : ConnWorld σ := { world := .start d }

end Dbgen3.Runtime
