import Dbgen3.Lib.Runs
import Dbgen3.Runtime.Books

/-!
# Programs with connection and statement objects

A program constructs, copies, assigns, uses and destroys connections and
statements in any order. The copy and move operations of both classes are
defaulted: the handle is a number, so the source keeps it.
-/

namespace Dbgen3.Runtime

open Act Runs

variable {σ : Type} (cli : Cli σ)

/-- Identities of the program's connection objects. -/
abbrev ConnId := Nat

/-- The live objects: a connection has its `db_handle_`, and the statements that are live
have theirs in the world. -/
structure Session (σ : Type) where
  base : ConnWorld σ
  conns : ConnId → Option Handle := fun _ => none
  stmts : StmtId → Bool := fun _ => false
  ended : Bool := false

/-- What a program does with a statement. -/
inductive StmtOp
  | execDirect (sql : Str) (shouldThrow : Bool)
  | prepare (sql : Str)
  | exec
  | fetchScroll (dir : Int) (len : Nat) (shouldThrow : Bool)

/-- The method of `statement` behind it. -/
def StmtOp.run (s : StmtId) : StmtOp → Act (World σ) Exc Ret
  | .execDirect sql shouldThrow => Statement.execDirect cli s sql shouldThrow
  | .prepare sql => Statement.prepare cli s sql
  | .exec => Statement.exec cli s
  | .fetchScroll dir len shouldThrow => Statement.fetchScroll cli s dir len shouldThrow

/-- One operation of the program. -/
inductive Op
  | connect (c : ConnId) (database user password : Str)
  | copyConnection (c source : ConnId)
  | moveConnection (c source : ConnId)
  | assignConnection (c source : ConnId)
  | moveAssignConnection (c source : ConnId)
  | destroyConnection (c : ConnId)
  | newStatement (s : StmtId) (c : ConnId) (sql : Str)
  | copyStatement (s source : StmtId)
  | moveStatement (s source : StmtId)
  | destroyStatement (s : StmtId)
  | execute (s : StmtId) (op : StmtOp)
  | commit (c : ConnId)
  | rollback (c : ConnId)

namespace Session

variable (s : Session σ)

/-- The static members and the world after a computation on them. -/
def onBase {α : Type} (m : Act (ConnWorld σ) Exc α) : Session σ :=
  { s with base := (m.runOn s.base).2 }

/-- The constructor of `connection`: an exception leaves no object. -/
def connect (c : ConnId) (database user password : Str) : Session σ :=
  match s.conns c with
  | some _ => s
  | none =>
      match (Connection.openConnection cli database user password).runOn s.base with
      | (.ok h, t) => { s with base := t, conns := Function.update s.conns c (some h) }
      | (.error _, t) => { s with base := t }

/-- The defaulted constructors from another connection. -/
def duplicate (c source : ConnId) : Session σ :=
  match s.conns c, s.conns source with
  | none, some h => { s with conns := Function.update s.conns c (some h) }
  | _, _ => s

/-- The defaulted assignments from another connection. -/
def assign (c source : ConnId) : Session σ :=
  match s.conns c, s.conns source with
  | some _, some h => { s with conns := Function.update s.conns c (some h) }
  | _, _ => s

/-- The destructor of `connection`. -/
def destroyConnection (c : ConnId) : Session σ :=
  match s.conns c with
  | some h =>
      { s.onBase (Connection.closeConnection cli h) with conns := Function.update s.conns c none }
  | none => s

/-- The constructor of `statement`: an exception leaves no object. -/
def newStatement (st : StmtId) (c : ConnId) (sql : Str) : Session σ :=
  match s.stmts st, s.conns c with
  | false, some h =>
      match (onWorld (Statement.new cli st h sql)).runOn s.base with
      | (.ok _, t) => { s with base := t, stmts := Function.update s.stmts st true }
      | (.error _, t) => { s with base := t }
  | _, _ => s

/-- The defaulted constructors from another statement. -/
def duplicateStatement (st source : StmtId) : Session σ :=
  match s.stmts st, s.stmts source with
  | false, true =>
      { s.onBase (onWorld (modifyHeap fun hp => hp.updStmt st fun _ => hp.stmts source)) with
        stmts := Function.update s.stmts st true }
  | _, _ => s

/-- The destructor of `statement`: its exception ends the program. -/
def destroyStatement (st : StmtId) : Session σ :=
  match s.stmts st with
  | true =>
      match (onWorld (Statement.dispose cli st)).runOn s.base with
      | (.ok _, t) => { s with base := t, stmts := Function.update s.stmts st false }
      | (.error _, t) =>
          { s with base := t, stmts := Function.update s.stmts st false, ended := true }
  | false => s

/-- A method of a live statement. -/
def execute (st : StmtId) (op : StmtOp) : Session σ :=
  match s.stmts st with
  | true => s.onBase (onWorld (op.run cli st))
  | false => s

/-- A method of a live connection. -/
def endTran (c : ConnId) (m : Handle → Act (World σ) Exc Ret) : Session σ :=
  match s.conns c with
  | some h => s.onBase (onWorld (m h))
  | none => s

/-- One operation of a program that has not ended. -/
def perform : Op → Session σ
  | .connect c database user password => s.connect cli c database user password
  | .copyConnection c source | .moveConnection c source => s.duplicate c source
  | .assignConnection c source | .moveAssignConnection c source => s.assign c source
  | .destroyConnection c => s.destroyConnection cli c
  | .newStatement st c sql => s.newStatement cli st c sql
  | .copyStatement st source | .moveStatement st source => s.duplicateStatement st source
  | .destroyStatement st => s.destroyStatement cli st
  | .execute st op => s.execute cli st op
  | .commit c => s.endTran c (Connection.commit cli)
  | .rollback c => s.endTran c (Connection.rollback cli)

/-- One operation. -/
def step (op : Op) : Session σ := if s.ended then s else s.perform cli op

/-- A program: its operations in order. -/
def run (ops : List Op) : Session σ := ops.foldl (step cli) s

end Session

end Dbgen3.Runtime
