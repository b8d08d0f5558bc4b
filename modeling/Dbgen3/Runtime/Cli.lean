import Dbgen3.Runtime.Odbc

/-!
# The call level interface of the driver

The driver is not part of the repository. It is a parameter: a state and a
function that answers each call. A call carries the arguments the runtime
passes, and addresses of program memory are symbolic, so that an answer can
say what the driver wrote there.
-/

namespace Dbgen3.Runtime

/-- A driver handle. -/
abbrev Handle := Int

/-- A return code of the call level interface. -/
abbrev Ret := Int

def sqlSuccess : Ret := 0
def sqlSuccessWithInfo : Ret := 1
def sqlNoData : Ret := 100
def sqlError : Ret := -1

/-- The fetch direction `SQL_FETCH_NEXT`. -/
def sqlFetchNext : Int := 1

inductive HandleType
  | env | dbc | stmt
  deriving DecidableEq, Repr

/-- Identities of the program's buffer, statement and query objects. -/
abbrev BufId := Nat
abbrev StmtId := Nat
abbrev UtlId := Nat

/-- The data array of attribute `attr` (counted from zero) of buffer `buf`. -/
structure DataAddr where
  buf : BufId
  attr : Nat
  deriving DecidableEq, Repr

/-- The statement attributes the runtime sets. -/
inductive StmtAttr
  | paramsetSize | paramsProcessedPtr | paramStatusPtr | rowArraySize | rowsFetchedPtr
  deriving DecidableEq, Repr

/-- What `SQLSetStmtAttr` is given: a number or the address of a buffer's member. -/
inductive AttrValue
  | int (v : Int)
  | procesed (b : BufId)
  | sVec (b : BufId)
  | occupiedAddr (b : BufId)
  deriving DecidableEq, Repr

/-- How `SQLEndTran` ends the transaction. -/
inductive EndTran
  | commit | rollback
  deriving DecidableEq, Repr

/-- A call with its arguments. -/
inductive CliCall
  | allocHandle (type : HandleType) (input : Handle)
  | freeHandle (type : HandleType) (h : Handle)
  | setEnvAttr (h : Handle)
  | setConnectAttr (h : Handle)
  | connect (h : Handle) (database user password : Str)
  | disconnect (h : Handle)
  | endTran (h : Handle) (how : EndTran)
  | setStmtAttr (h : Handle) (attr : StmtAttr) (value : AttrValue)
  | prepare (h : Handle) (sql : Str)
  | execDirect (h : Handle) (sql : Str)
  | execute (h : Handle)
  | bindParameter (h : Handle) (ndx : Int) (cType : CType) (dbType columnSize dec : Int)
      (data : DataAddr) (bufferLength : Int)
  | bindCol (h : Handle) (ndx : Int) (cType : CType) (data : DataAddr) (bufferLength : Int)
  | fetchScroll (h : Handle) (dir len : Int)
  | closeCursor (h : Handle)
  | numParams (h : Handle)
  | numResultCols (h : Handle)
  | describeParam (h : Handle) (ndx : Int)
  | describeCol (h : Handle) (ndx : Int)
  deriving DecidableEq, Repr

/-- A stored value: null or its bytes. -/
abbrev Cell := Option (List UInt8)

/-- A write of the driver into program memory. -/
inductive MemWrite
  | processed (b : BufId) (v : Nat)
  | status (b : BufId) (i : Nat) (v : UInt16)
  | occupied (b : BufId) (v : Nat)
  | element (data : DataAddr) (row : Nat) (v : Cell)
  deriving DecidableEq, Repr

/-- The description of one parameter or column. -/
structure ColumnDscr where
  name : Str := []
  type : Int := 0
  width : Nat := 0
  dec : Int := 0
  nullable : Int := 0
  deriving DecidableEq, Repr

/-- The answer to a call: its return code and the outputs it fills. -/
structure Reply where
  rc : Ret
  handle : Handle := 0
  count : Int := 0
  dscr : ColumnDscr := {}
  writes : List MemWrite := []
  deriving DecidableEq, Repr

/-- One diagnostic record. -/
structure DiagRec where
  code : Int
  state : Str
  msg : Str
  deriving DecidableEq, Repr

/-- The answer to one `SQLGetDiagRec` call. -/
inductive DiagReply
  | success (r : DiagRec)
  | successWithInfo (msgLen : Int)
  | invalidHandle
  | error
  | noData
  | other (rc : Ret)
  deriving DecidableEq, Repr

/-- A driver. `diag` lists the answers to successive `SQLGetDiagRec` calls on a
handle; past its end the answer is `SQL_NO_DATA`. -/
structure Cli (σ : Type) where
  call : σ → CliCall → Reply × σ
  diag : σ → HandleType → Handle → List DiagReply

/-- The driver that answers every call with success and reports nothing. -/
def Cli.silent : Cli Unit where
  call _ _ := ({ rc := sqlSuccess }, ())
  diag _ _ _ := []

/-- The text a driver sees behind a `SQL_NTS` pointer. -/
def nts (s : Str) : Str := s.takeWhile (· ≠ '\x00')

end Dbgen3.Runtime
