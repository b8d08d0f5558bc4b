import Dbgen3.Lib.Act
import Dbgen3.Runtime.Cli
import Mathlib.Logic.Function.Basic

/-!
# Program objects and the driver

The objects live in tables indexed by identity, so that two pointers to one
buffer share it. Every driver call is recorded with the driver state and the
objects at the moment of the call.
-/

namespace Dbgen3.Runtime

/-- `attr_root`: the arrays of one attribute. `width` is `sizeof(T)`. -/
structure AttrRoot (arrSize : Nat) where
  dbType : Int
  dec : Int
  width : Nat
  len : Vector Int arrSize
  data : Vector (Vector UInt8 width) arrSize

/-- The indicator value of a null element. -/
def sqlNullData : Int := -1

/-- The constructor: every element is null and its storage is zero. -/
def AttrRoot.new (arrSize : Nat) (dbType dec : Int) (width : Nat) : AttrRoot arrSize :=
  { dbType, dec, width
    len := Vector.replicate arrSize sqlNullData
    data := Vector.replicate arrSize (Vector.replicate width 0) }

/-- What the driver leaves in element `i`: the null indicator, or the value's
length and its bytes in front of the old storage. -/
def AttrRoot.store {n : Nat} (a : AttrRoot n) (i : Nat) (v : Cell) : AttrRoot n :=
  if h : i < n then
    match v with
    | none => { a with len := a.len.set i sqlNullData }
    | some bytes =>
        { a with
          len := a.len.set i bytes.length
          data := a.data.set i (Vector.ofFn fun j => bytes.getD j a.data[i][j]) }
  else a

/-- The value of element `i`: null, or as many bytes as the indicator says. -/
def AttrRoot.cell {n : Nat} (a : AttrRoot n) (i : Nat) : Cell :=
  if h : i < n then
    if a.len[i] = sqlNullData then none
    else some (a.data[i].toList.take a.len[i].toNat)
  else none

/-- `buffer_root`: `attributes` is the vector of attribute addresses. -/
structure Buffer where
  bt : BufType
  arrSize : Nat
  attributes : List (AttrRoot arrSize)
  occupied : Nat := 0
  bind : Bool := false
  sVec : Vector UInt16 arrSize := Vector.replicate arrSize 0
  processed : Nat := 0

/-- What a generated class says about one attribute. -/
structure AttrDscr where
  dbType : Int
  dec : Int
  width : Nat
  deriving Repr

/-- A newly constructed buffer. -/
def Buffer.new (bt : BufType) (arrSize : Nat) (attrs : List AttrDscr) : Buffer :=
  { bt, arrSize, attributes := attrs.map fun a => .new arrSize a.dbType a.dec a.width }

/-- `statement`: the members the runtime reads. -/
structure Statement where
  sql : Str := []
  handle : Handle := 0
  isPrepared : Bool := false
  deriving Repr

/-- `utl`: the statement member, the two buffer pointers, the last return code
and the codes the generated class allows. -/
structure Utl where
  s : StmtId
  parBuf : Option BufId := none
  resBuf : Option BufId := none
  rc : Ret := sqlSuccess
  allowedCodes : List Int := []
  deriving Repr

/-- All objects of the program, by identity. -/
structure Heap where
  bufs : BufId → Buffer
  stmts : StmtId → Statement
  utls : UtlId → Utl

namespace Heap

def updBuf (hp : Heap) (b : BufId) (f : Buffer → Buffer) : Heap :=
  { hp with bufs := Function.update hp.bufs b (f (hp.bufs b)) }

def updStmt (hp : Heap) (s : StmtId) (f : Statement → Statement) : Heap :=
  { hp with stmts := Function.update hp.stmts s (f (hp.stmts s)) }

def updUtl (hp : Heap) (u : UtlId) (f : Utl → Utl) : Heap :=
  { hp with utls := Function.update hp.utls u (f (hp.utls u)) }

variable (hp : Heap) (b : BufId) (s : StmtId) (u : UtlId)

@[simp] theorem updBuf_stmts (f) : (hp.updBuf b f).stmts = hp.stmts := rfl
@[simp] theorem updBuf_utls (f) : (hp.updBuf b f).utls = hp.utls := rfl
@[simp] theorem updStmt_bufs (f) : (hp.updStmt s f).bufs = hp.bufs := rfl
@[simp] theorem updStmt_utls (f) : (hp.updStmt s f).utls = hp.utls := rfl
@[simp] theorem updUtl_bufs (f) : (hp.updUtl u f).bufs = hp.bufs := rfl
@[simp] theorem updUtl_stmts (f) : (hp.updUtl u f).stmts = hp.stmts := rfl

@[simp] theorem updBuf_same (f) : (hp.updBuf b f).bufs b = f (hp.bufs b) := by
  simp [updBuf]

@[simp] theorem updBuf_ne (f) {c : BufId} (h : c ≠ b) : (hp.updBuf b f).bufs c = hp.bufs c := by
  simp [updBuf, h]

@[simp] theorem updStmt_same (f) : (hp.updStmt s f).stmts s = f (hp.stmts s) := by
  simp [updStmt]

@[simp] theorem updStmt_ne (f) {t : StmtId} (h : t ≠ s) :
    (hp.updStmt s f).stmts t = hp.stmts t := by
  simp [updStmt, h]

@[simp] theorem updUtl_same (f) : (hp.updUtl u f).utls u = f (hp.utls u) := by
  simp [updUtl]

@[simp] theorem updUtl_ne (f) {v : UtlId} (h : v ≠ u) : (hp.updUtl u f).utls v = hp.utls v := by
  simp [updUtl, h]

end Heap

/-- Write status `v` at position `i`; a position past the end is left alone. -/
def Buffer.setStatus (b : Buffer) (i : Nat) (v : UInt16) : Buffer :=
  { b with sVec := b.sVec.setIfInBounds i v }

/-- Store a value in row `row` of attribute `attr`. -/
def Buffer.store (b : Buffer) (attr row : Nat) (v : Cell) : Buffer :=
  { b with attributes := b.attributes.modify attr fun a => a.store row v }

/-- One write of the driver. -/
def Heap.write (hp : Heap) : MemWrite → Heap
  | .processed b v => hp.updBuf b fun bf => { bf with processed := v }
  | .status b i v => hp.updBuf b fun bf => bf.setStatus i v
  | .occupied b v => hp.updBuf b fun bf => { bf with occupied := v }
  | .element data row v => hp.updBuf data.buf fun bf => bf.store data.attr row v

/-- A recorded call: its return code, and the driver and the objects just before it. -/
structure Event (σ : Type) where
  call : CliCall
  rc : Ret
  drv : σ
  heap : Heap

/-- The whole state: driver, objects and the calls made so far. -/
structure World (σ : Type) where
  drv : σ
  heap : Heap
  trace : List (Event σ) := []

/-- The world of a program that has constructed nothing and called nothing. -/
def World.start {σ : Type} (d : σ) : World σ where
  drv := d
  heap :=
    { bufs := fun _ => .new .par 0 []
      stmts := fun _ => {}
      utls := fun _ => { s := 0 } }

/-- The driver writes into buffers only. -/
theorem Heap.foldl_write_objects (ms : List MemWrite) (hp : Heap) :
    (ms.foldl Heap.write hp).stmts = hp.stmts ∧ (ms.foldl Heap.write hp).utls = hp.utls := by
  induction ms generalizing hp with
  | nil => exact ⟨rfl, rfl⟩
  | cons m ms ih =>
      have hwrite : (hp.write m).stmts = hp.stmts ∧ (hp.write m).utls = hp.utls := by
        cases m <;> exact ⟨rfl, rfl⟩
      exact ⟨(ih _).1.trans hwrite.1, (ih _).2.trans hwrite.2⟩

variable {σ : Type} (cli : Cli σ)

/-- The world after a call whose answer writes no memory. -/
def World.issue (w : World σ) (c : CliCall) : World σ :=
  { w with
    drv := (cli.call w.drv c).2
    trace := w.trace ++ [⟨c, (cli.call w.drv c).1.rc, w.drv, w.heap⟩] }

/-- The world after a call whose answer also writes memory. -/
def World.issueWriting (w : World σ) (c : CliCall) : World σ :=
  { w.issue cli c with heap := (cli.call w.drv c).1.writes.foldl Heap.write w.heap }

/-- Call the driver. -/
def cliCall (c : CliCall) : Act (World σ) Exc Reply := do
  let w ← get
  set (w.issue cli c)
  pure (cli.call w.drv c).1

/-- Call the driver where it may touch the memory it was given: executing and
fetching are the calls that read and fill deferred arguments. -/
def cliCallWriting (c : CliCall) : Act (World σ) Exc Reply := do
  let w ← get
  set (w.issueWriting cli c)
  pure (cli.call w.drv c).1

/-- Read the objects. -/
def getHeap : Act (World σ) Exc Heap := World.heap <$> get

/-- Change the objects. -/
def modifyHeap (f : Heap → Heap) : Act (World σ) Exc PUnit :=
  modify fun w => { w with heap := f w.heap }

variable (w : World σ) (c : CliCall)

@[simp] theorem runOn_cliCall :
    (cliCall cli c).runOn w = (.ok (cli.call w.drv c).1, w.issue cli c) := rfl

@[simp] theorem runOn_cliCallWriting :
    (cliCallWriting cli c).runOn w = (.ok (cli.call w.drv c).1, w.issueWriting cli c) := rfl

@[simp] theorem runOn_getHeap :
    (getHeap : Act (World σ) Exc Heap).runOn w = (.ok w.heap, w) := rfl

@[simp] theorem runOn_modifyHeap (f : Heap → Heap) :
    (modifyHeap f : Act (World σ) Exc PUnit).runOn w =
      (.ok ⟨⟩, { w with heap := f w.heap }) := rfl

@[simp] theorem issue_drv : (w.issue cli c).drv = (cli.call w.drv c).2 := rfl
@[simp] theorem issue_heap : (w.issue cli c).heap = w.heap := rfl
@[simp] theorem issue_trace :
    (w.issue cli c).trace = w.trace ++ [⟨c, (cli.call w.drv c).1.rc, w.drv, w.heap⟩] := rfl
@[simp] theorem issueWriting_drv : (w.issueWriting cli c).drv = (cli.call w.drv c).2 := rfl
@[simp] theorem issueWriting_trace :
    (w.issueWriting cli c).trace = (w.issue cli c).trace := rfl

@[simp] theorem issueWriting_stmts : (w.issueWriting cli c).heap.stmts = w.heap.stmts :=
  (Heap.foldl_write_objects _ _).1

@[simp] theorem issueWriting_utls : (w.issueWriting cli c).heap.utls = w.heap.utls :=
  (Heap.foldl_write_objects _ _).2

end Dbgen3.Runtime
