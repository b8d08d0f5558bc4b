import Dbgen3.Generator.Enums
import Dbgen3.Generator.MultiLine
import Dbgen3.Runtime.Odbc
import Mathlib.Data.List.Sort

/-!
# Descriptions of queries

What the parser builds and the code generator reads: columns, buffers, SQL
texts, queries and sets of queries.
-/

namespace Dbgen3.Generator

open Text
open Dbgen3.Runtime (BufType ctName)

/-! ## Columns -/

/-- `fld_dscr`. -/
structure FldDscr where
  pos : Nat
  name : Str
  aName : Str
  type : OdbcType
  width : Nat
  dec : Int
  nullable : Dbn
  deriving DecidableEq, Repr

namespace FldDscr

/-- The constructor; the position is a 32-bit unsigned number. -/
def new (pos : Nat) (name : Str) (type : OdbcType) (width : Nat) (dec : Int) (nulls : Dbn) :
    FldDscr :=
  { pos, name, type, width, dec
    nullable := nulls
    aName := "a_" ++ zeroPadded 2 ((pos + (2 ^ 32 - 1)) % 2 ^ 32) ++ "_" }

theorem new_aName {k : Nat} (hk : k < 2 ^ 32) (name type width dec nulls) :
    (new (k + 1) name type width dec nulls).aName = "a_" ++ zeroPadded 2 k ++ "_" := by
  have h : (k + 1 + (2 ^ 32 - 1)) % 2 ^ 32 = k := by omega
  rw [new, h]

/-- `fld_dscr::dump`. -/
def dump (f : FldDscr) : Str :=
  sl ("[" ++ padLeft 3 (decimal f.pos) ++ "]:\x7bname: " ++ padRight 25 f.name ++ " a_name: " ++
    padRight 4 f.aName ++ " type: " ++ padLeft 5 (intDecimal f.type.code) ++ " t.name: " ++
    padRight 20 f.type.name ++ " width: " ++ padLeft 5 (decimal f.width) ++ " dec: " ++
    padLeft 2 (intDecimal f.dec) ++ " null: " ++ padRight 12 f.nullable.name ++ " \x7d")

end FldDscr

/-! ## Buffers -/

/-- `gsql_qbuf_dscr`. -/
structure GsqlQbufDscr where
  type : BufType := .res
  id : Str := []
  skip : Bool := false
  flds : List FldDscr := []
  names : List Str := []
  maxNameLen : Nat := 0
  maxCtypeLen : Nat := 0
  deriving DecidableEq, Repr

namespace GsqlQbufDscr

/-- The constructor from a type and a skip flag: the id is the name of the type. -/
def new (type : BufType) (shouldSkip : Bool) : GsqlQbufDscr :=
  { type, id := type.name, skip := shouldSkip }

/-- `class_name`. -/
def className (b : GsqlQbufDscr) : Str := snakeCase b.id

/-- `is_required`. -/
def isRequired (b : GsqlQbufDscr) : Bool := ! b.flds.isEmpty

/-- `set_names`. -/
def setNames (b : GsqlQbufDscr) (names : Str) : GsqlQbufDscr :=
  { b with names := split (View.ofStr names) ' ' }

/-- `calc_max_name_length`. -/
def calcMaxNameLength (vec : List FldDscr) : Nat :=
  vec.foldl (fun len fld => if fld.name.length > len then fld.name.length else len) 0

/-- The loop of `calc_max_ctype_length`, which makes a string of every C type name. -/
def maxCtypeFrom (len : Nat) : List FldDscr → Except Exc Nat
  | [] => .ok len
  | fld :: rest =>
      match ctName fld.type.code with
      | none => .error (.stdExc .logicError)
      | some name => maxCtypeFrom (if name.length > len then name.length else len) rest

theorem maxCtypeFrom_ok_iff {len : Nat} {flds : List FldDscr} :
    (∃ n, maxCtypeFrom len flds = .ok n) ↔ ∀ fld ∈ flds, ctName fld.type.code ≠ none := by
  induction flds generalizing len with
  | nil => exact iff_of_true ⟨len, rfl⟩ nofun
  | cons fld flds ih =>
      rw [maxCtypeFrom, List.forall_mem_cons]
      cases hname : ctName fld.type.code with
      | none => exact iff_of_false nofun fun h => h.1 rfl
      | some name => exact ih.trans (and_iff_right (Option.some_ne_none name)).symm

/-- `calc_max_ctype_length`. -/
def calcMaxCtypeLength (vec : List FldDscr) : Except Exc Nat := maxCtypeFrom 0 vec

/-- `set_flds`. -/
def setFlds (b : GsqlQbufDscr) (flds : List FldDscr) : Except Exc GsqlQbufDscr := do
  let maxCtypeLen ← calcMaxCtypeLength flds
  pure { b with flds, maxCtypeLen, maxNameLen := calcMaxNameLength flds }

end GsqlQbufDscr

/-! ## SQL texts -/

/-- `gsql_sql_dscr`. -/
structure GsqlSqlDscr where
  dbType : Rdbms := .sql
  mlSql : MultiLine := {}
  mlSqlPrep : MultiLine := {}
  deriving DecidableEq, Repr

namespace GsqlSqlDscr

/-- The constructor from two views. -/
def new (db : Rdbms) (sql sqlPrep : View) : GsqlSqlDscr :=
  { dbType := db, mlSql := .ofView sql, mlSqlPrep := .ofView sqlPrep }

/-- `sql`. -/
def sql (d : GsqlSqlDscr) : Str := d.mlSql.toStr

/-- `sql_prep`. -/
def sqlPrep (d : GsqlSqlDscr) : Str := d.mlSqlPrep.toStr

end GsqlSqlDscr

/-- `gsql_sql_set`: the best description so far. -/
structure GsqlSqlSet where
  sqlDscr : GsqlSqlDscr := {}
  dbType : Rdbms
  empty : Bool := true
  deriving DecidableEq, Repr

namespace GsqlSqlSet

/-- `put`. -/
def put (r : GsqlSqlSet) (val : GsqlSqlDscr) : InsOp × GsqlSqlSet :=
  if ! r.empty then
    let oldSql := r.sqlDscr.dbType
    let newSql := val.dbType
    if oldSql = newSql then (.ambiguous, r)
    else if newSql.code > oldSql.code then (.specific, { r with sqlDscr := val })
    else (.skip, r)
  else (.inserted, { r with empty := false, sqlDscr := val })

end GsqlSqlSet

/-! ## Queries -/

/-- `gsql_q`: `q_buf_arr` has one entry for each buffer type. -/
structure GsqlQ where
  id : Str := []
  par : GsqlQbufDscr := {}
  res : GsqlQbufDscr := {}
  sqlSet : GsqlSqlSet
  allowed : List Int := []
  deriving DecidableEq, Repr

/-- One `iss >> number`: blanks, an optional sign and decimal digits that make an `int`. -/
def readInt (t : Str) : Option (Int × Str) :=
  let t := t.dropWhile isspace
  let (neg, t) := match t with
    | '-' :: rest => (true, rest)
    | '+' :: rest => (false, rest)
    | rest => (false, rest)
  let digits := t.takeWhile Char.isDigit
  let value : Int := Nat.ofDigitChars 10 digits 0
  let number := if neg then -value else value
  if digits = [] ∨ number < -(2 ^ 31) ∨ 2 ^ 31 ≤ number then none
  else some (number, t.drop digits.length)

/-- The loop `while (iss >> number)`; every number read takes a character at least. -/
def readInts : Nat → Str → List Int
  | 0, _ => []
  | fuel + 1, t =>
      match readInt t with
      | none => []
      | some (number, rest) => number :: readInts fuel rest

namespace GsqlQ

/-- `namespace_str`. -/
def namespaceStr (q : GsqlQ) : Str := snakeCase q.id

/-- `buf_dscr`. -/
def bufDscr (q : GsqlQ) : BufType → GsqlQbufDscr
  | .par => q.par
  | .res => q.res

/-- `buf`: the entries in order. -/
def buf (q : GsqlQ) : List GsqlQbufDscr := [q.par, q.res]

/-- `set_buf_dscr`: the entry of the buffer's own type. -/
def setBufDscr (q : GsqlQ) (b : GsqlQbufDscr) : GsqlQ :=
  match b.type with
  | .par => { q with par := b }
  | .res => { q with res := b }

/-- `set_allowed`. -/
def setAllowed (q : GsqlQ) (allowed : Str) : GsqlQ :=
  { q with
    allowed := (q.allowed ++ readInts allowed.length allowed).insertionSort (· ≤ ·) }

/-- `set_sql_set`. -/
def setSqlSet (q : GsqlQ) (o : GsqlSqlSet) : GsqlQ := { q with sqlSet := o }

/-- `sql`. -/
def sql (q : GsqlQ) : Str := q.sqlSet.sqlDscr.sql

/-- `sql_prep`. -/
def sqlPrep (q : GsqlQ) : Str := q.sqlSet.sqlDscr.sqlPrep

end GsqlQ

/-- `gsql_q_set`. -/
structure GsqlQSet where
  header : MultiLine := {}
  id : Str := []
  qDic : List (Str × Nat) := []
  qVec : List GsqlQ := []
  deriving DecidableEq, Repr

namespace GsqlQSet

/-- `namespace_str`. -/
def namespaceStr (q : GsqlQSet) : Str := snakeCase q.id

/-- `set_header`. -/
def setHeader (q : GsqlQSet) (header : Str) : GsqlQSet :=
  { q with header := .ofView (View.ofStr header) }

/-- `q_insert`: whether the id was new to the dictionary. -/
def qInsert (set : GsqlQSet) (q : GsqlQ) : Bool × GsqlQSet :=
  let qVec := set.qVec ++ [q]
  if set.qDic.any fun entry => entry.1 == q.id then (false, { set with qVec })
  else (true, { set with qVec, qDic := set.qDic ++ [(q.id, qVec.length - 1)] })

end GsqlQSet

end Dbgen3.Generator
