import Dbgen3.Generator.Dom
import Dbgen3.Generator.Dscr
import Dbgen3.Lib.Path
import Dbgen3.Runtime.Statement

/-!
# Loading a document

The document is read into descriptions. The SQL text of each query is prepared
on the database, which describes the parameters and the columns.
-/

namespace Dbgen3.Generator

open Act Text
open Dbgen3.Runtime (BufType Cli World Handle StmtId cliCall getHeap sqlSuccess)

variable {σ : Type} (cli : Cli σ)

/-! ## Buffers and SQL texts -/

/-- `core_parser::load_buf`. -/
def loadBuf (bt : BufType) (attrs : Attrs) : GsqlQbufDscr :=
  let r : GsqlQbufDscr :=
    { type := bt
      id := attrValue attrs "id" bt.name
      skip := attrValueB attrs "skip" false }
  r.setNames (attrValue attrs "columns" "")

/-- `core_parser::load_sql_set_sql`: only generic texts and texts for the target count. -/
def loadSqlSetSql (attrs : Attrs) (children : List Dom) (ctx : List Str) (dbType : Rdbms)
    (ndx : Nat) (r : GsqlSqlSet) : Except Exc GsqlSqlSet :=
  match Rdbms.ofName (attrValue attrs "rdbms" Rdbms.sql.name) with
  | none => .ok r
  | some rdbms =>
      if rdbms = .sql ∨ rdbms = dbType then do
        let (sql, sqlPrep) ← getTextNodeWithPrepare ctx [] [] children
        let sqlDscr := GsqlSqlDscr.new rdbms (View.ofStr sql) (View.ofStr sqlPrep)
        let (res, r) := r.put sqlDscr
        if res = .ambiguous then
          throw (.dbgen3Exc .duplicateSqlBufDef
            (message .duplicateSqlBufDef [ctx.getD 1 [], decimal ndx, rdbms.name]))
        else pure r
      else .ok r

/-! ## Columns -/

/-- The exception made of the diagnostics of a statement handle. -/
def throwStmtError {α : Type} (h : Handle) : Act (World σ) Exc α := do
  let w ← get
  let errors ← fromResult (Runtime.load cli w.drv .stmt h)
  throw (.errorException (Runtime.errorDump errors []))

/-- The name of a column: the one that is given, or the one of the database in lower case. -/
def fieldName (defName : Str) (bt : BufType) (ndx : Nat) (column : Str) : Str :=
  if defName ≠ [] then defName
  else
    let name := match bt with
      | .par => "par_" ++ decimal (ndx + 1)
      | .res => column
    name.map tolower

/-- The field of a description the database gave. -/
def describedField (defName : Str) (bt : BufType) (ndx : Nat) (d : Runtime.ColumnDscr) :
    Except Exc FldDscr :=
  match OdbcType.ofCode (int16 d.type) with
  | none => .error (.runtimeError ("Unsupported column type " ++ intDecimal (int16 d.type)))
  | some type =>
      match Dbn.ofCode (int16 d.nullable) with
      | none => .error (.stdExc .badOptionalAccess)
      | some nulls =>
          .ok (FldDscr.new (ndx + 1) (fieldName defName bt ndx d.name) type (d.width % 2 ^ 32)
            (int16 d.dec) nulls)

/-- `core_parser::load_fld_dscr`: the ordinal is a 16-bit unsigned number. -/
def loadFldDscr (defName : Str) (bt : BufType) (h : Handle) (ndx : Nat) :
    Act (World σ) Exc FldDscr := do
  let ordinal : Int := ((ndx + 1) % 2 ^ 16 : Nat)
  let reply ← cliCall cli (match bt with
    | .par => .describeParam h ordinal
    | .res => .describeCol h ordinal)
  if reply.rc = sqlSuccess then fromResult (describedField defName bt ndx reply.dscr)
  else throwStmtError cli h

/-- The loop of `core_parser::fetch_param_dscr`: `n` more fields from position `cnt` on. -/
def fetchFields (names : List Str) (bt : BufType) (h : Handle) :
    Nat → Nat → Act (World σ) Exc (List FldDscr)
  | 0, _ => pure []
  | n + 1, cnt => do
      let fld ← loadFldDscr cli (names.getD cnt []) bt h cnt
      let flds ← fetchFields names bt h n (cnt + 1)
      pure (fld :: flds)

/-- `core_parser::fetch_param_dscr`. -/
def fetchParamDscr (names : List Str) (bt : BufType) (stmt : StmtId) :
    Act (World σ) Exc (List FldDscr) := do
  let hp ← getHeap
  let h := (hp.stmts stmt).handle
  let reply ← cliCall cli (match bt with
    | .par => .numParams h
    | .res => .numResultCols h)
  if reply.rc = sqlSuccess then fetchFields cli names bt h (int16 reply.count).toNat 0
  else throwStmtError cli h

/-! ## Queries -/

/-- The identities of the two local statements. -/
def stmtM : StmtId := 0
def stmtP : StmtId := 1

/-- Execute the prepare text, where there is one. -/
def executePrep (sqlPrep : Str) : Act (World σ) Exc Runtime.Ret :=
  if sqlPrep ≠ [] then Runtime.Statement.execDirect cli stmtP sqlPrep true else pure sqlSuccess

/-- Fetch and store the fields of a buffer. -/
def describeBuf (b : GsqlQbufDscr) : Act (World σ) Exc GsqlQbufDscr := do
  let flds ← fetchParamDscr cli b.names b.type stmtM
  fromResult (b.setFlds flds)

/-- The body of `core_parser::load_q_sqlset_from_db` with both statements constructed. The
return code of the preparation is not looked at. -/
def describeQuery (r : GsqlQ) (db : Handle) : Act (World σ) Exc GsqlQ := do
  let _ ← executePrep cli r.sqlPrep
  let _ ← Runtime.Statement.prepare cli stmtM r.sql
  let par ← describeBuf cli r.par
  let res ← describeBuf cli r.res
  let _ ← Runtime.Statement.rollback cli db
  let _ ← Runtime.Statement.rollback cli db
  pure { r with par, res }

/-- `core_parser::load_q_sqlset_from_db`: nothing is described without a text. -/
def loadQSqlsetFromDb (r : GsqlQ) (db : Handle) : Act (World σ) Exc GsqlQ :=
  if r.sql ≠ [] then
    Runtime.Statement.withLocal cli stmtM db
      (Runtime.Statement.withLocal cli stmtP db (describeQuery cli r db))
  else pure r

/-- What the loop of `core_parser::load_q_children` has collected. -/
structure Collected where
  q : GsqlQ
  sqlSet : GsqlSqlSet
  sqlCnt : Nat := 0

/-- One child in the loop of `core_parser::load_q_children`. The build path that ends the
message for a foreign element is left out. -/
def loadQChild (ctx : List Str) (dbType : Rdbms) (c : Collected) : Dom → Except Exc Collected
  | .element locName attrs children =>
      if locName = "qp".toList then .ok { c with q := c.q.setBufDscr (loadBuf .par attrs) }
      else if locName = "qr".toList then .ok { c with q := c.q.setBufDscr (loadBuf .res attrs) }
      else if locName = "sql".toList then do
        let sqlCnt := c.sqlCnt + 1
        let sqlSet ← loadSqlSetSql attrs children ctx dbType sqlCnt c.sqlSet
        pure { c with sqlSet, sqlCnt }
      else
        .error (.runtimeError ("internal error only qp, qr and sql-set allowed." ++ locName ++ " "))
  | .text _ | .comment => .ok c
  | .cdataSection _ => .error (notElement .cdataSectionNode)
  | .other type => .error (notElement type)
where
  notElement (type : NodeType) : Exc :=
    .runtimeError ("Should be ELEMENT_NODE, TEXT_NOD or COMMENT_NODE, but it is '" ++ type.name ++
      "' ctx: " ++ ctxToStr ctx)

/-- The loop of `core_parser::load_q_children`. -/
def collect (ctx : List Str) (dbType : Rdbms) : Collected → List Dom → Except Exc Collected
  | c, [] => .ok c
  | c, n :: rest => do
      let c ← loadQChild ctx dbType c n
      collect ctx dbType c rest

/-- `core_parser::load_q_children`. -/
def loadQChildren (children : List Dom) (ctx : List Str) (db : Handle) (dbType : Rdbms)
    (r : GsqlQ) : Act (World σ) Exc GsqlQ := do
  let c ← fromResult (collect ctx dbType { q := r, sqlSet := { dbType } } children)
  if ! c.sqlSet.empty then loadQSqlsetFromDb cli (c.q.setSqlSet c.sqlSet) db
  else pure c.q

/-- `core_parser::load_q`. -/
def loadQ (attrs : Attrs) (children : List Dom) (ndx : Nat) (ctx : List Str) (db : Handle)
    (dbType : Rdbms) : Act (World σ) Exc GsqlQ := do
  let r : GsqlQ :=
    { id := attrValue attrs "id" ("q_" ++ decimal ndx)
      par := .new .par false
      res := .new .res false
      sqlSet := { dbType } }
  let r := r.setAllowed (attrValue attrs "allowed" "")
  loadQChildren cli children (ctx ++ [r.id]) db dbType r

/-! ## Query sets -/

/-- `core_parser::q_set_id`. -/
def qSetId (attrs : Attrs) (filename : Str) : Str := attrValue attrs "id" (Path.stem filename)

/-- The loop of `core_parser::load_q_set`. `qNdx` counts the queries so far. -/
def loadQSetFrom (ctx : List Str) (db : Handle) (dbType : Rdbms) :
    Nat → GsqlQSet → List Dom → Act (World σ) Exc GsqlQSet
  | _, set, [] => pure set
  | qNdx, set, .element locName attrs children :: rest =>
      if locName = "hdr".toList then do
        let header ← fromResult (getTextNode ctx children)
        loadQSetFrom ctx db dbType qNdx (set.setHeader header) rest
      else if locName = "q".toList then do
        let q ← loadQ cli attrs children (qNdx + 1) ctx db dbType
        let (sts, set) := set.qInsert q
        if ! sts then
          throw (.dbgen3Exc .duplicateSqlDscrDef (message .duplicateSqlDscrDef [set.id]))
        else loadQSetFrom ctx db dbType (qNdx + 1) set rest
      else loadQSetFrom ctx db dbType qNdx set rest
  | qNdx, set, _ :: rest => loadQSetFrom ctx db dbType qNdx set rest

/-- `core_parser::load_q_set`. -/
def loadQSet (attrs : Attrs) (children : List Dom) (filename : Str) (db : Handle)
    (dbType : Rdbms) : Act (World σ) Exc GsqlQSet :=
  let id := qSetId attrs filename
  loadQSetFrom cli [id] db dbType 0 { id } children

end Dbgen3.Generator
