import Dbgen3.Generator.BufferClasses
import Dbgen3.Generator.Columns
import Dbgen3.Generator.Namespaces

/-!
# The buffers of a loaded query

A buffer has the attributes of the last element for it, and the defaults where
there is none. The database gives it one field for each parameter or column.
-/

namespace Dbgen3.Generator

open Act Text
open Dbgen3.Runtime (BufType Cli World Handle ctName cliCall)

/-! ## Elements -/

/-- The name of the elements for the buffers of a type. -/
def bufElement : BufType → Str
  | .par => "qp"
  | .res => "qr"

/-- The attributes of the last element for the buffers of a type. -/
def lastBufAttrs (bt : BufType) : List Dom → Option Attrs
  | [] => none
  | .element name attrs _ :: rest =>
      (lastBufAttrs bt rest).or (if name = bufElement bt then some attrs else none)
  | _ :: rest => lastBufAttrs bt rest

/-- The attributes of a buffer. -/
def bufAttrs (bt : BufType) (children : List Dom) : Attrs := (lastBufAttrs bt children).getD []

theorem mem_of_lastBufAttrs {bt : BufType} {children : List Dom} {attrs : Attrs}
    (h : lastBufAttrs bt children = some attrs) :
    ∃ cs, .element (bufElement bt) attrs cs ∈ children := by
  induction children with
  | nil => cases h
  | cons n rest ih =>
      have hrest : lastBufAttrs bt rest = some attrs →
          ∃ cs, .element (bufElement bt) attrs cs ∈ n :: rest := by
        intro h
        obtain ⟨cs, hmem⟩ := ih h
        exact ⟨cs, List.mem_cons_of_mem _ hmem⟩
      cases n with
      | element name attrs' cs =>
          rcases Option.or_eq_some_iff.mp h with h | ⟨-, h⟩
          · exact hrest h
          · split at h
            · next hname =>
              obtain rfl := Option.some.inj h
              exact ⟨cs, hname ▸ List.mem_cons_self⟩
            · cases h
      | text data => exact hrest h
      | cdataSection data => exact hrest h
      | comment => exact hrest h
      | other type => exact hrest h

theorem lastBufAttrs_cons (bt : BufType) (n : Dom) (rest : List Dom) :
    lastBufAttrs bt (n :: rest) = (lastBufAttrs bt rest).or (lastBufAttrs bt [n]) := by
  cases n with
  | element name attrs cs => rfl
  | _ => exact (Option.or_none).symm

/-- The buffer that the children make of a buffer. -/
def bufOf (bt : BufType) (children : List Dom) (b : GsqlQbufDscr) : GsqlQbufDscr :=
  ((lastBufAttrs bt children).map (loadBuf bt)).getD b

theorem setBufDscr_loadBuf (q : GsqlQ) (bt bt' : BufType) (attrs : Attrs) :
    (q.setBufDscr (loadBuf bt attrs)).bufDscr bt' =
      if bt = bt' then loadBuf bt attrs else q.bufDscr bt' := by
  cases bt with
  | par => cases bt' <;> rfl
  | res => cases bt' <;> rfl

variable {ctx : List Str} {target : Rdbms}

theorem loadQChild_bufDscr {n : Dom} {c c' : Collected}
    (h : loadQChild ctx target c n = .ok c') (bt : BufType) :
    c'.q.bufDscr bt = bufOf bt [n] (c.q.bufDscr bt) := by
  cases n with
  | element name attrs cs =>
      have hlast : lastBufAttrs bt [.element name attrs cs] =
          if name = bufElement bt then some attrs else none := rfl
      rw [bufOf, hlast]
      rw [loadQChild] at h
      split at h
      · next hqp =>
        subst hqp
        obtain rfl := Except.ok.inj h
        rw [setBufDscr_loadBuf]
        cases bt with
        | par => rfl
        | res => rfl
      · next hqp =>
        split at h
        · next hqr =>
          subst hqr
          obtain rfl := Except.ok.inj h
          rw [setBufDscr_loadBuf]
          cases bt with
          | par => rfl
          | res => rfl
        · next hqr =>
          have hname : name ≠ bufElement bt := by
            cases bt with
            | par => exact hqp
            | res => exact hqr
          rw [if_neg hname]
          split at h
          · obtain ⟨r, -, h⟩ := except_bind_eq_ok h
            obtain rfl := Except.ok.inj h
            rfl
          · cases h
  | text data =>
      obtain rfl := Except.ok.inj h
      rfl
  | comment =>
      obtain rfl := Except.ok.inj h
      rfl
  | cdataSection data => cases h
  | other type => cases h

theorem collect_bufDscr {children : List Dom} {c c' : Collected}
    (h : collect ctx target c children = .ok c') (bt : BufType) :
    c'.q.bufDscr bt = bufOf bt children (c.q.bufDscr bt) := by
  induction children generalizing c with
  | nil =>
      obtain rfl := Except.ok.inj h
      rfl
  | cons n rest ih =>
      obtain ⟨c₁, hn, h⟩ := except_bind_eq_ok h
      rw [ih h, loadQChild_bufDscr hn bt, bufOf, bufOf, bufOf, lastBufAttrs_cons bt n rest]
      cases lastBufAttrs bt rest with
      | none => rfl
      | some attrs => rfl

/-- A query without an element for a buffer has the one of an element without attributes. -/
theorem bufOf_newQuery (attrs : Attrs) (ndx : Nat) (target : Rdbms) (bt : BufType)
    (children : List Dom) :
    bufOf bt children ((newQuery attrs ndx target).bufDscr bt) =
      loadBuf bt (bufAttrs bt children) := by
  have hnew : (newQuery attrs ndx target).bufDscr bt = loadBuf bt [] := by
    cases bt <;> rfl
  rw [bufOf, bufAttrs, hnew]
  cases lastBufAttrs bt children <;> rfl

/-! ## Fields -/

variable {σ : Type} (cli : Cli σ)

/-- A name that the database gives a parameter or column. -/
def Answered (bt : BufType) (column : Str) : Prop :=
  ∃ d h ordinal, (cli.call d (describeCall bt h ordinal)).1.dscr.name = column

/-- The fields have the names that are given from a position on, and the ones made of the names
of the database where none is given. -/
structure NamedFrom (names : List Str) (bt : BufType) (cnt : Nat) (columns : List Str)
    (flds : List FldDscr) : Prop where
  answered : ∀ column ∈ columns, Answered cli bt column
  name : ∀ k : Nat, flds[k]?.map FldDscr.name =
    columns[k]?.map (fieldName (names.getD (cnt + k) []) bt (cnt + k))

/-- A buffer with the fields of columns that the database describes. -/
structure BufLoaded (b : GsqlQbufDscr) (columns : List Str) (r : GsqlQbufDscr) : Prop where
  type : r.type = b.type
  id : r.id = b.id
  skip : r.skip = b.skip
  flds : NamedFrom cli b.names b.type 0 columns r.flds
  typed : ∀ el ∈ r.flds, ctName el.type.code ≠ none

variable {cli}

theorem describedField_name {defName : Str} {bt : BufType} {ndx : Nat} {d : Runtime.ColumnDscr}
    {fld : FldDscr} (h : describedField defName bt ndx d = .ok fld) :
    fld.name = fieldName defName bt ndx d.name := by
  unfold describedField at h
  split at h
  · cases h
  · split at h
    · cases h
    · obtain rfl := Except.ok.inj h
      rfl

theorem yields_throwStmtError {α : Type} {P : α → Prop} (h : Handle) :
    Yields P (throwStmtError cli h : Act (World σ) Exc α) :=
  yields_bind fun _ => yields_bind fun _ => yields_throw _

theorem yields_describeCall (bt : BufType) (h : Handle) (ordinal : Int) :
    Yields (fun reply => Answered cli bt reply.dscr.name)
      (cliCall cli (describeCall bt h ordinal)) := by
  intro w reply w' hrun
  obtain rfl := Except.ok.inj (Prod.mk.inj hrun).1
  exact ⟨w.drv, h, ordinal, rfl⟩

theorem yields_loadFldDscr (defName : Str) (bt : BufType) (h : Handle) (ndx : Nat) :
    Yields (fun fld => ∃ column, Answered cli bt column ∧ fld.name = fieldName defName bt ndx column)
      (loadFldDscr cli defName bt h ndx) := by
  refine (yields_describeCall bt h _).bind fun reply hreply => ?_
  apply Yields.ite
  · exact yields_fromResult fun fld hfld => ⟨_, hreply, describedField_name hfld⟩
  · exact yields_throwStmtError h

theorem yields_fetchFields (names : List Str) (bt : BufType) (h : Handle) (n cnt : Nat) :
    Yields (fun flds => ∃ columns, NamedFrom cli names bt cnt columns flds)
      (fetchFields cli names bt h n cnt) := by
  induction n generalizing cnt with
  | zero => exact yields_pure ⟨[], nofun, fun _ => rfl⟩
  | succ n ih =>
      refine (yields_loadFldDscr _ bt h cnt).bind fun fld hfld => ?_
      refine (ih (cnt + 1)).bind fun flds hflds => yields_pure ?_
      obtain ⟨column, hans, hname⟩ := hfld
      obtain ⟨columns, hflds⟩ := hflds
      refine ⟨column :: columns, List.forall_mem_cons.mpr ⟨hans, hflds.answered⟩, ?_⟩
      intro k
      cases k with
      | zero => exact congrArg some hname
      | succ k =>
          have hk := hflds.name k
          rw [Nat.add_right_comm, Nat.add_assoc] at hk
          exact hk

theorem yields_fetchParamDscr (names : List Str) (bt : BufType) (stmt : Runtime.StmtId) :
    Yields (fun flds => ∃ columns, NamedFrom cli names bt 0 columns flds)
      (fetchParamDscr cli names bt stmt) := by
  refine yields_bind fun hp => yields_bind fun reply => ?_
  apply Yields.ite
  · exact yields_fetchFields names bt _ _ 0
  · exact yields_throwStmtError _

theorem yields_describeBuf (b : GsqlQbufDscr) :
    Yields (fun r => ∃ columns, BufLoaded cli b columns r) (describeBuf cli b) := by
  refine (yields_fetchParamDscr b.names b.type stmtM).bind fun flds hflds => ?_
  apply yields_fromResult
  intro r hr
  obtain ⟨columns, hflds⟩ := hflds
  obtain ⟨n, hn, hr⟩ := except_bind_eq_ok hr
  obtain rfl := Except.ok.inj hr
  exact ⟨columns, rfl, rfl, rfl, hflds, GsqlQbufDscr.maxCtypeFrom_ok_iff.mp ⟨n, hn⟩⟩

/-- A buffer that is not described has no fields. -/
theorem bufLoaded_self {b : GsqlQbufDscr} (hb : b.flds = []) : BufLoaded cli b [] b := by
  refine ⟨rfl, rfl, rfl, ⟨nofun, fun k => ?_⟩, ?_⟩
  · rw [hb]
    rfl
  · rw [hb]
    exact nofun

/-- Every buffer of a query is loaded from the one of another. -/
def BufsLoaded (cli : Cli σ) (r q : GsqlQ) : Prop :=
  ∀ bt, ∃ columns, BufLoaded cli (r.bufDscr bt) columns (q.bufDscr bt)

theorem yields_loadQSqlsetFromDb_bufs {r : GsqlQ} (hr : ∀ bt, (r.bufDscr bt).flds = [])
    (db : Handle) : Yields (BufsLoaded cli r) (loadQSqlsetFromDb cli r db) := by
  have hbody : Yields (BufsLoaded cli r) (describeQuery cli r db) := by
    refine yields_bind fun _ => yields_bind fun _ => ?_
    refine (yields_describeBuf r.par).bind fun par hpar => ?_
    refine (yields_describeBuf r.res).bind fun res hres => ?_
    refine yields_bind fun _ => yields_bind fun _ => yields_pure fun bt => ?_
    cases bt with
    | par => exact hpar
    | res => exact hres
  apply Yields.ite
  · exact yields_bind fun _ => (yields_bind fun _ => hbody.withCleanup).withCleanup
  · exact yields_pure fun bt => ⟨[], bufLoaded_self (hr bt)⟩

/-! ## Queries -/

/-- A query of a document: its element, the names that the database gave its parameters and
columns, and what was loaded. -/
structure LoadedQuery where
  el : QElement
  columns : BufType → List Str
  q : GsqlQ

/-- The attributes of a buffer of the query. -/
def LoadedQuery.bufAttrs (l : LoadedQuery) (bt : BufType) : Attrs :=
  Generator.bufAttrs bt l.el.children

/-- The query has the id of its element and the buffers of its children. -/
structure LoadedQuery.Ok (cli : Cli σ) (l : LoadedQuery) : Prop where
  id : l.q.id = l.el.id
  buf : ∀ bt, BufLoaded cli (loadBuf bt (l.bufAttrs bt)) (l.columns bt) (l.q.bufDscr bt)

theorem LoadedQuery.Ok.typed {l : LoadedQuery} (h : l.Ok cli) : l.q.Typed where
  par := (h.buf .par).type
  res := (h.buf .res).type

theorem yields_loadQ_bufs (attrs : Attrs) (children : List Dom) (ndx : Nat) (ctx : List Str)
    (db : Handle) :
    Yields (fun q => ∃ columns, LoadedQuery.Ok cli ⟨⟨attrs, children, ndx⟩, columns, q⟩)
      (loadQ cli attrs children ndx ctx db target) := by
  intro w q w' h
  have hid : q.id = queryId attrs ndx := (yields_loadQ attrs children ndx ctx db w q w' h).id
  rw [loadQ_eq] at h
  obtain ⟨c, w₁, hc, h⟩ := runOn_bind_eq_ok h
  rw [runOn_fromResult] at hc
  have hbuf : ∀ bt, c.q.bufDscr bt = loadBuf bt (bufAttrs bt children) := by
    intro bt
    rw [collect_bufDscr (Prod.mk.inj hc).1 bt]
    exact bufOf_newQuery attrs ndx target bt children
  have hflds : ∀ bt, (c.q.bufDscr bt).flds = [] := by
    intro bt
    rw [hbuf bt]
    rfl
  have hloaded : BufsLoaded cli c.q q := by
    split at h
    · exact yields_loadQSqlsetFromDb_bufs (r := c.q.setSqlSet c.sqlSet) hflds db _ _ _ h
    · obtain rfl := Except.ok.inj (Prod.mk.inj h).1
      exact fun bt => ⟨[], bufLoaded_self (hflds bt)⟩
  choose columns hcolumns using hloaded
  exact ⟨columns, hid, fun bt => hbuf bt ▸ hcolumns bt⟩

end Dbgen3.Generator
