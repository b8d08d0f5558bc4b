import Dbgen3.Generator.HeaderReader
import Dbgen3.Generator.Identifiers
import Dbgen3.Generator.LineText

/-!
# Reading the header of a document back

What loading a document makes sure of: the classes of a query have identifiers
for their names, its codes are of the type `int`, the lines of its statement are
lines, and the fields of its buffers are numbered. What is left are the texts
that are copied from the document and from the database.
-/

namespace Dbgen3.Generator

open Act Text RawString
open Dbgen3.Runtime (BufType Cli World Handle)

/-! ## Fields -/

variable {σ : Type} {cli : Cli σ} {target : Rdbms}

section

variable {P : List FldDscr → Prop}
  (hP : ∀ names bt stmt, Yields P (fetchParamDscr cli names bt stmt))

include hP

theorem yields_describeBuf_flds (b : GsqlQbufDscr) :
    Yields (fun r => P r.flds) (describeBuf cli b) := by
  refine (hP b.names b.type stmtM).bind fun flds hflds => yields_fromResult fun r hr => ?_
  obtain ⟨n, -, hr⟩ := except_bind_eq_ok hr
  obtain rfl := Except.ok.inj hr
  exact hflds

/-- What every description gives holds for all buffers of a query that is loaded. -/
theorem yields_loadQ_flds (hnil : P []) (attrs : Attrs) (children : List Dom) (ndx : Nat)
    (ctx : List Str) (db : Handle) :
    Yields (fun q => ∀ bt, P (q.bufDscr bt).flds) (loadQ cli attrs children ndx ctx db target) := by
  intro w q w' h
  rw [loadQ_eq] at h
  obtain ⟨c, w₁, hc, h⟩ := runOn_bind_eq_ok h
  rw [runOn_fromResult] at hc
  have hflds : ∀ bt, (c.q.bufDscr bt).flds = [] := by
    intro bt
    rw [collect_bufDscr (Prod.mk.inj hc).1 bt, bufOf_newQuery]
    rfl
  have hnone : ∀ bt, P (c.q.bufDscr bt).flds := fun bt => (hflds bt).symm ▸ hnil
  have hbody : Yields (fun q => ∀ bt, P (q.bufDscr bt).flds)
      (describeQuery cli (c.q.setSqlSet c.sqlSet) db) := by
    refine yields_bind fun _ => yields_bind fun _ => ?_
    refine (yields_describeBuf_flds hP _).bind fun par hpar => ?_
    refine (yields_describeBuf_flds hP _).bind fun res hres => ?_
    refine yields_bind fun _ => yields_bind fun _ => yields_pure fun bt => ?_
    cases bt with
    | par => exact hpar
    | res => exact hres
  have hloaded : Yields (fun q => ∀ bt, P (q.bufDscr bt).flds)
      (loadQSqlsetFromDb cli (c.q.setSqlSet c.sqlSet) db) := by
    apply Yields.ite
    · exact yields_bind fun _ => (yields_bind fun _ => hbody.withCleanup).withCleanup
    · exact yields_pure hnone
  split at h
  · exact hloaded _ _ _ h
  · obtain rfl := Except.ok.inj (Prod.mk.inj h).1
    exact hnone

end

/-- The fields have the names of the members at their positions. -/
def InOrder (flds : List FldDscr) : Prop :=
  flds.map FldDscr.aName = (List.range flds.length).map memberName

theorem yields_fetchParamDscr_inOrder (names : List Str) (bt : BufType) (stmt : Runtime.StmtId) :
    Yields InOrder (fetchParamDscr cli names bt stmt) := by
  intro w flds w' h
  obtain ⟨hlength, e, events, -, hall⟩ := fetchParamDscr_ok cli h
  exact names_of_described cli (by omega) hall

/-! ## Codes -/

theorem isInt_of_readInt {t rest : Str} {v : Int} (h : readInt t = some (v, rest)) : IsInt v := by
  simp only [readInt_eq, readDigits, Option.ite_none_left_eq_some, Option.some.injEq,
    Prod.mk.injEq] at h
  obtain ⟨hno, hv, -⟩ := h
  rw [hv, not_or, not_or] at hno
  exact ⟨Int.not_lt.mp hno.2.1, Int.not_le.mp hno.2.2⟩

theorem isInt_of_mem_readInts {fuel : Nat} {t : Str} :
    ∀ v ∈ readInts fuel t, IsInt v := by
  induction fuel generalizing t with
  | zero => exact List.forall_mem_nil _
  | succ fuel ih =>
      unfold readInts
      cases h : readInt t with
      | none => exact List.forall_mem_nil _
      | some read =>
          obtain ⟨v, rest⟩ := read
          exact List.forall_mem_cons.mpr ⟨isInt_of_readInt h, ih⟩

theorem isInt_of_mem_allowed {attrs : Attrs} {ndx : Nat} :
    ∀ v ∈ (newQuery attrs ndx target).allowed, IsInt v := by
  intro v hv
  have hmem := (List.mem_insertionSort _).mp hv
  exact isInt_of_mem_readInts v (by simpa [newQuery] using hmem)

/-! ## Lines -/

theorem newline_notMem_pick {ts : List (Option Rdbms × Str)} {r : Rdbms} {ml : MultiLine}
    (h : pick target none ts = some (r, ml)) : ∀ l ∈ ml.lines, '\n' ∉ l := by
  have hsel := @pick_none target ts
  rw [h] at hsel
  obtain ⟨txt, -, rfl⟩ := Option.map_eq_some_iff.mp hsel.symm
  exact fun l hl => newline_notMem_toVec hl

/-- The lines of the statement have no line break. -/
theorem yields_loadQ_lines (attrs : Attrs) (children : List Dom) (ndx : Nat) (ctx : List Str)
    (db : Handle) :
    Yields (fun q => ∀ l ∈ q.sqlSet.sqlDscr.mlSql.lines, '\n' ∉ l)
      (loadQ cli attrs children ndx ctx db target) := by
  rw [loadQ_eq]
  intro w q w' h
  obtain ⟨c, w₁, hc, h⟩ := runOn_bind_eq_ok h
  rw [runOn_fromResult] at hc
  have hcollect := collect_ok (Prod.mk.inj hc).1
  cases he : c.sqlSet.empty with
  | true =>
      rw [he] at h
      obtain rfl := Except.ok.inj (Prod.mk.inj h).1
      have hset : c.q.sqlSet = { dbType := target } := hcollect.sqlSet
      rw [hset]
      exact List.forall_mem_nil _
  | false =>
      rw [he] at h
      obtain ⟨-, hqset⟩ := yields_loadQSqlsetFromDb (c.q.setSqlSet c.sqlSet) db _ _ _ h
      have hentry : c.sqlSet.entry = some (c.sqlSet.sqlDscr.dbType, c.sqlSet.sqlDscr.mlSql) := by
        rw [GsqlSqlSet.entry, he]
        rfl
      rw [hqset]
      exact newline_notMem_pick (hcollect.entry.symm.trans hentry)

/-- The lines of the header have none either. -/
theorem header_lines {ctx : List Str} {db : Handle} {nodes : List Dom} {qNdx : Nat}
    {set set' : GsqlQSet} {w w' : World σ}
    (h : runOn (loadQSetFrom cli ctx db target qNdx set nodes) w = (.ok set', w'))
    (hset : ∀ l ∈ set.header.lines, '\n' ∉ l) : ∀ l ∈ set'.header.lines, '\n' ∉ l := by
  induction nodes generalizing qNdx set w with
  | nil =>
      obtain rfl := Except.ok.inj (Prod.mk.inj h).1
      exact hset
  | cons n rest ih =>
      obtain ⟨attrs, children, rfl⟩ | ⟨attrs, children, rfl⟩ | hskip := n.hdr_or_q_or_skipped
      · rw [loadQSetFrom_hdr] at h
        obtain ⟨header, w₁, -, h⟩ := runOn_bind_eq_ok h
        exact ih h fun l hl => newline_notMem_toVec hl
      · rw [loadQSetFrom_q] at h
        obtain ⟨q, w₁, -, h⟩ := runOn_bind_eq_ok h
        have hinsert : (set.qInsert q).2.header = set.header := by
          unfold GsqlQSet.qInsert
          split
          · rfl
          · rfl
        split at h
        · cases h
        · exact ih h (hinsert ▸ hset)
      · rw [loadQSetFrom_skipped hskip] at h
        exact ih h hset

/-! ## The document -/

theorem stored_of_genQuery {q : GsqlQ} (hsql : q.sql ≠ []) {offs : Nat} {text : Str}
    (h : genQuery q offs = .ok text) {bt : BufType}
    (hgen : (q.bufDscr bt).mustGenerate = true) : ∀ el ∈ (q.bufDscr bt).flds, el.Stored := by
  obtain ⟨b, hof, -⟩ := genQuery_eq_ok h
  have hbuf : ∃ t, genBuf q bt (offs + 2) = .ok t := by
    cases hof with
    | comment hnil => exact absurd hnil hsql
    | code _ hbody =>
        obtain ⟨par, rest₁, hpar, hrest₁, -⟩ := concat_cons_eq_ok hbody
        obtain ⟨res, rest₂, hres, -, -⟩ := concat_cons_eq_ok hrest₁
        cases bt with
        | par => exact ⟨par, hpar⟩
        | res => exact ⟨res, hres⟩
  obtain ⟨t, ht⟩ := hbuf
  rw [genBuf_of_mustGenerate hgen] at ht
  -- a class is printed only where each of its types has a storage
  have hok : (genBufClass q bt (offs + 2)).isOk = true := by
    rw [ht]
    rfl
  exact (isOk_genBufClass.mp hok).2

/-- What is copied from the document and the database can stand in a header. -/
structure Copied (set : GsqlQSet) : Prop where
  header : ∀ l ∈ set.header.lines, ∀ mark ∈ headMarks, starts mark (sl l) = false
  sql : ∀ q ∈ set.qVec, ∀ l ∈ q.sqlSet.sqlDscr.mlSql.lines, ¬ terminator rawDelimiter <:+: l
  flds : ∀ q ∈ set.qVec, ∀ bt, (q.bufDscr bt).mustGenerate = true →
    ∀ el ∈ (q.bufDscr bt).flds, el.name ≠ [] ∧ Ident el.name ∧ 0 ≤ el.dec

theorem copied_iff (set : GsqlQSet) :
    Copied set ↔ (∀ l ∈ set.header.lines, ∀ mark ∈ headMarks, starts mark (sl l) = false) ∧
      ∀ q ∈ set.qVec,
        (∀ l ∈ q.sqlSet.sqlDscr.mlSql.lines, cutAt (terminator rawDelimiter) l = none) ∧
        ∀ bt ∈ bufTypes, (q.bufDscr bt).mustGenerate = true →
          ∀ el ∈ (q.bufDscr bt).flds, el.name ≠ [] ∧ Ident el.name ∧ 0 ≤ el.dec := by
  simp only [cutAt_eq_none_iff (by decide : terminator rawDelimiter ≠ [])]
  constructor
  · exact fun h => ⟨h.header, fun q hq => ⟨h.sql q hq, fun bt _ => h.flds q hq bt⟩⟩
  · rintro ⟨hheader, hall⟩
    exact ⟨hheader, fun q hq => (hall q hq).1, fun q hq bt => (hall q hq).2 bt (mem_bufTypes bt)⟩

instance (set : GsqlQSet) : Decidable (Copied set) := decidable_of_iff' _ (copied_iff set)

/-- What loading makes sure of. -/
structure LoadedQuery.Sound (cli : Cli σ) (target : Rdbms) (ctx : List Str) (l : LoadedQuery) :
    Prop extends l.Ok cli where
  loaded : QueryLoaded target ctx l.el.attrs l.el.children l.el.ndx l.q
  codes : l.q.allowed = (newQuery l.el.attrs l.el.ndx target).allowed
  inOrder : ∀ bt, InOrder (l.q.bufDscr bt).flds
  lines : ∀ l' ∈ l.q.sqlSet.sqlDscr.mlSql.lines, '\n' ∉ l'

theorem yields_loadQ_sound (attrs : Attrs) (children : List Dom) (ndx : Nat) (ctx : List Str)
    (db : Handle) :
    Yields (fun q =>
        ∃ columns, LoadedQuery.Sound cli target ctx ⟨⟨attrs, children, ndx⟩, columns, q⟩)
      (loadQ cli attrs children ndx ctx db target) := by
  intro w q w' h
  obtain ⟨columns, hok⟩ := yields_loadQ_bufs attrs children ndx ctx db w q w' h
  exact ⟨columns,
    { toOk := hok
      loaded := yields_loadQ attrs children ndx ctx db w q w' h
      codes := yields_loadQ_allowed attrs children ndx ctx db w q w' h
      inOrder :=
        yields_loadQ_flds yields_fetchParamDscr_inOrder rfl attrs children ndx ctx db w q w' h
      lines := yields_loadQ_lines attrs children ndx ctx db w q w' h }⟩

theorem LoadedQuery.Sound.legible {ctx : List Str} {l : LoadedQuery} (h : l.Sound cli target ctx)
    (hvalid : queryType l.el.attrs l.el.children) {set : GsqlQSet} (hcopied : Copied set)
    (hl : l.q ∈ set.qVec) (hsql : l.q.sql ≠ []) {offs : Nat} {text : Str}
    (hgen : genQuery l.q offs = .ok text) : Legible l.q where
  typed := h.toOk.typed
  names bt := by
    obtain ⟨c, cs, heq, -, hident⟩ := h.toOk.isIdentifier_className hvalid bt
    rw [heq]
    exact ⟨List.cons_ne_nil _ _, hident⟩
  flds bt hmust :=
    { stored := stored_of_genQuery hsql hgen hmust
      names := h.inOrder bt
      ident := fun el hel =>
        ⟨(hcopied.flds _ hl bt hmust el hel).1, (hcopied.flds _ hl bt hmust el hel).2.1⟩
      dec := fun el hel => (hcopied.flds _ hl bt hmust el hel).2.2 }
  allowed := h.codes ▸ isInt_of_mem_allowed
  sql l' hl' := ⟨h.lines l' hl', hcopied.sql _ hl l' hl'⟩

theorem newline_notMem_of_snakeCase {t : Str} (h : IsIdentifier (snakeCase t)) : '\n' ∉ t := by
  intro hmem
  have hmap : '\n' ∈ snakeCase t := List.mem_map.mpr ⟨'\n', hmem, by decide⟩
  exact newline_notMem_ident h.ident hmap

theorem newline_notMem_qSetId {attrs : Attrs} {children : List Dom} {filename : Str}
    (hvalid : querySetType attrs children)
    (hname : getAttribute attrs "id" ≠ [] ∨ '\n' ∉ Path.stem filename) :
    '\n' ∉ qSetId attrs filename := by
  by_cases hne : getAttribute attrs "id" = []
  · rw [qSetId, attrValue, if_neg (not_not_intro hne)]
    exact hname.resolve_left (not_not_intro hne)
  · apply newline_notMem_of_snakeCase
    exact isIdentifier_attrValue_id hvalid.1 (by simp) fun h => absurd h hne

/-- The header that is generated for a valid document is read as the set that was loaded, whose
queries are those of the document, in order, each with the id, the codes and the statement of its
element. -/
theorem readHeader_loadQSet (attrs : Attrs) (children : List Dom) (filename : Str)
    (db : Handle) (target : Rdbms) (hvalid : querySetType attrs children) {w w' : World σ}
    {set : GsqlQSet}
    (hload : runOn (loadQSet cli attrs children filename db target) w = (.ok set, w'))
    (hname : getAttribute attrs "id" ≠ [] ∨ '\n' ∉ Path.stem filename) (hcopied : Copied set)
    {timeStr text : Str} {offs : Nat} (hgen : genFile set timeStr offs = .ok text)
    (htime : '\n' ∉ timeStr.dropLast) (cSizeof : Str → Nat) :
    ∃ ls : List LoadedQuery, ls.map LoadedQuery.el = qElements 0 children ∧
      ls.map LoadedQuery.q = set.qVec ∧
      (∀ l ∈ ls, l.Sound cli target [qSetId attrs filename]) ∧
      readHeader cSizeof text = some (headerOf cSizeof offs set) := by
  obtain ⟨hid, ls, hels, hmap, hall⟩ :=
    exists_queries (LoadedQuery.Sound cli target [qSetId attrs filename])
      (fun el => yields_loadQ_sound el.attrs el.children el.ndx _ db) hvalid hload
  have hsound : ∀ l ∈ ls, l.Sound cli target [qSetId attrs filename] := fun l hl => (hall l hl).1
  have hquery : ∀ l ∈ ls, queryType l.el.attrs l.el.children := fun l hl => (hall l hl).2
  obtain ⟨queries, hqueries, -⟩ := genFile_eq_ok hgen
  obtain ⟨texts, htexts, -⟩ := concat_map_eq_ok hqueries
  have hlegible : LegibleSet set :=
    { id := hid ▸ newline_notMem_qSetId hvalid hname
      header := fun l hl =>
        ⟨header_lines hload (List.forall_mem_nil _) l hl, hcopied.header l hl⟩
      ids := by
        rw [← hmap, List.forall_mem_map]
        intro l hl
        rw [(hsound l hl).toOk.id]
        exact newline_notMem_of_snakeCase (isIdentifier_queryId (hquery l hl))
      queries := by
        intro q hq hsql
        obtain ⟨t, -, hgenq⟩ := exists_of_forall₂ htexts hq
        obtain ⟨l, hl, rfl⟩ := List.mem_map.mp (hmap ▸ hq)
        exact (hsound l hl).legible (hquery l hl) hcopied hq hsql hgenq }
  exact ⟨ls, hels, hmap, hsound, readHeader_genFile hgen hlegible htime cSizeof⟩

/-- The file that is generated for a query with one column. -/
theorem readHeader_columnsText :
    ∃ set text w,
      runOn (loadQSet (describingOne "ID") [] (columnsText "a_b") "x.xml" 1 .db2)
        (World.start ()) = (.ok set, w) ∧ genFile set "now" 0 = .ok text ∧
      readHeader (fun _ => 4) text = some (headerOf (fun _ => 4) 0 set) := by
  obtain ⟨set, text, w, hload, hgen, hcopied⟩ :=
    exists_generated (describingOne "ID") (columnsText "a_b") "x.xml"
      (fun set => decide (Copied set)) (b := true) (by decide +kernel)
  have hname : IdName "a_b" := idName_of_all (by decide) (by decide) (by decide)
  have hvalid := querySetType_columnsText (idNameList_of_idName hname)
  obtain ⟨ls, -, -, -, hread⟩ :=
    readHeader_loadQSet [] (columnsText "a_b") "x.xml" 1 .db2 hvalid hload (.inr (by decide))
      (of_decide_eq_true hcopied) hgen (by decide) fun _ => 4
  exact ⟨set, text, w, hload, hgen, hread⟩

end Dbgen3.Generator
