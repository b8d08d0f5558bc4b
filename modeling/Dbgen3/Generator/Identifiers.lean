import Dbgen3.Generator.Buffers
import Dbgen3.Generator.Emissions
import Dbgen3.Generator.Structure

/-!
# Identifiers of the generated code

Names of the user and of the database become identifiers in the generated code:
namespaces, the include guard, classes and accessors. Ids are put in snake case,
which makes identifiers of them; the names of fields are not.
-/

namespace Dbgen3.Generator

open Act Text
open Dbgen3.Runtime (BufType Cli World Handle ctName)

/-! ## Identifiers -/

/-- A C++ identifier: letters, digits and underscores, and no digit in front. -/
def IsIdentifier (s : Str) : Prop := ∃ c cs, s = c :: cs ∧ c.isDigit = false ∧ Ident (c :: cs)

instance : DecidablePred IsIdentifier
  | [] => isFalse fun h => by
      obtain ⟨c, cs, hnil, -⟩ := h
      cases hnil
  | c :: cs => decidable_of_iff (c.isDigit = false ∧ Ident (c :: cs)) <| by
      constructor
      · exact fun h => ⟨c, cs, rfl, h⟩
      · rintro ⟨c', cs', heq, h⟩
        obtain ⟨rfl, rfl⟩ := List.cons.inj heq
        exact h

theorem IsIdentifier.ident {s : Str} (hs : IsIdentifier s) : Ident s := by
  obtain ⟨c, cs, rfl, -, hident⟩ := hs
  exact hident

theorem IsIdentifier.append {s t : Str} (hs : IsIdentifier s) (ht : Ident t) :
    IsIdentifier (s ++ t) := by
  obtain ⟨c, cs, rfl, hdigit, hident⟩ := hs
  exact ⟨c, cs ++ t, rfl, hdigit, hident.append ht⟩

theorem Ident.dash_notMem {s : Str} (hs : Ident s) : '-' ∉ s :=
  fun h => absurd (hs _ h) (by decide)

theorem ident_decimal (n : Nat) : Ident (decimal n) := by
  intro c hc
  have hdigit : c.isDigit = true := Nat.isDigit_of_mem_toDigits (by omega) (by omega) hc
  simp [isIdent, Char.isAlphanum, hdigit]

/-- Text without dashes is in snake case. -/
theorem snakeCase_eq_self {s : Str} (hs : '-' ∉ s) : snakeCase s = s := by
  have hchar : ∀ c ∈ s, (if c = '-' then '_' else c) = c := by
    intro c hc
    apply if_neg
    rintro rfl
    exact hs hc
  exact (List.map_congr_left hchar).trans (List.map_id' s)

theorem IsIdentifier.snakeCase {s : Str} (hs : IsIdentifier s) : IsIdentifier (snakeCase s) := by
  rw [snakeCase_eq_self hs.ident.dash_notMem]
  exact hs

theorem isDigit_eq_false_of_isAlpha {c : Char} (h : c.isAlpha = true) : c.isDigit = false := by
  have hge : 65 ≤ c.toNat := by
    rcases Bool.or_eq_true_iff.mp h with h | h
    · exact (of_decide_eq_true h : 65 ≤ c.toNat ∧ c.toNat ≤ 90).1
    · have hlower : 97 ≤ c.toNat := of_decide_eq_true (Bool.and_eq_true_iff.mp h).1
      omega
  apply Bool.eq_false_iff.mpr
  intro hdigit
  obtain ⟨-, hle⟩ := Char.isDigit_iff_toNat.mp hdigit
  change c.toNat ≤ 57 at hle
  omega

/-- Snake case makes an identifier of an id. -/
theorem IdName.isIdentifier_snakeCase {s : Str} (h : IdName s) : IsIdentifier (snakeCase s) := by
  obtain ⟨⟨c, cs, rfl, hc, hcs⟩, -⟩ := h
  have hfirst : c ≠ '-' ∧ c.isDigit = false ∧ isIdent c = true := by
    rcases hc with hc | rfl
    · refine ⟨?_, isDigit_eq_false_of_isAlpha hc, ?_⟩
      · rintro rfl
        exact absurd hc (by decide)
      · simp [isIdent, Char.isAlphanum, hc]
    · decide
  obtain ⟨hdash, hdigit, hident⟩ := hfirst
  have hrest : Ident (Generator.snakeCase cs) := by
    intro x hx
    obtain ⟨y, hy, rfl⟩ := List.mem_map.mp hx
    rcases hcs y hy with hy | rfl | rfl
    · by_cases hdash : y = '-'
      · rw [if_pos hdash]
        decide
      · rw [if_neg hdash]
        simp [isIdent, hy]
    · decide
    · decide
  refine ⟨c, Generator.snakeCase cs, ?_, hdigit, List.forall_mem_cons.mpr ⟨hident, hrest⟩⟩
  exact congrArg (· :: Generator.snakeCase cs) (if_neg hdash)

/-- An id is an identifier of its own where it has no dash. -/
theorem IdName.isIdentifier_iff {s : Str} (h : IdName s) : IsIdentifier s ↔ '-' ∉ s := by
  constructor
  · exact fun hs => hs.ident.dash_notMem
  · intro hs
    rw [← snakeCase_eq_self hs]
    exact h.isIdentifier_snakeCase

/-! ## Attributes -/

/-- The value of an attribute is of its type. -/
theorem ValidAttrs.getAttribute {decls : AttrDecls} {attrs : Attrs} (h : ValidAttrs decls attrs)
    {name : Str} (hname : name ≠ "xmlns".toList ∧ ':' ∉ name)
    (hne : getAttribute attrs name ≠ []) :
    ∃ d ∈ decls, d.1 = name ∧ d.2 (getAttribute attrs name) := by
  unfold Generator.getAttribute at hne ⊢
  cases hlookup : attrs.lookup name with
  | none =>
      rw [hlookup] at hne
      exact absurd rfl hne
  | some value =>
      obtain ⟨before, after, rfl, -⟩ := List.lookup_eq_some_iff.mp hlookup
      have hmem : (name, value) ∈ before ++ (name, value) :: after :=
        List.mem_append_right _ List.mem_cons_self
      rcases h.values _ hmem with hxmlns | hcolon | hdecl
      · exact absurd hxmlns hname.1
      · exact absurd hcolon hname.2
      · exact hdecl

/-- An id that is read is one of the grammar, or the one that stands for none. -/
theorem isIdentifier_attrValue_id {decls : AttrDecls} {attrs : Attrs} (h : ValidAttrs decls attrs)
    (hdecls : ∀ d ∈ decls, d.1 = "id".toList → d.2 = IdName) {default : Str}
    (hdefault : getAttribute attrs "id" = [] → IsIdentifier (snakeCase default)) :
    IsIdentifier (snakeCase (attrValue attrs "id" default)) := by
  unfold attrValue
  by_cases hne : getAttribute attrs "id" = []
  · rw [if_neg (not_not_intro hne)]
    exact hdefault hne
  · rw [if_pos hne]
    obtain ⟨d, hd, hname, hvalue⟩ := h.getAttribute (by decide) hne
    rw [hdecls d hd hname] at hvalue
    exact hvalue.isIdentifier_snakeCase

theorem IdName.forall_mem {s : Str} (h : IdName s) : ∀ c ∈ s, isIdent c = true ∨ c = '-' := by
  obtain ⟨⟨c, cs, rfl, hc, hcs⟩, -⟩ := h
  intro x hx
  rcases List.mem_cons.mp hx with rfl | hx
  · rcases hc with hc | rfl
    · exact .inl (by simp [isIdent, Char.isAlphanum, hc])
    · exact .inl (by decide)
  · rcases hcs x hx with hx | rfl | rfl
    · exact .inl (by simp [isIdent, hx])
    · exact .inl (by decide)
    · exact .inr rfl

theorem IdName.notMem {s : Str} (h : IdName s) {x : Char} (hx : isIdent x = false ∧ x ≠ '-') :
    x ∉ s := by
  intro hmem
  rcases h.forall_mem x hmem with hident | hdash
  · rw [hx.1] at hident
    cases hident
  · exact hx.2 hdash

theorem IdName.ne_nil {s : Str} (h : IdName s) : s ≠ [] := by
  obtain ⟨⟨c, cs, rfl, -⟩, -⟩ := h
  exact List.cons_ne_nil c cs

/-- The items of a list of ids. -/
theorem idName_of_mem_split {s item : Str} (hs : IdNameList s)
    (hitem : item ∈ split (View.ofStr s) ' ') : IdName item := by
  obtain ⟨items, hitems, rfl⟩ := hs
  have hnull : '\x00' ∉ joinWith " " items := by
    intro h
    rcases mem_joinWith h with h | ⟨i, hi, h⟩
    · exact absurd h (by decide)
    · exact (hitems i hi).notMem (by decide) h
  have hpieces : split (View.ofStr (joinWith " " items)) ' ' = items := by
    rw [split, MultiLine.cStr_ofStr hnull]
    exact getlines_joinWith fun i hi => ⟨(hitems i hi).ne_nil, (hitems i hi).notMem (by decide)⟩
  rw [hpieces] at hitem
  exact hitems item hitem

/-! ## Names that are read -/

variable {σ : Type} {cli : Cli σ}

/-- The queries of a loaded set, with the elements they come from and the names that the
database gave their parameters and columns. -/
theorem exists_loadedQueries (P : LoadedQuery → Prop) {els : List QElement} {qs : List GsqlQ}
    (h : List.Forall₂ (fun el q => ∃ columns, P ⟨el, columns, q⟩) els qs) :
    ∃ ls : List LoadedQuery, ls.map LoadedQuery.el = els ∧ ls.map LoadedQuery.q = qs ∧
      ∀ l ∈ ls, P l := by
  induction h with
  | nil => exact ⟨[], rfl, rfl, nofun⟩
  | @cons el q els qs hq _ ih =>
      obtain ⟨columns, hok⟩ := hq
      obtain ⟨ls, rfl, rfl, hall⟩ := ih
      exact ⟨⟨el, columns, q⟩ :: ls, rfl, rfl, List.forall_mem_cons.mpr ⟨hok, hall⟩⟩

/-- A loaded set has the id and the queries of its document, each with what loading a query
gives. -/
theorem exists_queries {cli : Cli σ} (P : LoadedQuery → Prop) {attrs : Attrs} {children : List Dom}
    {filename : Str} {db : Handle} {target : Rdbms}
    (hP : ∀ el : QElement, Yields (fun q => ∃ columns, P ⟨el, columns, q⟩)
      (loadQ cli el.attrs el.children el.ndx [qSetId attrs filename] db target))
    (hvalid : querySetType attrs children) {w w' : World σ} {set : GsqlQSet}
    (hload : runOn (loadQSet cli attrs children filename db target) w = (.ok set, w')) :
    set.id = qSetId attrs filename ∧
      ∃ ls : List LoadedQuery, ls.map LoadedQuery.el = qElements 0 children ∧
        ls.map LoadedQuery.q = set.qVec ∧
        ∀ l ∈ ls, P l ∧ queryType l.el.attrs l.el.children := by
  obtain ⟨hid, -, qs, hvec, hqs⟩ := loadQSetFrom_ok_of
    (R := fun el q => ∃ columns, P ⟨el, columns, q⟩)
    (fun attrs children ndx => hP ⟨attrs, children, ndx⟩) hload
  obtain rfl : set.qVec = qs := hvec
  obtain ⟨ls, hels, hmap, hall⟩ := exists_loadedQueries P hqs
  refine ⟨hid, ls, hels, hmap, fun l hl => ⟨hall l hl, ?_⟩⟩
  have hmem : l.el ∈ qElements 0 children := hels ▸ List.mem_map_of_mem hl
  exact queryType_of_querySetType hvalid (mem_qElements hmem)

/-- The id of a query in snake case. -/
theorem isIdentifier_queryId {el : QElement} (h : queryType el.attrs el.children) :
    IsIdentifier (snakeCase el.id) := by
  apply isIdentifier_attrValue_id h.1 (by simp)
  intro _
  have hq : IsIdentifier "q_".toList := by decide
  exact (hq.append (ident_decimal el.ndx)).snakeCase

/-- The attributes of a buffer are of its type, or there are none. -/
theorem validAttrs_bufAttrs {attrs : Attrs} {children : List Dom} (h : queryType attrs children)
    (bt : BufType) :
    ValidAttrs [("id", IdName), ("columns", IdNameList), ("skip", IsBoolean)]
      (bufAttrs bt children) := by
  rw [bufAttrs]
  cases hlast : lastBufAttrs bt children with
  | none => exact ⟨List.nodup_nil, fun _ ha => absurd ha List.not_mem_nil⟩
  | some attrs' =>
      obtain ⟨cs, hmem⟩ := mem_of_lastBufAttrs hlast
      rcases element_of_queryType h hmem with ⟨-, hbuf⟩ | ⟨hname, -⟩
      · exact hbuf.1
      · cases bt with
        | par => exact absurd hname (by decide)
        | res => exact absurd hname (by decide)

/-- The name that the attributes of a buffer give the parameter or column at a position. -/
def LoadedQuery.given (l : LoadedQuery) (bt : BufType) (k : Nat) : Str :=
  (loadBuf bt (l.bufAttrs bt)).names.getD k []

/-- A field has an identifier for its name: a given name has no dash, and where none is given
the name of a result column in lower case is one. -/
def NamesIdentifier (given : Str) (bt : BufType) (column : Str) : Prop :=
  if given ≠ [] then '-' ∉ given else bt = .par ∨ IsIdentifier (column.map tolower)

theorem tolower_of_isDigit {c : Char} (h : c.isDigit = true) : tolower c = c := by
  apply if_neg
  rintro ⟨hle, -⟩
  obtain ⟨-, hle'⟩ := Char.isDigit_iff_toNat.mp h
  change 65 ≤ c.toNat at hle
  change c.toNat ≤ 57 at hle'
  omega

/-- The name of a parameter is an identifier. -/
theorem isIdentifier_par (n : Nat) : IsIdentifier (("par_" ++ decimal n).map tolower) := by
  have hdigits : (decimal n).map tolower = decimal n := by
    have hdigit : ∀ c ∈ decimal n, tolower c = c := fun c hc =>
      tolower_of_isDigit (Nat.isDigit_of_mem_toDigits (by omega) (by omega) hc)
    exact (List.map_congr_left hdigit).trans (List.map_id' _)
  have hpar : IsIdentifier ("par_".toList.map tolower) := by decide
  rw [List.map_append, hdigits]
  exact hpar.append (ident_decimal n)

theorem isIdentifier_fieldName {given : Str} (hgiven : given ≠ [] → IdName given) (bt : BufType)
    (k : Nat) (column : Str) :
    IsIdentifier (fieldName given bt k column) ↔ NamesIdentifier given bt column := by
  unfold fieldName NamesIdentifier
  by_cases hne : given = []
  · rw [if_neg (not_not_intro hne), if_neg (not_not_intro hne)]
    cases bt with
    | par => exact iff_of_true (isIdentifier_par (k + 1)) (.inl rfl)
    | res => exact (or_iff_right nofun).symm
  · rw [if_pos hne, if_pos hne]
    exact (hgiven hne).isIdentifier_iff

/-- The accessors of a field have identifiers for their names where the getter has. -/
theorem isIdentifier_accessors {name : Str} :
    (∀ a : Accessor, IsIdentifier (a.stem ++ name)) ↔ IsIdentifier name := by
  constructor
  · exact fun h => h .get
  · intro h a
    have hstem : ∀ a ∈ [Accessor.isNull, .setNull, .set], IsIdentifier a.stem := by decide
    cases a with
    | isNull => exact (hstem _ (by simp)).append h.ident
    | setNull => exact (hstem _ (by simp)).append h.ident
    | get => exact h
    | set => exact (hstem _ (by simp)).append h.ident

theorem LoadedQuery.idName_given {l : LoadedQuery}
    (hvalid : queryType l.el.attrs l.el.children) {bt : BufType} {k : Nat}
    (hne : l.given bt k ≠ []) : IdName (l.given bt k) := by
  have hvalues := validAttrs_bufAttrs hvalid bt
  have hnames : (loadBuf bt (l.bufAttrs bt)).names =
      split (View.ofStr (attrValue (l.bufAttrs bt) "columns" "")) ' ' := rfl
  have hmem : l.given bt k ∈ (loadBuf bt (l.bufAttrs bt)).names := by
    rw [LoadedQuery.given, List.getD_eq_getElem?_getD] at hne ⊢
    cases hk : (loadBuf bt (l.bufAttrs bt)).names[k]? with
    | none =>
        rw [hk] at hne
        exact absurd rfl hne
    | some name => exact List.mem_of_getElem? hk
  rw [hnames, attrValue] at hmem
  split at hmem
  · next hcolumns =>
    obtain ⟨d, hd, hname, hvalue⟩ := hvalues.getAttribute (by decide) hcolumns
    simp only [List.mem_cons, List.not_mem_nil, or_false] at hd
    rcases hd with rfl | rfl | rfl
    · exact absurd hname (by decide)
    · exact idName_of_mem_split hvalue hmem
    · exact absurd hname (by decide)
  · cases hmem

namespace LoadedQuery.Ok

variable {l : LoadedQuery} (hl : l.Ok cli) (hvalid : queryType l.el.attrs l.el.children)
include hl

theorem mustGenerate_iff (bt : BufType) :
    (l.q.bufDscr bt).mustGenerate = true ↔
      (l.q.bufDscr bt).flds ≠ [] ∧ attrValueB (l.bufAttrs bt) "skip" false = false := by
  rw [GsqlQbufDscr.mustGenerate_iff, (hl.buf bt).skip, GsqlQbufDscr.isRequired]
  simp [loadBuf, GsqlQbufDscr.setNames]

include hvalid

theorem isIdentifier_className (bt : BufType) : IsIdentifier (l.q.bufDscr bt).className := by
  rw [GsqlQbufDscr.className, (hl.buf bt).id]
  apply isIdentifier_attrValue_id (validAttrs_bufAttrs hvalid bt) (by simp)
  intro _
  cases bt with
  | par => decide
  | res => decide

/-- The names of the fields of a buffer. -/
theorem isIdentifier_flds (bt : BufType) :
    (∀ el ∈ (l.q.bufDscr bt).flds, IsIdentifier el.name) ↔
      ∀ (k : Nat) (column : Str), (l.columns bt)[k]? = some column →
        NamesIdentifier (l.given bt k) bt column := by
  have hname := (hl.buf bt).flds.name
  have hfield : ∀ k column, IsIdentifier (fieldName (l.given bt k) bt k column) ↔
      NamesIdentifier (l.given bt k) bt column := fun k column =>
    isIdentifier_fieldName (LoadedQuery.idName_given hvalid) bt k column
  constructor
  · intro h k column hk
    have hk' := hname k
    rw [hk, Nat.zero_add] at hk'
    obtain ⟨el, hel, heq⟩ := Option.map_eq_some_iff.mp hk'
    rw [← hfield k column]
    exact heq ▸ h el (List.mem_of_getElem? hel)
  · intro h el hel
    obtain ⟨k, hk⟩ := List.getElem?_of_mem hel
    have hk' := hname k
    rw [hk, Nat.zero_add] at hk'
    obtain ⟨column, hcolumn, heq⟩ := Option.map_eq_some_iff.mp hk'.symm
    rw [← heq]
    exact (hfield k column).mpr (h k column hcolumn)

/-- The names of a query. -/
theorem isIdentifier_queryEmissions (offs : Nat) :
    (∀ e ∈ queryEmissions l.q offs, IsIdentifier e.name) ↔
      (l.q.sql ≠ [] → ∀ bt, attrValueB (l.bufAttrs bt) "skip" false = false →
        ∀ (k : Nat) (column : Str), (l.columns bt)[k]? = some column →
          NamesIdentifier (l.given bt k) bt column) := by
  rw [forall_queryEmissions]
  refine imp_congr_right fun _ => ?_
  constructor
  · rintro ⟨-, hclasses, -⟩ bt hskip k column hk
    have hne : (l.q.bufDscr bt).flds ≠ [] := by
      intro hnil
      have hname := (hl.buf bt).flds.name k
      rw [hnil, hk] at hname
      cases hname
    obtain ⟨-, haccessors⟩ := hclasses bt ((hl.mustGenerate_iff bt).mpr ⟨hne, hskip⟩)
    apply (hl.isIdentifier_flds hvalid bt).mp ?_ k column hk
    exact fun el hel => isIdentifier_accessors.mp (haccessors el hel)
  · intro h
    have hclass := hl.isIdentifier_className hvalid
    refine ⟨?_, fun bt hgen => ⟨hclass bt, fun el hel => ?_⟩, fun bt _ => hclass bt⟩
    · rw [GsqlQ.namespaceStr, hl.id]
      exact isIdentifier_queryId hvalid
    · obtain ⟨-, hskip⟩ := (hl.mustGenerate_iff bt).mp hgen
      exact isIdentifier_accessors.mpr ((hl.isIdentifier_flds hvalid bt).mpr (h bt hskip) el hel)

end LoadedQuery.Ok

/-- What a set is called and its guard. -/
theorem isIdentifier_set {set : GsqlQSet} :
    IsIdentifier (guardName set) ∧ IsIdentifier set.namespaceStr ↔
      IsIdentifier set.namespaceStr := by
  refine and_iff_right_of_imp fun h => ?_
  have hgen : IsIdentifier "gen_".toList := by decide
  exact (hgen.append h.ident).append (by decide)

/-- The names that a valid document gives the code generated for it. Each stands in a line of
the text. All of them are identifiers exactly where the document or the stem of its file name
gives the set one, and no generated field has a name with a dash or, without a given name, a
column name that is no identifier in lower case. -/
theorem fileEmissions_identifiers_iff (attrs : Attrs) (children : List Dom) (filename : Str)
    (db : Handle) (target : Rdbms) (hvalid : querySetType attrs children) {w w' : World σ}
    {set : GsqlQSet}
    (hload : runOn (loadQSet cli attrs children filename db target) w = (.ok set, w'))
    {timeStr text : Str} {offs : Nat} (hgen : genFile set timeStr offs = .ok text) :
    ∃ ls : List LoadedQuery, ls.map LoadedQuery.el = qElements 0 children ∧
      ls.map LoadedQuery.q = set.qVec ∧ (∀ l ∈ ls, l.Ok cli) ∧
      (∀ e ∈ fileEmissions set offs, e.In text) ∧
      ((∀ e ∈ fileEmissions set offs, IsIdentifier e.name) ↔
        (getAttribute attrs "id" ≠ [] ∨ IsIdentifier (snakeCase (Path.stem filename))) ∧
        ∀ l ∈ ls, l.q.sql ≠ [] → ∀ bt, attrValueB (l.bufAttrs bt) "skip" false = false →
          ∀ (k : Nat) (column : Str), (l.columns bt)[k]? = some column →
            NamesIdentifier (l.given bt k) bt column) := by
  obtain ⟨hid, ls, hels, hmap, hall⟩ := exists_queries (LoadedQuery.Ok cli)
    (fun el => yields_loadQ_bufs el.attrs el.children el.ndx _ db) hvalid hload
  have hok : ∀ l ∈ ls, l.Ok cli := fun l hl => (hall l hl).1
  have hquery : ∀ l ∈ ls, queryType l.el.attrs l.el.children := fun l hl => (hall l hl).2
  have hset : IsIdentifier set.namespaceStr ↔
      getAttribute attrs "id" ≠ [] ∨ IsIdentifier (snakeCase (Path.stem filename)) := by
    have hns : set.namespaceStr = snakeCase (attrValue attrs "id" (Path.stem filename)) :=
      congrArg snakeCase hid
    rw [hns]
    by_cases hne : getAttribute attrs "id" = []
    · rw [attrValue, if_neg (not_not_intro hne)]
      exact (or_iff_right (not_not_intro hne)).symm
    · refine iff_of_true ?_ (.inl hne)
      exact isIdentifier_attrValue_id hvalid.1 (by simp) fun h => absurd h hne
  refine ⟨ls, hels, hmap, hok, fileEmissions_in hgen ?_, ?_⟩
  · intro q hq bt
    obtain ⟨l, hl, rfl⟩ := List.mem_map.mp (hmap ▸ hq)
    exact ((hok l hl).buf bt).typed
  · rw [forall_fileEmissions, ← and_assoc, isIdentifier_set, hset, ← hmap, List.forall_mem_map]
    refine and_congr_right fun _ => forall₂_congr fun l hl => ?_
    exact (hok l hl).isIdentifier_queryEmissions (hquery l hl) (offs + 2)

/-- The driver that describes one parameter and one column, with a name. -/
def describingOne (column : Str) : Cli Unit where
  call _ _ :=
    ({ rc := Runtime.sqlSuccess, count := 1, dscr := { name := column, type := 4 } }, ())
  diag _ _ _ := []

/-- A document with one query and names for its columns. -/
def columnsText (columns : Str) : List Dom :=
  [.element "q" []
    [.element "qr" [("columns", columns)] [], .element "sql" [] [.text (.ok "select 1")]]]

theorem querySetType_columnsText {columns : Str} (h : IdNameList columns) :
    querySetType [] (columnsText columns) := by
  let result : Dom := .element "qr" [("columns", columns)] []
  let sql : Dom := .element "sql" [] [.text (.ok "select 1")]
  have hbuf : bufferType [("columns", columns)] [] := by
    refine ⟨⟨List.nodup_singleton _, fun a ha => ?_⟩, nofun⟩
    obtain rfl := List.mem_singleton.mp ha
    exact .inr (.inr ⟨("columns", IdNameList), by simp, rfl, h⟩)
  have hsql : sqlType [] [.text (.ok "select 1")] := by
    refine ⟨validAttrs_nil _, fun n hn => ?_, Sequence.skip rfl rfl⟩
    exact .inr (.inr ⟨_, fun _ _ => trivial, .inl (List.mem_singleton.mp hn)⟩)
  have hq : queryType [] [result, sql] := by
    refine ⟨validAttrs_nil _, fun n hn => .inl ?_, Sequence.skip ?_ rfl⟩
    · rcases List.mem_cons.mp hn with rfl | hn
      · exact isElement_element _ _ _
      · obtain rfl := List.mem_singleton.mp hn
        exact isElement_element _ _ _
    · refine ⟨[⟨"qr", [("columns", columns)], []⟩], [⟨"sql", [], _⟩], rfl, Nat.zero_le _,
        ?_, ?_, ?_⟩
      · intro n hn
        obtain rfl := Option.some.inj hn
        exact Nat.le_refl 1
      · intro el hel
        obtain rfl := List.mem_singleton.mp hel
        exact ⟨rfl, hbuf⟩
      · refine Sequence.last ?_ ?_ ?_
        · exact Nat.zero_le _
        · exact nofun
        · intro el hel
          obtain rfl := List.mem_singleton.mp hel
          exact ⟨rfl, hsql⟩
  refine querySetType_of_one ?_ rfl ⟨[], _, rfl, Nat.zero_le _, nofun, rfl, hq⟩
  exact elementContent_singleton (.inl (isElement_element _ _ _))

theorem idName_of_all {c : Char} {cs : Str} (hc : c.isAlpha = true)
    (hcs : cs.all (fun x => x.isAlphanum || x == '_' || x == '-') = true)
    (hlen : (c :: cs).length ≤ 32) : IdName (c :: cs) := by
  refine ⟨⟨c, cs, rfl, .inl hc, fun x hx => ?_⟩, hlen⟩
  simpa [or_assoc] using List.all_eq_true.mp hcs x hx

theorem idNameList_of_idName {s : Str} (h : IdName s) : IdNameList s := by
  refine ⟨[s], fun i hi => ?_, rfl⟩
  obtain rfl := List.mem_singleton.mp hi
  exact h

/-- A document that is loaded and generated. -/
theorem exists_generated (cli : Cli Unit) (children : List Dom) (filename : Str)
    (p : GsqlQSet → Bool) {b : Bool}
    (h : ((runOn (loadQSet cli [] children filename 1 .db2) (World.start ())).1.bind fun set =>
      (genFile set "now" 0).map fun _ => p set) = .ok b) :
    ∃ set text w, runOn (loadQSet cli [] children filename 1 .db2) (World.start ()) = (.ok set, w) ∧
      genFile set "now" 0 = .ok text ∧ p set = b := by
  rcases hload : runOn (loadQSet cli [] children filename 1 .db2) (World.start ()) with
    ⟨e | set, w⟩
  · rw [hload] at h
    cases h
  · rw [hload] at h
    change (genFile set "now" 0).map _ = _ at h
    cases hgen : genFile set "now" 0 with
    | error e =>
        rw [hgen] at h
        cases h
    | ok text =>
        rw [hgen] at h
        exact ⟨set, text, w, rfl, hgen, Except.ok.inj h⟩

/-- Given names without dashes, and the ones of the database in lower case. -/
theorem fileEmissions_identifiers_columns :
    ∃ set text w,
      runOn (loadQSet (describingOne "ID") [] (columnsText "a_b") "x.xml" 1 .db2)
        (World.start ()) = (.ok set, w) ∧ genFile set "now" 0 = .ok text ∧
      ∀ e ∈ fileEmissions set 0, e.In text ∧ IsIdentifier e.name := by
  obtain ⟨set, text, w, hload, hgen, -⟩ :=
    exists_generated (describingOne "ID") (columnsText "a_b") "x.xml"
      (fun set => decide (∀ e ∈ fileEmissions set 0, IsIdentifier e.name)) (b := true)
      (by decide +kernel)
  have hname : IdName "a_b" := idName_of_all (by decide) (by decide) (by decide)
  have hvalid := querySetType_columnsText (idNameList_of_idName hname)
  obtain ⟨ls, hels, -, hok, hin, hiff⟩ :=
    fileEmissions_identifiers_iff [] (columnsText "a_b") "x.xml" 1 .db2 hvalid hload hgen
  have hall := hiff.mpr ⟨.inr (by decide), ?_⟩
  · exact ⟨set, text, w, hload, hgen, fun e he => ⟨hin e he, hall e he⟩⟩
  intro l hl _ bt _ k column hk
  have hel : l.el ∈ qElements 0 (columnsText "a_b") := hels ▸ List.mem_map_of_mem hl
  have hchildren := congrArg QElement.children (List.mem_singleton.mp hel)
  obtain rfl : column = "ID".toList := by
    obtain ⟨d, h, ordinal, heq⟩ :=
      ((hok l hl).buf bt).flds.answered column (List.mem_of_getElem? hk)
    exact heq.symm
  have hnames : ∀ k, l.given .res k = (["a_b".toList] : List Str).getD k [] := by
    intro k
    rw [LoadedQuery.given, LoadedQuery.bufAttrs, hchildren]
    rfl
  cases bt with
  | par =>
      have hgiven : l.given .par k = [] := by
        rw [LoadedQuery.given, LoadedQuery.bufAttrs, hchildren]
        rfl
      rw [hgiven]
      exact .inl rfl
  | res =>
      rw [hnames]
      cases k with
      | zero =>
          rw [NamesIdentifier, if_pos (by decide)]
          decide
      | succ k => exact .inr (by decide)

/-- A valid document that is loaded and generated with a name that is no identifier. -/
structure OtherName (column columns filename : Str) : Prop where
  valid : querySetType [] (columnsText columns)
  generated : ∃ set text w,
    runOn (loadQSet (describingOne column) [] (columnsText columns) filename 1 .db2)
      (World.start ()) = (.ok set, w) ∧ genFile set "now" 0 = .ok text ∧
    ¬ ∀ e ∈ fileEmissions set 0, IsIdentifier e.name

theorem otherName {column columns filename : Str} (hvalid : IdNameList columns)
    (h : ((runOn (loadQSet (describingOne column) [] (columnsText columns) filename 1 .db2)
      (World.start ())).1.bind fun set => (genFile set "now" 0).map fun _ =>
        decide (∀ e ∈ fileEmissions set 0, IsIdentifier e.name)) = .ok false) :
    OtherName column columns filename where
  valid := querySetType_columnsText hvalid
  generated := by
    obtain ⟨set, text, w, hload, hgen, hall⟩ := exists_generated _ _ _ _ h
    exact ⟨set, text, w, hload, hgen, of_decide_eq_false hall⟩

/-- A given name with a dash, a column name and a file name that are no identifiers. -/
theorem valid_names_not_identifiers :
    OtherName "ID" "a-b" "x.xml" ∧ OtherName "COUNT(*)" "" "x.xml" ∧
      OtherName "ID" "" "1a.xml" := by
  have hname : IdName "a-b" := idName_of_all (by decide) (by decide) (by decide)
  have hnone : IdNameList "" := ⟨[], nofun, rfl⟩
  refine ⟨otherName (idNameList_of_idName hname) ?_, otherName hnone ?_, otherName hnone ?_⟩
  · decide +kernel
  · decide +kernel
  · decide +kernel

end Dbgen3.Generator
