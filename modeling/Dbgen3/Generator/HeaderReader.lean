import Dbgen3.Generator.Blocks
import Dbgen3.Generator.UtlReader

/-!
# Reading a generated header back

The reader below takes the text of a generated file and finds its namespace, the
lines it has from the header of the set, and for each namespace of a query the
buffer classes and the query class. A line of a statement is not taken for code,
whatever it says. The text of a file reads back as the queries that have a
statement, in the order of the set.
-/

namespace Dbgen3.Generator

open Act Text Sections RawString
open Dbgen3.Runtime (BufType)

/-! ## The reader -/

/-- A query that is read. -/
structure GeneratedQuery where
  ns : Str
  classes : List GeneratedClass
  utl : GeneratedUtl

/-- A header that is read. -/
structure GeneratedHeader where
  ns : Str
  /-- The lines between the includes and the namespace. -/
  custom : List Str
  queries : List GeneratedQuery

/-- The name behind the keyword of a namespace. -/
def namespaceName (line : Str) : Str :=
  ((line.dropWhile (· = ' ')).drop 10).takeWhile (· ≠ '\n')

/-- The item is a line of code that starts with the text. -/
def codeStarts (mark : Str) : Item → Bool
  | .code l => starts mark l
  | .raw _ => false

/-- Read the items in the namespace of a query: the buffer classes and the query class. -/
def readBody (cSizeof : Str → Nat) (body : List Item) :
    Option (List GeneratedClass × GeneratedUtl) := do
  let (segs, rest) := segments (codeStarts "\x7d; // class ") body
  let classes ← segs.mapM fun seg => readClass cSizeof (codeLines seg).flatten
  let utl ← readUtl rest
  pure (classes, utl)

/-- Read the items up to the end of the namespace of a query. -/
def readQuery (cSizeof : Str → Nat) (its : List Item) : Option GeneratedQuery :=
  match behind (codeStarts "namespace ") its with
  | .code head :: body =>
      (readBody cSizeof body).map fun read =>
        { ns := namespaceName head, classes := read.1, utl := read.2 }
  | _ => none

/-- Read the text of a header. The last namespace that ends is that of the file. -/
def readHeader (cSizeof : Str → Nat) (text : Str) : Option GeneratedHeader :=
  let its := items rawDelimiter none (textLines text)
  let custom := (behind (starts "#include \"runtime/")
    (codeLines (upTo (codeStarts "namespace ") its))).drop 1
  match behind (codeStarts "namespace ") its with
  | .code head :: body => do
      let segs := (segments (codeStarts "\x7d; //namespace ") body).1
      let queries ← segs.dropLast.mapM (readQuery cSizeof)
      pure { ns := namespaceName head, custom, queries }
  | _ => none

/-- The query that a description is printed as. -/
def queryOf (cSizeof : Str → Nat) (offs : Nat) (q : GsqlQ) : GeneratedQuery where
  ns := q.namespaceStr
  classes := (bufTypes.filter fun bt => (q.bufDscr bt).mustGenerate).map (classOf cSizeof q)
  utl := utlOf q (offs + 2)

/-- The header that a set is printed as. -/
def headerOf (cSizeof : Str → Nat) (offs : Nat) (set : GsqlQSet) : GeneratedHeader where
  ns := set.namespaceStr
  custom := set.header.lines.map fun l => sl l offs
  queries := (set.qVec.filter fun q => q.sql ≠ []).map (queryOf cSizeof (offs + 2))

/-! ## What can be read -/

/-- A query whose statement fits in a literal, whose classes have names and can be compiled, and
whose codes are of the type `int`. -/
structure Legible (q : GsqlQ) : Prop where
  typed : q.Typed
  names : ∀ bt, (q.bufDscr bt).className ≠ [] ∧ Ident (q.bufDscr bt).className
  flds : ∀ bt, (q.bufDscr bt).mustGenerate = true → Compilable (q.bufDscr bt).flds
  allowed : ∀ v ∈ q.allowed, IsInt v
  sql : Quotable q.sqlSet.sqlDscr.mlSql.lines

theorem Legible.named {q : GsqlQ} (h : Legible q) : Named q := by
  intro c hc
  obtain ⟨bt, -, rfl⟩ := List.mem_map.mp hc
  exact h.names bt

/-- What no line in front of a namespace starts with. -/
def headMarks : List Str := ["namespace ", "R\""]

/-- A set of queries that can be read where they have a statement, with a header that opens no
namespace and no literal at the start of a line. -/
structure LegibleSet (set : GsqlQSet) : Prop where
  id : '\n' ∉ set.id
  header : ∀ l ∈ set.header.lines, '\n' ∉ l ∧ ∀ mark ∈ headMarks, starts mark (sl l) = false
  ids : ∀ q ∈ set.qVec, '\n' ∉ q.id
  queries : ∀ q ∈ set.qVec, q.sql ≠ [] → Legible q

theorem LegibleSet.lineFree {set : GsqlQSet} (h : LegibleSet set) (offs : Nat) :
    ∀ l ∈ set.header.lines.map fun l => sl l offs, LineFree headMarks l := by
  rw [List.forall_mem_map]
  intro l hl
  obtain ⟨hn, hmarks⟩ := h.header l hl
  exact ⟨line_sl hn offs, fun mark hmark =>
    (starts_blanks mark 0 l offs).trans (hmarks mark hmark)⟩

theorem newline_notMem_snakeCase {t : Str} (h : '\n' ∉ t) : '\n' ∉ snakeCase t := by
  intro hmem
  obtain ⟨c, hc, heq⟩ := List.mem_map.mp hmem
  split at heq
  · cases heq
  · subst heq
    exact h hc

/-! ## Items -/

/-- A line of code that starts with none of the marks. -/
def Filler (marks : List Str) (item : Item) : Prop := ∃ l, item = .code l ∧ LineFree marks l

theorem filler_map {marks : List Str} {lines : List Str} (h : ∀ l ∈ lines, LineFree marks l) :
    ∀ item ∈ lines.map Item.code, Filler marks item := by
  rw [List.forall_mem_map]
  exact fun l hl => ⟨l, rfl, h l hl⟩

theorem exists_lines {marks : List Str} {its : List Item} (h : ∀ item ∈ its, Filler marks item) :
    ∃ lines : List Str, its = lines.map .code ∧ ∀ l ∈ lines, LineFree marks l := by
  induction its with
  | nil => exact ⟨[], rfl, List.forall_mem_nil _⟩
  | cons item its ih =>
      obtain ⟨⟨l, rfl, hl⟩, hits⟩ := List.forall_mem_cons.mp h
      obtain ⟨lines, rfl, hlines⟩ := ih hits
      exact ⟨l :: lines, rfl, List.forall_mem_cons.mpr ⟨hl, hlines⟩⟩

theorem not_starts_longer {mark mark' l : Str} (h : mark <+: mark') (hl : starts mark l = false) :
    starts mark' l = false := by
  rw [starts, Bool.eq_false_iff, ne_eq, List.isPrefixOf_iff_prefix] at hl ⊢
  exact fun h' => hl (h.trans h')

theorem codeStarts_of_filler {marks : List Str} {mark mark' : Str} (hmark : mark ∈ marks)
    (h : mark <+: mark') {item : Item} (hitem : Filler marks item) :
    codeStarts mark' item = false := by
  obtain ⟨l, rfl, hl⟩ := hitem
  exact not_starts_longer h (hl.free _ hmark)

/-- No item of a query class ends a class or a namespace. -/
theorem noEnd_utlItems {q : GsqlQ} (hq : Legible q) {title : Str}
    (htitle : LineFree outerMarks title) (offs : Nat) {mark : Str}
    (hmark : "\x7d; //".toList <+: mark) :
    ∀ item ∈ utlItems q title offs, codeStarts mark item = false := by
  have hlines : ∀ l ∈ utlFront q title offs ++ utlBody q offs, LineFree outerMarks l :=
    List.forall_mem_append.mpr ⟨lineFree_utlFront hq.typed htitle (by decide) (by decide) offs,
      lineFree_utlBody hq.named offs⟩
  have hend : LineFree outerMarks (sl "\x7d;" offs) :=
    lineFree_whole (by decide) (by decide) (by decide) offs
  have hrest : starts "\x7d; //" [';', '\n'] = false := by decide
  refine List.forall_mem_append.mpr ⟨?_, ?_⟩
  · exact List.forall_mem_map.mpr fun l hl =>
      not_starts_longer hmark ((hlines l hl).free _ List.mem_cons_self)
  · refine List.forall_mem_cons.mpr ⟨rfl, ?_⟩
    refine List.forall_mem_cons.mpr ⟨not_starts_longer hmark hrest, ?_⟩
    exact List.forall_mem_singleton.mpr
      (not_starts_longer hmark (hend.free _ List.mem_cons_self))

/-! ## The namespace of a query -/

/-- What no line in front of a class starts with, and none of the query class in front of its own
sections. -/
def bodyMarks : List Str :=
  ["class ", "private:", "\x7d; //", "R\"", ": db::utl(", "template<"]

/-- What is printed for a buffer. -/
def bufRead (cSizeof : Str → Nat) (q : GsqlQ) (bt : BufType) : Option GeneratedClass :=
  if (q.bufDscr bt).mustGenerate then some (classOf cSizeof q bt) else none

/-- The items of a buffer: comments, or a class that is read whatever comments are in front. They
do not end a namespace. -/
structure BufItems (cSizeof : Str → Nat) (q : GsqlQ) (bt : BufType) (its : List Item) : Prop where
  noEnd : ∀ item ∈ its, codeStarts "\x7d; //namespace " item = false
  group : Group (codeStarts "\x7d; // class ") (Filler bodyMarks)
    (fun seg => readClass cSizeof (codeLines seg).flatten) (bufRead cSizeof q bt) its

theorem printed_bufClass {q : GsqlQ} (hq : Legible q) (hid : '\n' ∉ q.id) {bt : BufType}
    (hgen : (q.bufDscr bt).mustGenerate = true) {offs : Nat} {text : Str}
    (h : genBufClass q bt offs = .ok text) (cSizeof : Str → Nat) :
    ∃ its, Printed text its ∧ BufItems cSizeof q bt its := by
  obtain ⟨-, hname⟩ := hq.names bt
  have hn := newline_notMem_ident hname
  have hne : (q.bufDscr bt).flds ≠ [] := by
    rintro hnil
    rw [GsqlQbufDscr.mustGenerate, hnil, List.isEmpty_nil, Bool.not_true, Bool.and_false] at hgen
    cases hgen
  obtain ⟨inner, rfl, hinner⟩ := genBufClass_segment h hid hn (hq.flds bt hgen) hne
  have hclass : "\x7d; // class ".toList <+: "\x7d; // class " ++ snakeCase (q.bufDscr bt).id :=
    List.prefix_append _ _
  have hline : '\n' ∉ "\x7d; // class " ++ snakeCase (q.bufDscr bt).id :=
    newline_notMem_append (by decide) hn
  have hraw : LineFree ["R\""] (classEnd q bt offs) :=
    lineFree_sl (by decide) hclass hline offs
  have hnamespace : starts "\x7d; //namespace " (classEnd q bt offs) = false :=
    not_starts_sl (by decide) hclass offs
  have hfree : ∀ {mark : Str}, "\x7d; //".toList <+: mark → ∀ item ∈ inner.map Item.code,
      codeStarts mark item = false := fun hmark =>
    List.forall_mem_map.mpr fun l hl =>
      not_starts_longer hmark ((hinner l hl).free _ List.mem_cons_self)
  refine ⟨inner.map .code ++ [.code (classEnd q bt offs)], ?_, ?_, ?_⟩
  · have hinner' := printed_lines fun l hl =>
      (hinner l hl).mono (by decide : ∀ mark ∈ ["R\"".toList], mark ∈ outerMarks)
    have hprinted := hinner'.append (printed_line hraw)
    rwa [← List.flatten_concat] at hprinted
  · exact List.forall_mem_append.mpr ⟨hfree (by decide),
      List.forall_mem_singleton.mpr hnamespace⟩
  · rw [bufRead, if_pos hgen]
    refine .segment (hfree (by decide)) (starts_sl (by decide) hclass offs) fun pre hpre => ?_
    obtain ⟨lines, rfl, hlines⟩ := exists_lines hpre
    have hcode : (codeLines (lines.map Item.code ++ (inner.map Item.code ++
        [Item.code (classEnd q bt offs)]))).flatten =
          lines.flatten ++ (inner ++ [classEnd q bt offs]).flatten := by
      rw [codeLines_append, codeLines_append, codeLines_code, codeLines_code,
        List.flatten_append]
      rfl
    rw [hcode]
    exact readClass_lines h hid hname (hq.flds bt hgen) hne cSizeof fun l hl =>
      (hlines l hl).mono (by decide)

theorem printed_bufComment {q : GsqlQ} (hq : Legible q) {bt : BufType}
    (hgen : ¬ (q.bufDscr bt).mustGenerate = true) {offs : Nat} {text : Str}
    (h : genBuf q bt offs = .ok text) (cSizeof : Str → Nat) :
    ∃ its, Printed text its ∧ BufItems cSizeof q bt its := by
  have hn := newline_notMem_ident (hq.names bt).2
  have hcomment : ∃ msg, '\n' ∉ msg ∧ genBuf q bt offs = lineText msg offs := by
    refine ⟨_, ?_, ((prints hq.typed offs).classes bt).trans
      (if_neg ((bufClass_mem_defined q bt).not.mpr hgen))⟩
    split
    · exact newline_notMem_append hn (by decide)
    · refine newline_notMem_append (newline_notMem_append hn (by decide)) ?_
      cases bt <;> decide
  obtain ⟨msg, hmsg, heq⟩ := hcomment
  rw [heq] at h
  have hfree := lineText_line (by decide) hmsg h
  have hnamespace := hfree ["\x7d; //namespace ".toList] (by decide)
  refine ⟨[.code text], printed_line (hfree _ (by decide)), ?_, ?_⟩
  · exact List.forall_mem_singleton.mpr (hnamespace.free _ List.mem_cons_self)
  · rw [bufRead, if_neg hgen]
    exact .filler (List.forall_mem_singleton.mpr ⟨text, rfl, hfree bodyMarks (by decide)⟩)

theorem printed_genBuf {q : GsqlQ} (hq : Legible q) (hid : '\n' ∉ q.id) {bt : BufType}
    {offs : Nat} {text : Str} (h : genBuf q bt offs = .ok text) (cSizeof : Str → Nat) :
    ∃ its, Printed text its ∧ BufItems cSizeof q bt its := by
  by_cases hgen : (q.bufDscr bt).mustGenerate = true
  · rw [genBuf_of_mustGenerate hgen] at h
    exact printed_bufClass hq hid hgen h cSizeof
  · exact printed_bufComment hq hgen h cSizeof

/-- The line that starts a namespace. -/
def namespaceLine (ns : Str) (offs : Nat) : Str := sl ("namespace " ++ ns) offs

/-- The line that ends it. -/
def namespaceEnd (ns : Str) (offs : Nat) : Str := sl ("\x7d; //namespace " ++ ns) offs

theorem namespaceName_line {ns : Str} (h : '\n' ∉ ns) (offs : Nat) :
    namespaceName (namespaceLine ns offs) = ns := by
  have hkeyword : "namespace ".toList <+: "namespace " ++ ns := List.prefix_append _ _
  have hdrop : (("namespace " ++ ns) ++ ['\n']).drop 10 = ns ++ ['\n'] := rfl
  rw [namespaceName, namespaceLine, dropWhile_sl (by decide) hkeyword, hdrop]
  exact takeWhile_stop (ne_of_notMem h) (by decide) []

/-- What is printed between the line of a namespace and its end. -/
structure BodyItems (cSizeof : Str → Nat) (q : GsqlQ) (offs : Nat) (its : List Item) : Prop where
  noEnd : ∀ item ∈ its, codeStarts "\x7d; //namespace " item = false
  reads : ∀ ns, readBody cSizeof (.code (sl "\x7b" offs) ::
    (its ++ [.code (namespaceEnd ns offs)])) =
      some ((queryOf cSizeof offs q).classes, (queryOf cSizeof offs q).utl)

theorem filterMap_ite {α β : Type} (p : α → Prop) [DecidablePred p] (f : α → β) (l : List α) :
    (l.filterMap fun a => if p a then some (f a) else none) = (l.filter p).map f := by
  induction l with
  | nil => rfl
  | cons a l ih =>
      by_cases ha : p a
      · simp [ha, ih]
      · simp [ha, ih]

theorem filterMap_bufRead (cSizeof : Str → Nat) (q : GsqlQ) :
    bufTypes.filterMap (bufRead cSizeof q) =
      (bufTypes.filter fun bt => (q.bufDscr bt).mustGenerate).map (classOf cSizeof q) := by
  have hfilter := filterMap_ite (fun bt => (q.bufDscr bt).mustGenerate = true)
    (classOf cSizeof q) bufTypes
  simp only [Bool.decide_eq_true] at hfilter
  exact hfilter

/-- The segments of the two buffers are read as their classes, and what is left as the query
class. -/
theorem readBody_items {q : GsqlQ} (hq : Legible q) {cSizeof : Str → Nat} {pars ress : List Item}
    (hpars : BufItems cSizeof q .par pars) (hress : BufItems cSizeof q .res ress) {title : Str}
    (htitle : ∀ marks, Free "/*" marks → LineFree marks title) (ns : Str) (offs : Nat) :
    readBody cSizeof (.code (sl "\x7b" offs) ::
      (pars ++ (ress ++ utlItems q title (offs + 2)) ++ [.code (namespaceEnd ns offs)])) =
        some ((queryOf cSizeof offs q).classes, (queryOf cSizeof offs q).utl) := by
  have hfiller : ∀ item, Filler bodyMarks item → codeStarts "\x7d; // class " item = false :=
    fun item hitem => codeStarts_of_filler (by decide : "\x7d; //".toList ∈ bodyMarks)
      (by decide) hitem
  have hbrace : LineFree bodyMarks (sl "\x7b" offs) :=
    lineFree_whole (by decide) (by decide) (by decide) offs
  obtain ⟨segs, left, hleft, hread, hsegs⟩ := segments_groups hfiller
    (.cons hpars.group (.cons hress.group .nil))
    (List.forall_mem_singleton.mpr ⟨_, rfl, hbrace⟩)
    (utlItems q title (offs + 2) ++ [.code (namespaceEnd ns offs)])
  obtain ⟨lines, rfl, hlines⟩ := exists_lines hleft
  have hend : codeStarts "\x7d; // class " (.code (namespaceEnd ns offs)) = false :=
    not_starts_sl (by decide : Apart "\x7d; //namespace " "\x7d; // class ")
      (List.prefix_append _ _) offs
  have hrest : ∀ item ∈ lines.map Item.code ++ (utlItems q title (offs + 2) ++
      [.code (namespaceEnd ns offs)]), codeStarts "\x7d; // class " item = false := by
    refine List.forall_mem_append.mpr ⟨fun item hitem => hfiller item (hleft item hitem), ?_⟩
    exact List.forall_mem_append.mpr
      ⟨noEnd_utlItems hq (htitle outerMarks (by decide)) _ (by decide),
        List.forall_mem_singleton.mpr hend⟩
  have hpre : ∀ l ∈ lines ++ [title], LineFree ["class ", ": db::utl(", "template<"] l :=
    List.forall_mem_append.mpr ⟨fun l hl => (hlines l hl).mono (by decide),
      List.forall_mem_singleton.mpr (htitle _ (by decide))⟩
  have hutl := readUtl_utlItems hq.typed hq.named hq.allowed (offs + 2) hpre
    [namespaceEnd ns offs]
  rw [segments_eq_nil hrest, List.append_nil] at hsegs
  have hitems : .code (sl "\x7b" offs) :: (pars ++ (ress ++ utlItems q title (offs + 2)) ++
      [.code (namespaceEnd ns offs)]) = [.code (sl "\x7b" offs)] ++ ([pars, ress].flatten ++
        (utlItems q title (offs + 2) ++ [.code (namespaceEnd ns offs)])) := by
    simp
  rw [List.map_singleton] at hutl
  rw [hitems, readBody, hsegs]
  simp only [hread, hutl, Option.bind_eq_bind, Option.bind_some]
  unfold queryOf
  rw [← filterMap_bufRead]
  rfl

theorem printed_body {q : GsqlQ} (hq : Legible q) (hid : '\n' ∉ q.id) {offs : Nat} {body : Str}
    (h : concat [genBuf q .par (offs + 2), genBuf q .res (offs + 2), genUtl q (offs + 2)] =
      .ok body) (cSizeof : Str → Nat) :
    ∃ its, Printed body its ∧ BodyItems cSizeof q offs its := by
  obtain ⟨par, rest₁, hpar, hrest₁, rfl⟩ := concat_cons_eq_ok h
  obtain ⟨res, rest₂, hres, hrest₂, rfl⟩ := concat_cons_eq_ok hrest₁
  obtain ⟨utl, rest₃, hutl, hrest₃, rfl⟩ := concat_cons_eq_ok hrest₂
  obtain rfl := Except.ok.inj hrest₃
  obtain ⟨pars, hprintedPar, hpars⟩ := printed_genBuf hq hid hpar cSizeof
  obtain ⟨ress, hprintedRes, hress⟩ := printed_genBuf hq hid hres cSizeof
  obtain ⟨title, htitle, hprintedUtl⟩ :=
    printed_genUtl hq.typed hq.named (newline_notMem_snakeCase hid) hq.sql hutl
  refine ⟨pars ++ (ress ++ utlItems q title (offs + 2)), ?_, ?_, fun ns => ?_⟩
  · rw [List.append_nil]
    exact hprintedPar.append (hprintedRes.append hprintedUtl)
  · exact List.forall_mem_append.mpr ⟨hpars.noEnd, List.forall_mem_append.mpr
      ⟨hress.noEnd, noEnd_utlItems hq (htitle outerMarks (by decide)) _ (by decide)⟩⟩
  · exact readBody_items hq hpars hress htitle ns offs

/-! ## The queries -/

/-- What no line in front of the namespace of a query starts with. -/
def fileMarks : List Str := ["namespace ", "\x7d; //"]

/-- What is printed for a query. -/
def queryRead (cSizeof : Str → Nat) (offs : Nat) (q : GsqlQ) : Option GeneratedQuery :=
  if q.sql ≠ [] then some (queryOf cSizeof offs q) else none

/-- The namespace of a query is read whatever comments are in front. -/
theorem printed_namespace {q : GsqlQ} (hid : '\n' ∉ q.id) (hq : Legible q) {offs : Nat}
    {title body : Str} (htitle : lineText q.namespaceStr offs = .ok title)
    (hbody : concat [genBuf q .par (offs + 2), genBuf q .res (offs + 2), genUtl q (offs + 2)] =
      .ok body) (cSizeof : Str → Nat) :
    ∃ its, Printed (title ++ namespaceLine q.namespaceStr offs ++ sl "\x7b" offs ++ body ++
        namespaceEnd q.namespaceStr offs) its ∧
      Group (codeStarts "\x7d; //namespace ") (Filler fileMarks) (readQuery cSizeof)
        (some (queryOf cSizeof offs q)) its := by
  have hns : '\n' ∉ q.namespaceStr := newline_notMem_snakeCase hid
  have hfree := lineText_line (by decide) hns htitle
  obtain ⟨its, hprinted, hits⟩ := printed_body hq hid hbody cSizeof
  have hstart : "namespace ".toList <+: "namespace " ++ q.namespaceStr := List.prefix_append _ _
  have hend : "\x7d; //namespace ".toList <+: "\x7d; //namespace " ++ q.namespaceStr :=
    List.prefix_append _ _
  have hendLine : '\n' ∉ "\x7d; //namespace " ++ q.namespaceStr :=
    newline_notMem_append (by decide) hns
  have hfront : ∀ l ∈ [title, namespaceLine q.namespaceStr offs, sl "\x7b" offs],
      LineFree ["\x7d; //namespace ", "R\""] l := by
    refine List.forall_mem_cons.mpr ⟨hfree _ (by decide), List.forall_mem_cons.mpr ⟨?_, ?_⟩⟩
    · exact lineFree_sl (by decide) hstart (newline_notMem_append (by decide) hns) offs
    · exact List.forall_mem_singleton.mpr
        (lineFree_whole (by decide) (by decide) (by decide) offs)
  have hraw : LineFree ["R\""] (namespaceEnd q.namespaceStr offs) :=
    lineFree_sl (by decide) hend hendLine offs
  refine ⟨([title, namespaceLine q.namespaceStr offs, sl "\x7b" offs].map .code ++ its) ++
    [.code (namespaceEnd q.namespaceStr offs)], ?_, .segment ?_ ?_ fun pre hpre => ?_⟩
  · have hhead := printed_lines fun l hl => (hfront l hl).mono
      (by decide : ∀ mark ∈ ["R\"".toList], mark ∈ ["\x7d; //namespace ".toList, "R\"".toList])
    have hall := (hhead.append hprinted).append (printed_line hraw)
    simpa using hall
  · exact List.forall_mem_append.mpr ⟨List.forall_mem_map.mpr fun l hl =>
      (hfront l hl).free _ (by decide), hits.noEnd⟩
  · exact starts_sl (by decide) hend offs
  · have htitle' : ∀ item ∈ pre ++ [.code title], codeStarts "namespace " item = false := by
      refine List.forall_mem_append.mpr ⟨fun item hitem => ?_, ?_⟩
      · exact codeStarts_of_filler (by decide : "namespace ".toList ∈ fileMarks)
          (List.prefix_refl _) (hpre item hitem)
      · exact List.forall_mem_singleton.mpr
          ((hfree ["namespace ".toList] (by decide)).free _ List.mem_cons_self)
    have hstarts : codeStarts "namespace " (.code (namespaceLine q.namespaceStr offs)) = true :=
      starts_sl (by decide) hstart offs
    have hitems : pre ++ ([title, namespaceLine q.namespaceStr offs, sl "\x7b" offs].map
        .code ++ its ++ [.code (namespaceEnd q.namespaceStr offs)]) =
          (pre ++ [.code title]) ++ (.code (namespaceLine q.namespaceStr offs) ::
            .code (sl "\x7b" offs) :: (its ++ [.code (namespaceEnd q.namespaceStr offs)])) := by
      simp
    rw [hitems, readQuery, behind_append htitle', behind_cons hstarts]
    simp only [hits.reads, Option.map_some, namespaceName_line hns]
    rfl

/-- The text of a query is a comment or a namespace. -/
theorem printed_genQuery {q : GsqlQ} (hid : '\n' ∉ q.id) (hq : q.sql ≠ [] → Legible q)
    {offs : Nat} {text : Str} (h : genQuery q offs = .ok text) (cSizeof : Str → Nat) :
    ∃ its, Printed text its ∧ Group (codeStarts "\x7d; //namespace ") (Filler fileMarks)
      (readQuery cSizeof) (queryRead cSizeof offs q) its := by
  have hns : '\n' ∉ q.namespaceStr := newline_notMem_snakeCase hid
  obtain ⟨b, hof, hrender⟩ := genQuery_eq_ok h
  unfold queryRead
  cases hof with
  | comment hsql =>
      have hmsg : '\n' ∉ " There is no valid SQL statement in query '" ++ q.namespaceStr ++
          "'. No code is generated. " :=
        newline_notMem_append (newline_notMem_append (by decide) hns) (by decide)
      have hfree := lineText_line (by decide) hmsg hrender
      rw [if_neg (not_not_intro hsql)]
      exact ⟨[.code text], printed_line (hfree _ (by decide)),
        .filler (List.forall_mem_singleton.mpr ⟨text, rfl, hfree fileMarks (by decide)⟩)⟩
  | code hsql hbody =>
      obtain ⟨title, htitle, htext⟩ := except_bind_eq_ok hrender
      obtain rfl := Except.ok.inj htext
      rw [if_pos hsql]
      exact printed_namespace hid (hq hsql) htitle hbody cSizeof

/-! ## The file -/

/-- The lines in front of the lines of the custom header. -/
def includeLines (set : GsqlQSet) (timeStr : Str) (offs : Nat) : List Str :=
  [sl ("/* auto generated '" ++ timeStr.take (timeStr.length - 1) ++ "' - do not alter */") offs,
    sl ("#ifndef gen_" ++ set.namespaceStr ++ "_hpp"),
    sl ("#define gen_" ++ set.namespaceStr ++ "_hpp"), sl "#include <array>" offs,
    sl "#include <span>" offs, sl "#include <string>" offs, sl "#include <string_view>" offs,
    sl "" offs]

/-- The lines in front of the namespace of a file. -/
def preambleLines (set : GsqlQSet) (timeStr : Str) (offs : Nat) : List Str :=
  includeLines set timeStr offs ++ (sl "#include \"runtime/dbgen3_templ.hpp\"" offs ::
    (set.header.lines.map fun l => sl l offs))

/-- The lines behind the line of the namespace. -/
def usingLines (offs : Nat) : List Str :=
  [sl "\x7b" offs, sl "  using uint       = std::size_t;" offs,
    sl "  using str_t      = std::string;" offs, sl "  using cstr_t     = std::string_view;" offs,
    sl "  using bstr_t     = std::span<uint8_t>;" offs,
    sl "  using cbstr_t    = std::span<const uint8_t>;" offs]

theorem lineFree_usingLines {marks : List Str} (hbrace : Free "\x7b\n" marks)
    (husing : Free "using " marks) (offs : Nat) : ∀ l ∈ usingLines offs, LineFree marks l := by
  have hline : ∀ msg : Str, "using ".toList <+: msg → '\n' ∉ msg →
      LineFree marks (sl (blanks 2 ++ msg) offs) := fun msg h hn =>
    lineFree_blanks 2 husing h hn offs
  refine List.forall_mem_cons.mpr ⟨lineFree_whole hbrace (by decide) (by decide) offs, ?_⟩
  refine List.forall_mem_cons.mpr ⟨hline "using uint       = std::size_t;" (by decide)
    (by decide), ?_⟩
  refine List.forall_mem_cons.mpr ⟨hline "using str_t      = std::string;" (by decide)
    (by decide), ?_⟩
  refine List.forall_mem_cons.mpr ⟨hline "using cstr_t     = std::string_view;" (by decide)
    (by decide), ?_⟩
  refine List.forall_mem_cons.mpr ⟨hline "using bstr_t     = std::span<uint8_t>;" (by decide)
    (by decide), List.forall_mem_singleton.mpr ?_⟩
  exact hline "using cbstr_t    = std::span<const uint8_t>;" (by decide) (by decide)

/-- What none of them starts with. -/
def includeMarks : List Str := ["namespace ", "R\"", "#include \"runtime/"]

theorem lineFree_includeLines {set : GsqlQSet} {timeStr : Str} (hid : '\n' ∉ set.namespaceStr)
    (htime : '\n' ∉ timeStr.take (timeStr.length - 1)) (offs : Nat) :
    ∀ l ∈ includeLines set timeStr offs, LineFree includeMarks l := by
  have hline : ∀ {p : Str}, Free p includeMarks → ∀ msg : Str, p <+: msg → '\n' ∉ msg →
      ∀ n, LineFree includeMarks (sl msg n) := fun hp msg h hn n => lineFree_sl hp h hn n
  have hinclude := @hline "#include <" (by decide)
  refine List.forall_mem_cons.mpr ⟨@hline "/*" (by decide) _ ?_ ?_ offs, ?_⟩
  · simp only [List.append_assoc]
    exact List.IsPrefix.trans (by decide) (List.prefix_append _ _)
  · exact newline_notMem_append (newline_notMem_append (by decide) htime) (by decide)
  refine List.forall_mem_cons.mpr ⟨@hline "#ifndef " (by decide) _ ?_ ?_ 0, ?_⟩
  · simp only [List.append_assoc]
    exact List.IsPrefix.trans (by decide) (List.prefix_append _ _)
  · exact newline_notMem_append (newline_notMem_append (by decide) hid) (by decide)
  refine List.forall_mem_cons.mpr ⟨@hline "#define " (by decide) _ ?_ ?_ 0, ?_⟩
  · simp only [List.append_assoc]
    exact List.IsPrefix.trans (by decide) (List.prefix_append _ _)
  · exact newline_notMem_append (newline_notMem_append (by decide) hid) (by decide)
  refine List.forall_mem_cons.mpr ⟨hinclude "#include <array>" (by decide) (by decide) offs, ?_⟩
  refine List.forall_mem_cons.mpr ⟨hinclude "#include <span>" (by decide) (by decide) offs, ?_⟩
  refine List.forall_mem_cons.mpr ⟨hinclude "#include <string>" (by decide) (by decide) offs, ?_⟩
  refine List.forall_mem_cons.mpr ⟨hinclude "#include <string_view>" (by decide) (by decide)
    offs, List.forall_mem_singleton.mpr ?_⟩
  exact lineFree_nil (by decide) offs

/-- The head of a file is its lines. -/
theorem fileHead_eq (set : GsqlQSet) (timeStr : Str) (offs : Nat) :
    fileHead set timeStr offs = (preambleLines set timeStr offs ++
      (namespaceLine set.namespaceStr offs :: usingLines offs)).flatten := by
  unfold fileHead preambleLines includeLines genIncludes genCustomHeader usingLines namespaceLine
  simp only [List.flatten_cons, List.flatten_append, List.flatten_nil, List.flatMap_def,
    List.append_assoc, List.append_nil, List.nil_append, List.cons_append]

theorem filterMap_queryRead (cSizeof : Str → Nat) (offs : Nat) (qs : List GsqlQ) :
    qs.filterMap (queryRead cSizeof offs) =
      (qs.filter fun q => q.sql ≠ []).map (queryOf cSizeof offs) :=
  filterMap_ite _ _ qs

theorem printed_queries {qs : List GsqlQ} (hids : ∀ q ∈ qs, '\n' ∉ q.id)
    (hqs : ∀ q ∈ qs, q.sql ≠ [] → Legible q) {offs : Nat} {texts : List Str}
    (h : List.Forall₂ (fun q t => genQuery q offs = .ok t) qs texts) (cSizeof : Str → Nat) :
    ∃ groups : List (List Item), Printed texts.flatten groups.flatten ∧
      List.Forall₂ (fun q g => Group (codeStarts "\x7d; //namespace ") (Filler fileMarks)
        (readQuery cSizeof) (queryRead cSizeof offs q) g) qs groups := by
  induction h with
  | nil => exact ⟨[], ⟨[], rfl, List.forall_mem_nil _, fun rest => rfl⟩, .nil⟩
  | cons hq _ ih =>
      obtain ⟨hid, hids⟩ := List.forall_mem_cons.mp hids
      obtain ⟨hlegible, hqs⟩ := List.forall_mem_cons.mp hqs
      obtain ⟨its, hprinted, hgroup⟩ := printed_genQuery hid hlegible hq cSizeof
      obtain ⟨groups, hrest, hgroups⟩ := ih hids hqs
      exact ⟨its :: groups, hprinted.append hrest, .cons hgroup hgroups⟩

/-- The lines behind the queries. -/
def closingLines (set : GsqlQSet) (offs : Nat) : List Str :=
  [namespaceEnd set.namespaceStr offs, sl ("#endif // gen_" ++ set.namespaceStr ++ "_hpp")]

section

variable {set : GsqlQSet} (hset : LegibleSet set) {timeStr : Str} (htime : '\n' ∉ timeStr.dropLast)
  (offs : Nat)

include hset htime

theorem lineFree_preambleLines : ∀ l ∈ preambleLines set timeStr offs, LineFree headMarks l := by
  have hns : '\n' ∉ set.namespaceStr := newline_notMem_snakeCase hset.id
  rw [List.dropLast_eq_take] at htime
  refine List.forall_mem_append.mpr ⟨fun l hl =>
    (lineFree_includeLines hns htime offs l hl).mono (by decide), ?_⟩
  exact List.forall_mem_cons.mpr ⟨lineFree_sl (by decide : Free "#include " headMarks) (by decide)
    (by decide) offs, hset.lineFree offs⟩

/-- The lines of the custom header are those behind the include of the runtime. -/
theorem custom_read :
    (behind (starts "#include \"runtime/") (preambleLines set timeStr offs)).drop 1 =
      set.header.lines.map fun l => sl l offs := by
  have hns : '\n' ∉ set.namespaceStr := newline_notMem_snakeCase hset.id
  have hhead : starts "#include \"runtime/" (sl "#include \"runtime/dbgen3_templ.hpp\"" offs) =
      true := starts_sl (by decide) (by decide) offs
  rw [List.dropLast_eq_take] at htime
  have hincludes := lineFree_includeLines hns htime offs
  unfold preambleLines
  rw [behind_append fun l hl => (hincludes l hl).free _ (by decide), behind_cons hhead,
    List.drop_succ_cons, List.drop_zero]

/-- The items of a file: the lines in front of its namespace, the groups of its queries, and its
end. -/
theorem printed_genFile {text : Str} (h : genFile set timeStr offs = .ok text)
    (cSizeof : Str → Nat) : ∃ groups : List (List Item),
    Printed text ((preambleLines set timeStr offs ++
      (namespaceLine set.namespaceStr offs :: usingLines offs)).map .code ++ groups.flatten ++
        (closingLines set offs).map .code) ∧
    List.Forall₂ (fun q g => Group (codeStarts "\x7d; //namespace ") (Filler fileMarks)
      (readQuery cSizeof) (queryRead cSizeof (offs + 2) q) g) set.qVec groups := by
  have hns : '\n' ∉ set.namespaceStr := newline_notMem_snakeCase hset.id
  obtain ⟨queries, hqueries, rfl⟩ := genFile_eq_ok h
  obtain ⟨texts, htexts, rfl⟩ := concat_map_eq_ok hqueries
  obtain ⟨groups, hprinted, hgroups⟩ := printed_queries hset.ids hset.queries htexts cSizeof
  have htail : fileTail set offs = (closingLines set offs).flatten := by
    simp [fileTail, closingLines, namespaceEnd]
  have hstart : LineFree ["R\""] (namespaceLine set.namespaceStr offs) :=
    lineFree_sl (by decide : Free "namespace " ["R\""]) (List.prefix_append _ _)
      (newline_notMem_append (by decide) hns) offs
  have hend : LineFree ["R\""] (namespaceEnd set.namespaceStr offs) :=
    lineFree_sl (by decide : Free "\x7d; //namespace " ["R\""]) (List.prefix_append _ _)
      (newline_notMem_append (by decide) hns) offs
  have hguard : LineFree ["R\""] (sl ("#endif // gen_" ++ set.namespaceStr ++ "_hpp")) := by
    refine lineFree_sl (by decide : Free "#endif // gen_" ["R\""]) ?_ ?_ 0
    · rw [List.append_assoc]
      exact List.prefix_append _ _
    · exact newline_notMem_append (newline_notMem_append (by decide) hns) (by decide)
  refine ⟨groups, ?_, hgroups⟩
  rw [fileHead_eq, htail]
  refine ((printed_lines ?_).append hprinted).append (printed_lines ?_)
  · refine List.forall_mem_append.mpr ⟨fun l hl =>
      (lineFree_preambleLines hset htime offs l hl).mono (by decide), ?_⟩
    exact List.forall_mem_cons.mpr ⟨hstart, lineFree_usingLines (by decide) (by decide) offs⟩
  · exact List.forall_mem_cons.mpr ⟨hend, List.forall_mem_singleton.mpr hguard⟩

end

/-- The text of a generated file is read as the set it was made from: the queries with a statement,
in order, each with its classes, the buffers its query class sets, its codes and its statement. -/
theorem readHeader_genFile {set : GsqlQSet} {timeStr text : Str} {offs : Nat}
    (h : genFile set timeStr offs = .ok text) (hset : LegibleSet set)
    (htime : '\n' ∉ timeStr.dropLast) (cSizeof : Str → Nat) :
    readHeader cSizeof text = some (headerOf cSizeof offs set) := by
  have hns : '\n' ∉ set.namespaceStr := newline_notMem_snakeCase hset.id
  obtain ⟨groups, hprinted, hgroups⟩ := printed_genFile hset htime offs h cSizeof
  have hpreamble : ∀ item ∈ (preambleLines set timeStr offs).map Item.code,
      codeStarts "namespace " item = false := List.forall_mem_map.mpr fun l hl =>
    (lineFree_preambleLines hset htime offs l hl).free _ (by decide)
  have hhead : codeStarts "namespace " (.code (namespaceLine set.namespaceStr offs)) = true :=
    starts_sl (by decide) (List.prefix_append _ _) offs
  have hfiller : ∀ item, Filler fileMarks item →
      codeStarts "\x7d; //namespace " item = false := fun item hitem =>
    codeStarts_of_filler (by decide : "\x7d; //".toList ∈ fileMarks) (by decide) hitem
  obtain ⟨segs, left, hleft, hread, hsegs⟩ := segments_groups hfiller hgroups
    (filler_map (lineFree_usingLines (by decide) (by decide) offs))
    ((closingLines set offs).map .code)
  -- the last segment is what is left in front of the end of the namespace of the file
  have hlast : (segments (codeStarts "\x7d; //namespace ")
      (left ++ (closingLines set offs).map .code)).1 =
        [left ++ [.code (namespaceEnd set.namespaceStr offs)]] := by
    have hend : codeStarts "\x7d; //namespace "
        (.code (namespaceEnd set.namespaceStr offs)) = true :=
      starts_sl (by decide) (List.prefix_append _ _) offs
    have hguard : codeStarts "\x7d; //namespace "
        (.code (sl ("#endif // gen_" ++ set.namespaceStr ++ "_hpp"))) = false := by
      refine not_starts_sl (by decide : Apart "#endif // gen_" "\x7d; //namespace ") ?_ 0
      rw [List.append_assoc]
      exact List.prefix_append _ _
    have hcut := segments_append_cons (fun item hitem => hfiller item (hleft item hitem)) hend
      [.code (sl ("#endif // gen_" ++ set.namespaceStr ++ "_hpp"))]
    rw [segments_eq_nil (List.forall_mem_singleton.mpr hguard)] at hcut
    exact congrArg Prod.fst hcut
  have hitems : items rawDelimiter none (textLines text) =
      (preambleLines set timeStr offs).map .code ++
        (.code (namespaceLine set.namespaceStr offs) :: ((usingLines offs).map .code ++
          (groups.flatten ++ (closingLines set offs).map .code))) := by
    rw [hprinted.items_eq, List.map_append, List.map_cons, List.append_assoc, List.append_assoc,
      List.cons_append]
  unfold readHeader
  simp only [hitems, behind_append hpreamble, behind_cons hhead, upTo_append_cons hpreamble hhead,
    codeLines_code, custom_read hset htime, hsegs, hlast, List.dropLast_concat, hread,
    namespaceName_line hns, filterMap_queryRead, Option.bind_eq_bind, Option.bind_some]
  rfl

/-- A set of two queries: the statement of the first has a line that looks like the end of its
namespace, the second has no statement. -/
def quotedSet : GsqlQSet where
  id := "quoted"
  header := ⟨["// lines of the set"]⟩
  qVec :=
    [{ threeColumns with
        id := "select-three", par := .new .par false, allowed := [-100, 100]
        sqlSet :=
          { dbType := .db2, empty := false
            sqlDscr := { mlSql := ⟨["select a, b, c", "\x7d; //namespace select_three"]⟩ } } },
      { id := "none", sqlSet := { dbType := .db2 } }]

theorem legibleSet_quotedSet : LegibleSet quotedSet where
  id := by decide
  header := by decide
  ids := by decide
  queries := by
    intro q hq hsql
    rcases List.mem_cons.mp hq with rfl | hq
    · exact ⟨⟨rfl, rfl⟩, fun bt => by cases bt <;> decide, fun bt hgen => by
        cases bt with
        | par => cases hgen
        | res => exact compilable_threeColumns, by decide, by decide⟩
    · obtain rfl := List.mem_singleton.mp hq
      exact absurd rfl hsql

theorem genFile_quotedSet :
    ∃ text, genFile quotedSet "Sat Jan  1 00:00:00 2000\n" 0 = .ok text := by
  have hprinted : (genFile quotedSet "Sat Jan  1 00:00:00 2000\n" 0).isOk = true := by
    decide +kernel
  cases h : genFile quotedSet "Sat Jan  1 00:00:00 2000\n" 0 with
  | error e =>
      rw [h] at hprinted
      cases hprinted
  | ok text => exact ⟨text, rfl⟩

/-- The line of the statement is not taken for code. -/
theorem readHeader_quotedSet :
    ∃ text, genFile quotedSet "Sat Jan  1 00:00:00 2000\n" 0 = .ok text ∧
      LegibleSet quotedSet ∧
      readHeader (fun _ => 4) text = some (headerOf (fun _ => 4) 0 quotedSet) := by
  obtain ⟨text, h⟩ := genFile_quotedSet
  exact ⟨text, h, legibleSet_quotedSet,
    readHeader_genFile h legibleSet_quotedSet (by decide) fun _ => 4⟩

end Dbgen3.Generator
