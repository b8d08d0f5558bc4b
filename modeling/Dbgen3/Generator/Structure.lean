import Dbgen3.Generator.Answering
import Dbgen3.Generator.Grammar
import Dbgen3.Generator.Namespaces

/-!
# What the grammar admits and the loaders refuse

The grammar and the loaders are two definitions of the documents. The loaders
refuse processing instructions where they read texts or the children of a query,
CDATA sections between the elements of a query, and anything but text in the
header, which has no type in the grammar.
-/

namespace Dbgen3.Generator

open Act Text
open Dbgen3.Runtime (Cli Handle World)

/-! ## Structural exceptions -/

/-- The texts a loader refuses a node with begin with one of these. -/
def structuralTexts : List Str :=
  ["mixed contents", "Should be DOMText", "Should be ELEMENT_NODE",
    "internal error only qp, qr and sql-set allowed"]

/-- A loader met a node it does not expect. -/
def Structural (e : Exc) : Prop :=
  ∃ what, e = .runtimeError what ∧ ∃ pre ∈ structuralTexts, pre <+: what

theorem structural_mixed : Structural (.runtimeError "mixed contents") :=
  ⟨_, rfl, "mixed contents", by simp [structuralTexts], List.prefix_rfl⟩

theorem structural_notText (type : NodeType) (ctx : List Str) : Structural (notText type ctx) := by
  refine ⟨_, rfl, "Should be DOMText", by simp [structuralTexts], ?_⟩
  exact ⟨", it was " ++ (type.name ++ (" ctx: " ++ ctxToStr ctx)), by simp⟩

theorem structural_notElement (type : NodeType) (ctx : List Str) :
    Structural (loadQChild.notElement ctx type) := by
  refine ⟨_, rfl, "Should be ELEMENT_NODE", by simp [structuralTexts], ?_⟩
  exact ⟨", TEXT_NOD or COMMENT_NODE, but it is '" ++ (type.name ++ ("' ctx: " ++ ctxToStr ctx)),
    by simp⟩

theorem not_structural_dbgen3Exc (status : PSts) (msg : Str) :
    ¬ Structural (.dbgen3Exc status msg) := by
  rintro ⟨what, h, -⟩
  cases h

/-- A structural text begins with a letter that no text of the runtime begins with. -/
theorem head_of_structural {what : Str} (h : Structural (.runtimeError what)) :
    what.head? ∈ [some 'm', some 'S', some 'i'] := by
  have hheads : ∀ pre ∈ structuralTexts, pre ≠ [] ∧
      pre.head? ∈ [some 'm', some 'S', some 'i'] := by
    decide
  obtain ⟨what', heq, pre, hpre, rest, rfl⟩ := h
  obtain rfl := Exc.runtimeError.inj heq
  obtain ⟨hne, hhead⟩ := hheads pre hpre
  rwa [List.head?_append_of_ne_nil _ hne]

/-- The texts of the driver's diagnostics are not structural. -/
theorem not_structural_wrapDiagRec {h : Handle} {errors : List Runtime.DiagRec}
    {reply : Runtime.DiagReply} {e : Exc} (he : Runtime.wrapDiagRec h errors reply = .error e) :
    ¬ Structural e := by
  intro hs
  cases reply with
  | success r => cases he
  | noData => cases he
  | successWithInfo n =>
      obtain rfl := Except.error.inj he
      simpa using head_of_structural hs
  | invalidHandle =>
      obtain rfl := Except.error.inj he
      simpa using head_of_structural hs
  | error =>
      obtain rfl := Except.error.inj he
      simpa using head_of_structural hs
  | other rc =>
      obtain rfl := Except.error.inj he
      simpa using head_of_structural hs

theorem FromDatabase.not_structural {e : Exc} (h : FromDatabase e) : ¬ Structural e := by
  cases h with
  | errorException what => exact fun ⟨_, heq, _⟩ => by cases heq
  | diagnostics he => exact not_structural_wrapDiagRec he
  | unsupported code => exact fun hs => by simpa using head_of_structural hs
  | stdExc kind => exact fun ⟨_, heq, _⟩ => by cases heq
  | terminated => exact fun ⟨_, heq, _⟩ => by cases heq

/-! ## Documents without nodes that are refused -/

/-- Texts, CDATA sections and comments. -/
def PlainText (nodes : List Dom) : Prop :=
  ∀ n ∈ nodes, (∃ data, n = .text data ∨ n = .cdataSection data) ∨ n = .comment

/-- No processing instruction, in the `prepare` element as well. -/
def PlainSql (nodes : List Dom) : Prop :=
  ∀ n ∈ nodes, (∃ data, n = .text data ∨ n = .cdataSection data) ∨ n = .comment ∨
    ∃ name attrs children, n = .element name attrs children ∧ PlainText children

/-- No processing instruction and no CDATA section between the elements, and plain texts for
the generic or the target rdbms. -/
structure PlainQuery (target : Rdbms) (nodes : List Dom) : Prop where
  kinds : ∀ n ∈ nodes, n.IsElement ∨ (∃ data, n = .text data) ∨ n = .comment
  texts : ∀ attrs cs, .element "sql" attrs cs ∈ nodes → Relevant target (sqlRdbms attrs) →
    PlainSql cs

/-- A header of plain text and plain queries. -/
structure Plain (target : Rdbms) (nodes : List Dom) : Prop where
  header : ∀ attrs cs, .element "hdr" attrs cs ∈ nodes → PlainText cs
  queries : ∀ attrs cs, .element "q" attrs cs ∈ nodes → PlainQuery target cs

/-- Every text can be read and fits into a string. -/
def Readable (nodes : List Dom) : Prop :=
  ∀ data, HasData nodes data → ∃ t : Str, data = .ok t ∧ t.length < maxSize

theorem exists_qElement {attrs : Attrs} {cs nodes : List Dom} (qNdx : Nat)
    (h : .element "q" attrs cs ∈ nodes) :
    ∃ el ∈ qElements qNdx nodes, el.attrs = attrs ∧ el.children = cs := by
  induction nodes generalizing qNdx with
  | nil => cases h
  | cons n rest ih =>
      rcases List.mem_cons.mp h with rfl | hrest
      · exact ⟨_, List.mem_cons_self, rfl, rfl⟩
      · cases n with
        | element name attrs' children =>
            rw [qElements]
            split
            · obtain ⟨el, hel, heq⟩ := ih (qNdx + 1) hrest
              exact ⟨el, List.mem_cons_of_mem _ hel, heq⟩
            · exact ih qNdx hrest
        | text data => exact ih qNdx hrest
        | cdataSection data => exact ih qNdx hrest
        | comment => exact ih qNdx hrest
        | other type => exact ih qNdx hrest

/-! ## What is raised -/

section Raised

variable {target : Rdbms} {ctx : List Str} {nodes : List Dom} {e : Exc}

theorem Readable.element {name : Str} {attrs : Attrs} {cs : List Dom} (h : Readable nodes)
    (hel : .element name attrs cs ∈ nodes) : Readable cs := fun data hd => h data (.element hel hd)

theorem Readable.not_error (h : Readable nodes)
    (hd : .text (.error e) ∈ nodes ∨ .cdataSection (.error e) ∈ nodes) : False := by
  obtain ⟨t, ht, -⟩ := h _ (.data hd)
  cases ht

theorem Readable.not_long {txt : Str} (h : Readable nodes)
    (hd : .text (.ok txt) ∈ nodes ∨ .cdataSection (.ok txt) ∈ nodes) : txt.length < maxSize := by
  obtain ⟨t, ht, hlen⟩ := h _ (.data hd)
  obtain rfl := Except.ok.inj ht
  exact hlen

/-- A text is refused for a node that is not plain, with a structural exception. -/
theorem TextExc.refused (h : TextExc ctx nodes e) (hread : Readable nodes) :
    Structural e ∧ ¬ PlainText nodes := by
  cases h with
  | data h => exact (hread.not_error h).elim
  | tooLong msg h hlen => exact absurd (hread.not_long h) (Nat.not_lt.mpr hlen)
  | element h => exact ⟨structural_mixed, fun hp => by simpa using hp _ h⟩
  | other h => exact ⟨structural_notText _ _, fun hp => by simpa using hp _ h⟩

theorem SqlExc.refused {attrs : Attrs} (h : SqlExc ctx nodes e) (hread : Readable nodes)
    (hvalid : sqlType attrs nodes) : Structural e ∧ ¬ PlainSql nodes := by
  cases h with
  | data h => exact (hread.not_error h).elim
  | tooLong msg h hlen => exact absurd (hread.not_long h) (Nat.not_lt.mpr hlen)
  | element h hname => exact absurd (element_of_sqlType hvalid h).1 hname
  | prepare h he =>
      obtain ⟨hs, hplain⟩ := he.refused (hread.element h)
      refine ⟨hs, fun hp => hplain ?_⟩
      simpa using hp _ h
  | other h => exact ⟨structural_notText _ _, fun hp => by simpa using hp _ h⟩

theorem ChildExc.refused {attrs : Attrs} (h : ChildExc target ctx nodes e) (hread : Readable nodes)
    (hvalid : queryType attrs nodes) : Structural e ∧ ¬ PlainQuery target nodes := by
  cases h with
  | text h hr he =>
      obtain ⟨hbuf, -⟩ | ⟨-, hsql⟩ := element_of_queryType hvalid h
      · exact absurd hbuf (by decide)
      · obtain ⟨hs, hplain⟩ := he.refused (hread.element h) hsql
        exact ⟨hs, fun hp => hplain (hp.texts _ _ h hr)⟩
  | element h hname =>
      obtain ⟨hqp | hqr, -⟩ | ⟨hsql, -⟩ := element_of_queryType hvalid h
      · exact absurd hqp hname.1
      · exact absurd hqr hname.2.1
      · exact absurd hsql hname.2.2
  | cdataSection h =>
      exact ⟨structural_notElement _ _, fun hp => by simpa [Dom.IsElement] using hp.kinds _ h⟩
  | other h =>
      exact ⟨structural_notElement _ _, fun hp => by simpa [Dom.IsElement] using hp.kinds _ h⟩

/-- What is raised for a child of a valid document is the exception for a second text, or a
structural one for a node that is not plain. -/
theorem SetExc.refused {attrs : Attrs} {qNdx : Nat} (h : SetExc target ctx qNdx nodes e)
    (hread : Readable nodes) (hvalid : querySetType attrs nodes) :
    Structural e ∧ ¬ Plain target nodes ∨
      IsDuplicate e ∧ ∃ el ∈ qElements qNdx nodes, ¬ (sqlKeys el.children).Nodup := by
  cases h with
  | hdr h he =>
      obtain ⟨hs, hplain⟩ := he.refused (hread.element h)
      exact .inl ⟨hs, fun hp => hplain (hp.header _ _ h)⟩
  | child h he =>
      have hq := mem_qElements h
      obtain ⟨hs, hplain⟩ := he.refused (hread.element hq) (queryType_of_querySetType hvalid hq)
      exact .inl ⟨hs, fun hp => hplain (hp.queries _ _ hq)⟩
  | secondText h he hkeys => exact .inr ⟨he, _, h, hkeys⟩

/-! ## What is loaded -/

theorem plainText_of_ok {txt : Str} (h : getTextNode ctx nodes = .ok txt) : PlainText nodes := by
  intro n hn
  rcases (getTextNode_ok h).2 n hn with ⟨t, ht⟩ | hcomment
  · exact .inl ⟨.ok t, ht⟩
  · exact .inr hcomment

theorem SqlNode.plain (h : ∀ n ∈ nodes, SqlNode ctx n) : PlainSql nodes := by
  intro n hn
  rcases h n hn with ⟨t, ht⟩ | hcomment | ⟨attrs, cs, prep, rfl, hprep⟩
  · exact .inl ⟨.ok t, ht⟩
  · exact .inr (.inl hcomment)
  · exact .inr (.inr ⟨_, _, _, rfl, plainText_of_ok hprep⟩)

theorem QueryLoaded.plain {attrs : Attrs} {ndx : Nat} {q : GsqlQ}
    (h : QueryLoaded target ctx attrs nodes ndx q) : PlainQuery target nodes := by
  constructor
  · intro n hn
    have hkind := h.kinds n hn
    cases n with
    | element name attrs cs => exact .inl ⟨_, _, _, rfl⟩
    | text data => exact .inr (.inl ⟨data, rfl⟩)
    | comment => exact .inr (.inr rfl)
    | cdataSection data => exact hkind.elim
    | other type => exact hkind.elim
  · intro attrs' cs hmem hrel
    rcases h.kinds _ hmem with hqp | hqr | ⟨-, hsql⟩
    · exact absurd hqp (by decide)
    · exact absurd hqr (by decide)
    · exact SqlNode.plain (hsql hrel)

end Raised

variable {σ : Type} {cli : Cli σ}

/-- A document that was loaded is plain. -/
theorem plain_of_loadQSet {attrs : Attrs} {children : List Dom} {filename : Str} {db : Handle}
    {target : Rdbms} {set : GsqlQSet} {w w' : World σ}
    (h : runOn (loadQSet cli attrs children filename db target) w = (.ok set, w')) :
    Plain target children := by
  obtain ⟨-, hhdrs, qs, -, hqs⟩ := loadQSetFrom_ok h
  constructor
  · intro attrs' cs hmem
    obtain ⟨t, ht⟩ := hhdrs attrs' cs hmem
    exact plainText_of_ok ht
  · intro attrs' cs hmem
    obtain ⟨el, hel, rfl, rfl⟩ := exists_qElement 0 hmem
    obtain ⟨q, -, hq⟩ := exists_of_forall₂ hqs hel
    exact hq.plain

/-- The exceptions that loading a valid document ends in. -/
theorem loadQSet_refused {P : Exc → Prop} {attrs : Attrs} {children : List Dom} {filename : Str}
    {db : Handle} {target : Rdbms} (hvalid : querySetType attrs children)
    (hread : Readable children) (hdb : ∀ r, Raises P (loadQSqlsetFromDb cli r db)) {w : World σ}
    {e : Exc} (h : (runOn (loadQSet cli attrs children filename db target) w).1 = .error e) :
    Structural e ∧ ¬ Plain target children ∨
      (∃ el ∈ qElements 0 children, ¬ (sqlKeys el.children).Nodup) ∧ IsDuplicate e ∨
      ¬ (queryIds children).Nodup ∧ IsDuplicateId e ∨ P e := by
  obtain he | he | he := raises_loadQSetFrom_of hdb children 0 _ w e _ (Prod.ext h rfl)
  · rcases he.refused hread hvalid with hs | ⟨hdup, hkeys⟩
    · exact .inl hs
    · exact .inr (.inl ⟨hkeys, hdup⟩)
  · have hdata : ∀ e, HasData children (.error e) → NoStatus e := by
      intro e' hd
      obtain ⟨t, ht, -⟩ := hread _ hd
      cases ht
    have hkeyed : Keyed { id := qSetId attrs filename } := ⟨rfl, List.nodup_nil⟩
    have hraises := (raisesDuplicateId_loadQSetFrom 0 hkeyed hdata w).mp ⟨e, h, he⟩
    refine .inr (.inr (.inl ⟨fun hids => hraises ?_, he⟩))
    exact hids.sublist (loadedIds_isPrefix children 0 w).sublist
  · exact .inr (.inr (.inr he))

/-- How a document that is valid under the grammar is loaded. Whatever the driver answers, no
structural exception is raised for a plain document. Where the driver answers and nothing is
there twice, exactly the plain documents are loaded, and the others end in a structural
exception. -/
theorem loadQSet_structure (cli : Cli σ) (attrs : Attrs) (children : List Dom) (filename : Str)
    (db : Handle) (target : Rdbms) (hvalid : querySetType attrs children)
    (hread : Readable children) (w : World σ) :
    let run := (runOn (loadQSet cli attrs children filename db target) w).1
    (Plain target children → ∀ e, run = .error e → ¬ Structural e) ∧
      (Answers cli → (queryIds children).Nodup →
        (∀ el ∈ qElements 0 children, (sqlKeys el.children).Nodup) →
        (Plain target children → ∃ set, run = .ok set) ∧
          (¬ Plain target children → ∃ e, run = .error e ∧ Structural e)) := by
  intro run
  constructor
  · intro hplain e he
    have hdb : ∀ r, Raises FromDatabase (loadQSqlsetFromDb cli r db) := fun r =>
      raises_loadQSqlsetFromDb r db
    obtain ⟨-, hnot⟩ | ⟨-, msg, rfl⟩ | ⟨-, msg, rfl⟩ | hfrom := loadQSet_refused hvalid hread hdb he
    · exact absurd hplain hnot
    · exact not_structural_dbgen3Exc _ msg
    · exact not_structural_dbgen3Exc _ msg
    · exact hfrom.not_structural
  · intro hcli hids hkeys
    have hdb : ∀ r, Raises (fun _ => False) (loadQSqlsetFromDb cli r db) := fun r =>
      hcli.raises_loadQSqlsetFromDb r db
    have herror : ∀ e, run = .error e → Structural e ∧ ¬ Plain target children := by
      intro e he
      obtain h | ⟨⟨el, hel, hdup⟩, -⟩ | ⟨hdup, -⟩ | hfalse := loadQSet_refused hvalid hread hdb he
      · exact h
      · exact absurd (hkeys el hel) hdup
      · exact absurd hids hdup
      · exact hfalse.elim
    constructor
    · intro hplain
      cases hrun : run with
      | ok set => exact ⟨set, rfl⟩
      | error e => exact absurd hplain (herror e hrun).2
    · intro hplain
      cases hrun : run with
      | ok set => exact absurd (plain_of_loadQSet (Prod.ext hrun rfl)) hplain
      | error e => exact ⟨e, rfl, (herror e hrun).1⟩

/-- The driver that answers every call with success and describes integers. -/
def describing : Cli Unit where
  call _ _ := ({ rc := Runtime.sqlSuccess, dscr := { type := 4 } }, ())
  diag _ _ _ := []

theorem answers_describing : Answers describing := by
  have hd : Described { type := 4 } := ⟨.integer, .noNulls, by decide, by decide, by decide⟩
  exact ⟨fun _ _ => rfl, fun _ _ => hd⟩

theorem validAttrs_nil (decls : AttrDecls) : ValidAttrs decls [] := ⟨List.nodup_nil, nofun⟩

/-- A document with a header and one query is valid where the children of the query are. -/
theorem querySetType_of_one {nodes : List Dom} {els : List Element}
    (hnodes : ElementContent nodes) (hels : elements nodes = els)
    (h : ∃ hdr q, els = hdr ++ [q] ∧ hdr.length ≤ 1 ∧ (∀ el ∈ hdr, el.name = "hdr".toList) ∧
      q.name = "q".toList ∧ queryType q.attrs q.children) : querySetType [] nodes := by
  obtain ⟨hdr, q, rfl, hlen, hhdr, hname, hq⟩ := h
  refine ⟨validAttrs_nil _, hnodes, hdr, [q], hels, Nat.zero_le _, ?_, ?_, ?_⟩
  · intro n hn
    obtain rfl := Option.some.inj hn
    exact hlen
  · exact fun el hel => ⟨hhdr el hel, trivial⟩
  · apply Sequence.last
    · exact Nat.le_refl 1
    · exact nofun
    · intro el hel
      obtain rfl := List.mem_singleton.mp hel
      exact ⟨hname, hq⟩

/-- A query of texts only is valid. -/
theorem queryType_of_texts {nodes : List Dom} (hnodes : ElementContent nodes)
    (h : ∀ el ∈ elements nodes, el.name = "sql".toList ∧ sqlType el.attrs el.children) :
    queryType [] nodes := by
  refine ⟨validAttrs_nil _, hnodes, Sequence.skip (Sequence.skip ?_ rfl) rfl⟩
  exact Sequence.last (Nat.zero_le _) nofun h

theorem isElement_element (name : Str) (attrs : Attrs) (cs : List Dom) :
    (Dom.element name attrs cs).IsElement := ⟨name, attrs, cs, rfl⟩

theorem elementContent_singleton {n : Dom} (h : n.IsElement ∨ n.IsMarkup) : ElementContent [n] := by
  intro m hm
  obtain rfl := List.mem_singleton.mp hm
  exact h.imp_right .inl

/-- A document with one text without elements is valid. -/
theorem querySetType_of_text {nodes : List Dom}
    (h : ∀ n ∈ nodes, n.IsMarkup ∨ n.IsChars fun _ => True) :
    querySetType [] [.element "q" [] [.element "sql" [] nodes]] := by
  have hnone : elements nodes = [] := by
    refine List.eq_nil_iff_forall_not_mem.mpr fun el hel => ?_
    rcases h _ (mem_elements.mp hel) with (h | h) | ⟨t, -, h | h⟩
    · cases h
    · cases h
    · cases h
    · cases h
  have hsql : sqlType [] nodes :=
    ⟨validAttrs_nil _, fun n hn => .inr (h n hn), Sequence.skip hnone rfl⟩
  have hq : queryType [] [.element "sql" [] nodes] := by
    apply queryType_of_texts
    · exact elementContent_singleton (.inl (isElement_element _ _ _))
    · intro el hel
      obtain rfl := List.mem_singleton.mp hel
      exact ⟨rfl, hsql⟩
  refine querySetType_of_one ?_ rfl ⟨[], _, rfl, Nat.zero_le _, nofun, rfl, hq⟩
  exact elementContent_singleton (.inl (isElement_element _ _ _))

/-- A document with one text. -/
def oneText : List Dom := [.element "q" [] [.element "sql" [] [.text (.ok "select 1")]]]

/-- A document without processing instructions is loaded. -/
theorem loadQSet_structure_one_text :
    ∃ set, (runOn (loadQSet describing [] oneText "x.xml" 1 .db2) (World.start ())).1 =
      .ok set := by
  have hvalid : querySetType [] oneText := by
    apply querySetType_of_text
    intro n hn
    obtain rfl := List.mem_singleton.mp hn
    exact .inr ⟨_, fun _ _ => trivial, .inl rfl⟩
  have hread : Readable oneText := by
    intro data hd
    simp only [oneText, hasData_element, hasData_text, hasData_nil, or_false] at hd
    exact ⟨_, hd, by decide⟩
  have hsql : PlainSql [.text (.ok "select 1")] := by
    intro n hn
    exact .inl ⟨_, .inl (List.mem_singleton.mp hn)⟩
  have hquery : PlainQuery .db2 [.element "sql" [] [.text (.ok "select 1")]] := by
    constructor
    · intro n hn
      obtain rfl := List.mem_singleton.mp hn
      exact .inl (isElement_element _ _ _)
    · intro attrs cs hmem _
      cases List.mem_singleton.mp hmem
      exact hsql
  have hplain : Plain .db2 oneText := by
    constructor
    · intro attrs cs hmem
      simp [oneText] at hmem
    · intro attrs cs hmem
      cases List.mem_singleton.mp hmem
      exact hquery
  have hkeys : ∀ el ∈ qElements 0 oneText, (sqlKeys el.children).Nodup := by
    intro el hel
    obtain rfl := List.mem_singleton.mp hel
    decide +kernel
  obtain ⟨-, h⟩ :=
    loadQSet_structure describing [] oneText "x.xml" 1 .db2 hvalid hread (World.start ())
  exact (h answers_describing (by decide +kernel) hkeys).1 hplain

/-- A processing instruction. -/
def instruction : Dom := .other .processingInstructionNode

/-- A processing instruction in a text. -/
def instructionInText : List Dom :=
  [.element "q" [] [.element "sql" [] [.text (.ok "select 1"), instruction]]]

/-- An element in the header. -/
def elementInHeader : List Dom := [.element "hdr" [] [.element "b" [] []], .element "q" [] []]

/-- A processing instruction in a query. -/
def instructionInQuery : List Dom := [.element "q" [] [instruction]]

/-- The document is valid and nothing is there twice, but a loader refuses it although the
driver answers every call. -/
structure RefusedValid (children : List Dom) : Prop where
  valid : querySetType [] children
  readable : Readable children
  ids : (queryIds children).Nodup
  keys : ∀ el ∈ qElements 0 children, (sqlKeys el.children).Nodup
  refused : ∃ e, (runOn (loadQSet describing [] children "x.xml" 1 .db2) (World.start ())).1 =
    .error e ∧ Structural e

theorem valid_documents_refused :
    Answers describing ∧ RefusedValid instructionInText ∧ RefusedValid elementInHeader ∧
      RefusedValid instructionInQuery := by
  have hinstruction : instruction.IsMarkup := .inr rfl
  refine ⟨answers_describing, ?_, ?_, ?_⟩
  · constructor
    · apply querySetType_of_text
      intro n hn
      rcases List.mem_cons.mp hn with rfl | hn
      · exact .inr ⟨_, fun _ _ => trivial, .inl rfl⟩
      · obtain rfl := List.mem_singleton.mp hn
        exact .inl hinstruction
    · intro data hd
      simp only [instructionInText, instruction, hasData_element, hasData_text, hasData_other,
        hasData_nil, or_false] at hd
      exact ⟨_, hd, by decide⟩
    · decide +kernel
    · intro el hel
      obtain rfl := List.mem_singleton.mp hel
      decide +kernel
    · exact ⟨notText .processingInstructionNode ["x".toList, "q_1".toList], by decide +kernel,
        structural_notText _ _⟩
  · have hq : queryType [] [] := queryType_of_texts nofun nofun
    constructor
    · refine querySetType_of_one ?_ rfl ⟨[_], _, rfl, by decide, ?_, rfl, hq⟩
      · intro n hn
        rcases List.mem_cons.mp hn with rfl | hn
        · exact .inl (isElement_element _ _ _)
        · exact elementContent_singleton (.inl (isElement_element _ _ _)) n hn
      · intro el hel
        obtain rfl := List.mem_singleton.mp hel
        rfl
    · intro data hd
      simp only [elementInHeader, hasData_element, hasData_nil, or_false] at hd
    · decide +kernel
    · intro el hel
      obtain rfl := List.mem_singleton.mp hel
      decide +kernel
    · exact ⟨.runtimeError "mixed contents", by decide +kernel, structural_mixed⟩
  · have hq : queryType [] [instruction] :=
      queryType_of_texts (elementContent_singleton (.inr hinstruction)) nofun
    constructor
    · refine querySetType_of_one ?_ rfl ⟨[], _, rfl, by decide, nofun, rfl, hq⟩
      exact elementContent_singleton (.inl (isElement_element _ _ _))
    · intro data hd
      simp only [instructionInQuery, instruction, hasData_element, hasData_other, hasData_nil,
        or_false] at hd
    · decide +kernel
    · intro el hel
      obtain rfl := List.mem_singleton.mp hel
      decide +kernel
    · exact ⟨loadQChild.notElement ["x".toList, "q_1".toList] .processingInstructionNode,
        by decide +kernel, structural_notElement _ _⟩

end Dbgen3.Generator
