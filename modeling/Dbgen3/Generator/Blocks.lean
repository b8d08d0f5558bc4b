import Dbgen3.Generator.GenCpp
import Dbgen3.Generator.Namespaces

/-!
# The queries of a generated file

A generated file is a head, one block for each query and a tail. The block of a
query is a namespace with three classes, or a comment line where the text that
was selected for the query is blank.
-/

namespace Dbgen3.Generator

open Act Text
open Dbgen3.Runtime (Cli World Handle)

/-! ## Parts -/

/-- The first part and the others are there. -/
theorem concat_cons_eq_ok {part : Except Exc Str} {parts : List (Except Exc Str)} {text : Str}
    (h : concat (part :: parts) = .ok text) :
    ∃ t rest, part = .ok t ∧ concat parts = .ok rest ∧ text = t ++ rest := by
  obtain ⟨t, ht, h⟩ := except_bind_eq_ok h
  obtain ⟨rest, hrest, h⟩ := except_bind_eq_ok h
  exact ⟨t, rest, ht, hrest, (Except.ok.inj h).symm⟩

theorem concat_text_eq_ok {t text : Str} {parts : List (Except Exc Str)}
    (h : concat (.ok t :: parts) = .ok text) :
    ∃ rest, concat parts = .ok rest ∧ text = t ++ rest := by
  obtain ⟨t', rest, ht, hrest, htext⟩ := concat_cons_eq_ok h
  obtain rfl := Except.ok.inj ht
  exact ⟨rest, hrest, htext⟩

/-- All parts are there. -/
theorem concat_eq_ok {parts : List (Except Exc Str)} {text : Str} (h : concat parts = .ok text) :
    ∃ texts : List Str, parts = texts.map .ok ∧ text = texts.flatten := by
  induction parts generalizing text with
  | nil =>
      obtain rfl := Except.ok.inj h
      exact ⟨[], rfl, rfl⟩
  | cons part parts ih =>
      obtain ⟨head, rest, rfl, hrest, rfl⟩ := concat_cons_eq_ok h
      obtain ⟨texts, rfl, rfl⟩ := ih hrest
      exact ⟨head :: texts, rfl, rfl⟩

/-- The parts of a list, one for each element. -/
theorem concat_map_eq_ok {α : Type} {f : α → Except Exc Str} {l : List α} {text : Str}
    (h : concat (l.map f) = .ok text) :
    ∃ texts : List Str, List.Forall₂ (fun a t => f a = .ok t) l texts ∧ text = texts.flatten := by
  obtain ⟨texts, hparts, rfl⟩ := concat_eq_ok h
  refine ⟨texts, ?_, rfl⟩
  have hpair : List.Forall₂ (· = ·) (l.map f) (texts.map .ok) :=
    List.forall₂_eq_eq_eq.symm ▸ hparts
  rwa [List.forall₂_map_left_iff, List.forall₂_map_right_iff] at hpair

/-! ## Blocks -/

/-- What a query contributes to the file. -/
inductive Block
  | comment (ns : Str)
  | code (ns body : Str)

namespace Block

/-- The query namespace that a block opens. -/
def opened : Block → Option Str
  | comment _ => none
  | code ns _ => some ns

/-- The text of a block: a comment line, or the body in its namespace. -/
def render (offs : Nat) : Block → Except Exc Str
  | comment ns =>
      lineText (" There is no valid SQL statement in query '" ++ ns ++
        "'. No code is generated. ") offs '!'
  | code ns body => do
      let title ← lineText ns offs
      pure (title ++ sl ("namespace " ++ ns) offs ++ sl "\x7b" offs ++ body ++
        sl ("\x7d; //namespace " ++ ns) offs)

end Block

/-- The block of a query. The body of a namespace is made of its three classes. -/
inductive BlockOf (offs : Nat) (q : GsqlQ) : Block → Prop
  | comment (h : q.sql = []) : BlockOf offs q (.comment q.namespaceStr)
  | code {body : Str} (h : q.sql ≠ [])
      (hbody : concat [genBuf q .par (offs + 2), genBuf q .res (offs + 2), genUtl q (offs + 2)] =
        .ok body) : BlockOf offs q (.code q.namespaceStr body)

theorem genQuery_eq_ok {q : GsqlQ} {offs : Nat} {text : Str} (h : genQuery q offs = .ok text) :
    ∃ b, BlockOf offs q b ∧ b.render offs = .ok text := by
  by_cases hsql : q.sql = []
  · refine ⟨_, .comment hsql, ?_⟩
    rwa [genQuery, if_neg (not_not_intro hsql)] at h
  · rw [genQuery, if_pos hsql] at h
    obtain ⟨title, _, htitle, h₁, rfl⟩ := concat_cons_eq_ok h
    obtain ⟨_, h₂, rfl⟩ := concat_text_eq_ok h₁
    obtain ⟨_, h₃, rfl⟩ := concat_text_eq_ok h₂
    obtain ⟨par, _, hpar, h₄, rfl⟩ := concat_cons_eq_ok h₃
    obtain ⟨res, _, hres, h₅, rfl⟩ := concat_cons_eq_ok h₄
    obtain ⟨utl, _, hutl, h₆, rfl⟩ := concat_cons_eq_ok h₅
    obtain ⟨_, h₇, rfl⟩ := concat_text_eq_ok h₆
    obtain rfl := Except.ok.inj h₇
    refine ⟨.code q.namespaceStr (par ++ res ++ utl), .code hsql ?_, ?_⟩
    · rw [hpar, hres, hutl]
      simp [concat, bind, Except.bind, pure, Except.pure]
    · have hname : q.namespaceStr = snakeCase q.id := rfl
      rw [Block.render, hname, htitle]
      simp [bind, Except.bind, pure, Except.pure]

/-! ## Files -/

/-- The text in front of the queries. -/
def fileHead (set : GsqlQSet) (timeStr : Str) (offs : Nat) : Str :=
  sl ("/* auto generated '" ++ timeStr.take (timeStr.length - 1) ++ "' - do not alter */") offs ++
  sl ("#ifndef gen_" ++ set.namespaceStr ++ "_hpp") ++
  sl ("#define gen_" ++ set.namespaceStr ++ "_hpp") ++
  genIncludes offs ++ genCustomHeader set offs ++
  sl ("namespace " ++ set.namespaceStr) offs ++ sl "\x7b" offs ++
  sl "  using uint       = std::size_t;" offs ++
  sl "  using str_t      = std::string;" offs ++
  sl "  using cstr_t     = std::string_view;" offs ++
  sl "  using bstr_t     = std::span<uint8_t>;" offs ++
  sl "  using cbstr_t    = std::span<const uint8_t>;" offs

/-- The text behind the queries. -/
def fileTail (set : GsqlQSet) (offs : Nat) : Str :=
  sl ("\x7d; //namespace " ++ set.namespaceStr) offs ++
  sl ("#endif // gen_" ++ set.namespaceStr ++ "_hpp")

theorem genFile_eq_ok {set : GsqlQSet} {timeStr text : Str} {offs : Nat}
    (h : genFile set timeStr offs = .ok text) :
    ∃ queries, genQueries set offs = .ok queries ∧
      text = fileHead set timeStr offs ++ queries ++ fileTail set offs := by
  iterate 12
    replace h := concat_text_eq_ok h
    obtain ⟨_, h, rfl⟩ := h
  replace h := concat_cons_eq_ok h
  obtain ⟨queries, _, hqueries, h, rfl⟩ := h
  iterate 2
    replace h := concat_text_eq_ok h
    obtain ⟨_, h, rfl⟩ := h
  obtain rfl := Except.ok.inj h
  refine ⟨queries, hqueries, ?_⟩
  simp only [fileHead, fileTail, List.append_assoc, List.append_nil]

/-- The text of a file is its head, the texts of the blocks in order and its tail. -/
structure FileOf (set : GsqlQSet) (timeStr : Str) (offs : Nat) (text : Str)
    (blocks : List Block) : Prop where
  queries : List.Forall₂ (BlockOf (offs + 2)) set.qVec blocks
  text : ∃ texts : List Str, List.Forall₂ (fun b t => Block.render (offs + 2) b = .ok t) blocks texts ∧
    text = fileHead set timeStr offs ++ texts.flatten ++ fileTail set offs

theorem exists_blocks {offs : Nat} {qs : List GsqlQ} {texts : List Str}
    (h : List.Forall₂ (fun q t => genQuery q offs = .ok t) qs texts) :
    ∃ blocks, List.Forall₂ (BlockOf offs) qs blocks ∧
      List.Forall₂ (fun b t => Block.render offs b = .ok t) blocks texts := by
  induction h with
  | nil => exact ⟨[], .nil, .nil⟩
  | cons hq _ ih =>
      obtain ⟨b, hof, hrender⟩ := genQuery_eq_ok hq
      obtain ⟨blocks, hall, hrenders⟩ := ih
      exact ⟨b :: blocks, .cons hof hall, .cons hrender hrenders⟩

theorem fileOf_genFile {set : GsqlQSet} {timeStr text : Str} {offs : Nat}
    (h : genFile set timeStr offs = .ok text) : ∃ blocks, FileOf set timeStr offs text blocks := by
  obtain ⟨queries, hqueries, rfl⟩ := genFile_eq_ok h
  obtain ⟨texts, htexts, rfl⟩ := concat_map_eq_ok hqueries
  obtain ⟨blocks, hof, hrender⟩ := exists_blocks htexts
  exact ⟨blocks, hof, texts, hrender, rfl⟩

/-! ## The namespaces of a file -/

/-- The selected text of a query has a character that is not blank. -/
def QElement.hasCode (target : Rdbms) (el : QElement) : Bool :=
  ((selectedText target el.children).getD []).any fun c => ! isspace c

/-- The namespace of a query. -/
def QElement.ns (el : QElement) : Str := snakeCase el.id

variable {σ : Type} {cli : Cli σ} {target : Rdbms}

/-- A character of a text that was read is one of a text node. -/
theorem mem_textOf {c : Char} {children : List Dom} (h : c ∈ textOf children) :
    ∃ t, c ∈ t ∧ HasData children (.ok t) := by
  have hdata : ∀ {n : Dom} {rest : List Dom} {t : Str},
      n = .text (.ok t) ∨ n = .cdataSection (.ok t) → c ∈ t ++ textOf rest →
      (c ∈ textOf rest → ∃ t, c ∈ t ∧ HasData rest (.ok t)) →
      ∃ t, c ∈ t ∧ HasData (n :: rest) (.ok t) := by
    intro n rest t hn hc ih
    rcases List.mem_append.mp hc with hc | hc
    · exact ⟨t, hc, .data (hn.imp (by simp [·]) (by simp [·]))⟩
    · obtain ⟨t', hc', hd⟩ := ih hc
      exact ⟨t', hc', hd.cons⟩
  induction children with
  | nil => cases h
  | cons n rest ih =>
      have hcons : c ∈ textOf rest → ∃ t, c ∈ t ∧ HasData (n :: rest) (.ok t) := by
        intro hc
        obtain ⟨t, hct, hd⟩ := ih hc
        exact ⟨t, hct, hd.cons⟩
      match n with
      | .text (.ok t) => exact hdata (.inl rfl) h ih
      | .cdataSection (.ok t) => exact hdata (.inr rfl) h ih
      | .text (.error e) => exact hcons h
      | .cdataSection (.error e) => exact hcons h
      | .comment => exact hcons h
      | .element name attrs cs => exact hcons h
      | .other type => exact hcons h

theorem mem_sqlTexts {k : Option Rdbms} {txt : Str} {children : List Dom}
    (h : (k, txt) ∈ sqlTexts children) :
    ∃ attrs cs, .element "sql" attrs cs ∈ children ∧ txt = textOf cs := by
  induction children with
  | nil => cases h
  | cons n rest ih =>
      have hcons : (k, txt) ∈ sqlTexts rest →
          ∃ attrs cs, .element "sql" attrs cs ∈ n :: rest ∧ txt = textOf cs := by
        intro h
        obtain ⟨attrs, cs, hmem, htxt⟩ := ih h
        exact ⟨attrs, cs, List.mem_cons_of_mem _ hmem, htxt⟩
      cases n with
      | element name attrs cs =>
          rw [sqlTexts] at h
          split at h
          · next hname =>
            subst hname
            rcases List.mem_cons.mp h with h | h
            · exact ⟨attrs, cs, List.mem_cons_self, (Prod.mk.inj h).2⟩
            · exact hcons h
          · exact hcons h
      | text data => exact hcons h
      | cdataSection data => exact hcons h
      | comment => exact hcons h
      | other type => exact hcons h

theorem mem_selectedText {c : Char} {children : List Dom}
    (h : c ∈ (selectedText target children).getD []) : ∃ t, c ∈ t ∧ HasData children (.ok t) := by
  cases hsel : selectedText target children with
  | none =>
      rw [hsel] at h
      cases h
  | some txt =>
      rw [hsel] at h
      obtain ⟨⟨k, txt'⟩, hfind, rfl⟩ := Option.map_eq_some_iff.mp hsel
      have hmem : (k, txt') ∈ sqlTexts children := by
        rw [Option.orElse_eq_orElse, Option.orElse_eq_or] at hfind
        rcases Option.or_eq_some_iff.mp hfind with hfind | ⟨-, hfind⟩
        · exact List.mem_of_find?_eq_some hfind
        · exact List.mem_of_find?_eq_some hfind
      obtain ⟨attrs, cs, hel, rfl⟩ := mem_sqlTexts hmem
      obtain ⟨t, hct, hd⟩ := mem_textOf h
      exact ⟨t, hct, .element hel hd⟩

theorem hasData_qElements {nodes : List Dom} {qNdx : Nat} {el : QElement}
    (h : el ∈ qElements qNdx nodes) {data : Except Exc Str} (hd : HasData el.children data) :
    HasData nodes data :=
  .element (mem_qElements h) hd

/-- A loaded query has a text exactly where the selected text has a character that is not
blank. -/
theorem sql_ne_nil_iff {ctx : List Str} {el : QElement} {q : GsqlQ}
    (hq : QueryLoaded target ctx el.attrs el.children el.ndx q)
    (hnull : ∀ t, HasData el.children (.ok t) → '\x00' ∉ t) :
    q.sql ≠ [] ↔ el.hasCode target = true := by
  have htext : '\x00' ∉ (selectedText target el.children).getD [] := by
    intro h
    obtain ⟨t, hc, hd⟩ := mem_selectedText h
    exact hnull t hd hc
  rw [hq.sql, Ne, MultiLine.toStr_ofView_eq_nil_iff htext, QElement.hasCode, List.any_eq_true]
  simp

/-- The block of a query element: a namespace where it has code, and a comment line else. -/
def QElement.Contributes (target : Rdbms) (el : QElement) (b : Block) : Prop :=
  if el.hasCode target then ∃ body, b = .code el.ns body else b = .comment el.ns

theorem QElement.Contributes.opened {el : QElement} {b : Block} (h : el.Contributes target b) :
    b.opened = if el.hasCode target then some el.ns else none := by
  unfold QElement.Contributes at h
  split at h
  · next hc =>
    obtain ⟨body, rfl⟩ := h
    rw [if_pos hc]
    rfl
  · next hc =>
    subst h
    rw [if_neg hc]
    rfl

theorem contributes_of_blockOf {ctx : List Str} {el : QElement} {q : GsqlQ} {offs : Nat}
    {b : Block} (hq : QueryLoaded target ctx el.attrs el.children el.ndx q)
    (hnull : ∀ t, HasData el.children (.ok t) → '\x00' ∉ t) (hb : BlockOf offs q b) :
    el.Contributes target b := by
  have hns : q.namespaceStr = el.ns := congrArg snakeCase hq.id
  have hcode := sql_ne_nil_iff hq hnull
  unfold QElement.Contributes
  cases hb with
  | comment h =>
      rw [if_neg fun hc => hcode.mpr hc h, hns]
  | code h hbody =>
      rw [if_pos (hcode.mp h), hns]
      exact ⟨_, rfl⟩

theorem contributes_of_forall₂ {ctx : List Str} {els : List QElement} {qs : List GsqlQ}
    {offs : Nat} {blocks : List Block}
    (hqs : List.Forall₂ (fun el q => QueryLoaded target ctx el.attrs el.children el.ndx q) els qs)
    (hnull : ∀ el ∈ els, ∀ t, HasData el.children (.ok t) → '\x00' ∉ t)
    (hblocks : List.Forall₂ (BlockOf offs) qs blocks) :
    List.Forall₂ (QElement.Contributes target) els blocks := by
  induction hqs generalizing blocks with
  | nil =>
      cases hblocks
      exact .nil
  | cons hq _ ih =>
      cases hblocks with
      | cons hb hblocks =>
          have hhead := hnull _ List.mem_cons_self
          have htail := fun el hel => hnull el (List.mem_cons_of_mem _ hel)
          exact .cons (contributes_of_blockOf hq hhead hb) (ih htail hblocks)

/-- The namespaces that blocks open, in order. -/
def openedNamespaces (blocks : List Block) : List Str := blocks.filterMap Block.opened

theorem openedNamespaces_eq {els : List QElement} {blocks : List Block}
    (h : List.Forall₂ (QElement.Contributes target) els blocks) :
    openedNamespaces blocks = (els.filter (QElement.hasCode target)).map QElement.ns := by
  induction h with
  | nil => rfl
  | @cons el b els blocks hel _ ih =>
      unfold openedNamespaces at ih ⊢
      cases hc : el.hasCode target with
      | true =>
          rw [List.filter_cons_of_pos hc, List.map_cons, ← ih]
          exact List.filterMap_cons_some (by rw [hel.opened, if_pos hc])
      | false =>
          rw [List.filter_cons_of_neg (by simp [hc]), ← ih]
          exact List.filterMap_cons_none (by rw [hel.opened, if_neg (by simp [hc])])

/-- The file generated for an accepted document has one block for each query, in the order of
the document. The namespaces it opens are those of the queries whose selected text is not
blank, and every other query contributes its comment line only. -/
theorem genFile_namespaces (attrs : Attrs) (children : List Dom) (filename : Str) (db : Handle)
    (hnull : ∀ t, HasData children (.ok t) → '\x00' ∉ t) {w w' : World σ} {set : GsqlQSet}
    (hload : runOn (loadQSet cli attrs children filename db target) w = (.ok set, w'))
    {timeStr text : Str} {offs : Nat} (hgen : genFile set timeStr offs = .ok text) :
    ∃ blocks, FileOf set timeStr offs text blocks ∧
      List.Forall₂ (QElement.Contributes target) (qElements 0 children) blocks ∧
      openedNamespaces blocks =
        ((qElements 0 children).filter (QElement.hasCode target)).map QElement.ns := by
  obtain ⟨-, hqs⟩ := loadQSet_ok hload
  obtain ⟨blocks, hfile⟩ := fileOf_genFile hgen
  have hblocks : List.Forall₂ (QElement.Contributes target) (qElements 0 children) blocks :=
    contributes_of_forall₂ hqs (fun _ hel t hd => hnull t (hasData_qElements hel hd))
      hfile.queries
  exact ⟨blocks, hfile, hblocks, openedNamespaces_eq hblocks⟩

/-- Of three queries the blank one opens no namespace. -/
theorem genFile_namespaces_three_queries :
    let children := textQueries [("b", "select 1"), ("blank", " \n "), ("a", "select 2")]
    ∃ set text blocks,
      (runOn (loadQSet Cli.silent [] children "x.xml" 1 .db2) (World.start ())).1 = .ok set ∧
      genFile set "now" 0 = .ok text ∧ FileOf set "now" 0 text blocks ∧
      openedNamespaces blocks = ["b".toList, "a".toList] := by
  intro children
  have hnull : ∀ t, HasData children (.ok t) → '\x00' ∉ t := by
    intro t hd
    obtain ⟨q, hq, ht⟩ := mem_of_hasData_textQueries hd
    have hall : ∀ q ∈ [("b".toList, "select 1".toList), ("blank".toList, " \n ".toList),
        ("a".toList, "select 2".toList)], '\x00' ∉ q.2 := by
      decide
    rw [Except.ok.inj ht]
    exact hall q hq
  have hok : (((runOn (loadQSet Cli.silent [] children "x.xml" 1 .db2) (World.start ())).1.bind
      fun set => genFile set "now" 0).isOk) = true := by
    decide +kernel
  rcases hload : runOn (loadQSet Cli.silent [] children "x.xml" 1 .db2) (World.start ()) with
    ⟨e | set, w'⟩
  · rw [hload] at hok
    cases hok
  rw [hload] at hok
  change (genFile set "now" 0).isOk = true at hok
  obtain ⟨text, hgen⟩ : ∃ text, genFile set "now" 0 = .ok text := by
    cases hgen : genFile set "now" 0 with
    | error e =>
        rw [hgen] at hok
        cases hok
    | ok text => exact ⟨text, rfl⟩
  obtain ⟨blocks, hfile, -, hopened⟩ :=
    genFile_namespaces [] children "x.xml" 1 hnull hload hgen
  refine ⟨set, text, blocks, rfl, hgen, hfile, ?_⟩
  rw [hopened]
  decide +kernel

end Dbgen3.Generator
