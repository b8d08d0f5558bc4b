import Dbgen3.Generator.Columns
import Dbgen3.Generator.Constants

/-!
# The lines of a class

The text of a buffer class, line by line: the lines in front of its private
section, those of the three loops over the fields, and those of the two arrays.
None of them but the first line of the private section starts it, no line of a
field starts an array, and only the last line looks like the end of a class.
-/

namespace Dbgen3.Generator

open Text
open Dbgen3.Runtime (BufType attrType ctName dbtName names_of_attrType)

/-! ## Lines -/

/-- The physical lines of a text, each with its line break. -/
def textLines (text : Str) : List Str := (getlines '\n' text).map fun l => l ++ ['\n']

/-- Behind its blanks the line starts with the text. -/
def starts (mark line : Str) : Bool := mark.isPrefixOf (line.dropWhile (· = ' '))

/-- The member that a line declares, and its constant for the decimal places. -/
def memberVar (line : Str) : Option (Member × Option Str) :=
  if starts "db::" line then some (declared line, (constantsIn line)[1]?) else none

/-! ## Printed lines -/

/-- A line of a text: it has a line break at its end only. -/
def Line (l : Str) : Prop := ∃ body, '\n' ∉ body ∧ l = body ++ ['\n']

theorem line_sl {msg : Str} (h : '\n' ∉ msg) (offs : Nat) : Line (sl msg offs) :=
  ⟨s msg offs, newline_notMem_s h offs, rfl⟩

theorem textLines_flatten {lines : List Str} (h : ∀ l ∈ lines, Line l) :
    textLines lines.flatten = lines := by
  induction lines with
  | nil => rfl
  | cons l lines ih =>
      obtain ⟨⟨body, hbody, rfl⟩, hlines⟩ := List.forall_mem_cons.mp h
      have hrest := ih hlines
      unfold textLines at hrest ⊢
      rw [List.flatten_cons, List.append_assoc, List.singleton_append, getlines_append hbody,
        List.map_cons, hrest]

/-- The text starts with something else than `mark`, and not with a blank. -/
def Apart (p mark : Str) : Prop := (∃ c ∈ p.head?, c ≠ ' ') ∧ ¬ (p <+: mark ∨ mark <+: p)

instance (p mark : Str) : Decidable (Apart p mark) := inferInstanceAs (Decidable (_ ∧ _))

theorem dropWhile_sl {p msg : Str} (hp : ∃ c ∈ p.head?, c ≠ ' ') (h : p <+: msg) (offs : Nat) :
    (sl msg offs).dropWhile (· = ' ') = msg ++ ['\n'] := by
  obtain ⟨c, hc, hblank⟩ := hp
  obtain ⟨p', rfl⟩ : ∃ p', p = c :: p' := List.head?_eq_some_iff.mp hc
  obtain ⟨rest, rfl⟩ := h
  have hskip : (sl (c :: p' ++ rest) offs).dropWhile (· = ' ') =
      (c :: p' ++ rest ++ ['\n']).dropWhile (· = ' ') := by
    rw [sl, s, List.append_assoc]
    exact List.dropWhile_append_of_pos fun c hc => decide_eq_true (List.eq_of_mem_replicate hc)
  rw [hskip]
  exact List.dropWhile_cons_of_neg (by simpa using hblank)

theorem starts_sl {mark msg : Str} (hmark : ∃ c ∈ mark.head?, c ≠ ' ') (h : mark <+: msg)
    (offs : Nat) : starts mark (sl msg offs) = true := by
  unfold starts
  rw [dropWhile_sl hmark h, List.isPrefixOf_iff_prefix]
  exact h.trans (List.prefix_append _ _)

theorem not_starts_sl {mark p msg : Str} (hp : Apart p mark) (h : p <+: msg) (offs : Nat) :
    starts mark (sl msg offs) = false := by
  unfold starts
  rw [dropWhile_sl hp.1 h, Bool.eq_false_iff]
  intro hmark
  rw [List.isPrefixOf_iff_prefix] at hmark
  exact hp.2 (List.prefix_or_prefix_of_prefix (h.trans (List.prefix_append _ _)) hmark)

/-- The text starts with something else than any of the marks. -/
def Free (p : Str) (marks : List Str) : Prop := ∀ mark ∈ marks, Apart p mark

instance (p : Str) (marks : List Str) : Decidable (Free p marks) :=
  inferInstanceAs (Decidable (∀ mark ∈ marks, Apart p mark))

/-- A line that starts with none of the marks. -/
structure LineFree (marks : List Str) (l : Str) : Prop where
  line : Line l
  free : ∀ mark ∈ marks, starts mark l = false

theorem lineFree_sl {marks : List Str} {p msg : Str} (hp : Free p marks) (h : p <+: msg)
    (hn : '\n' ∉ msg) (offs : Nat) : LineFree marks (sl msg offs) :=
  ⟨line_sl hn offs, fun mark hmark => not_starts_sl (hp mark hmark) h offs⟩

/-- A line without parameters. -/
theorem lineFree_whole {marks : List Str} {msg : Str} (hp : Free (msg ++ ['\n']) marks)
    (hhead : ∃ c ∈ msg.head?, c ≠ ' ') (hn : '\n' ∉ msg) (offs : Nat) :
    LineFree marks (sl msg offs) := by
  refine ⟨line_sl hn offs, fun mark hmark => ?_⟩
  unfold starts
  rw [dropWhile_sl hhead (List.prefix_refl msg), Bool.eq_false_iff, ne_eq,
    List.isPrefixOf_iff_prefix]
  exact fun h => (hp mark hmark).2 (.inr h)

/-- Blanks in front of a line do not count. -/
theorem starts_blanks (mark : Str) (n : Nat) (msg : Str) (offs : Nat) :
    starts mark (sl (blanks n ++ msg) offs) = starts mark (sl msg 0) := by
  have hblanks : ∀ k, ∀ c ∈ blanks k, decide (c = ' ') = true := fun k c hc =>
    decide_eq_true (List.eq_of_mem_replicate hc)
  unfold starts
  simp only [sl, s, List.append_assoc]
  rw [List.dropWhile_append_of_pos (hblanks _), List.dropWhile_append_of_pos (hblanks _),
    List.dropWhile_append_of_pos (hblanks _)]

theorem lineFree_blanks {marks : List Str} {p msg : Str} (n : Nat) (hp : Free p marks)
    (h : p <+: msg) (hn : '\n' ∉ msg) (offs : Nat) :
    LineFree marks (sl (blanks n ++ msg) offs) := by
  have hline : '\n' ∉ blanks n ++ msg := by
    rw [List.mem_append, not_or]
    exact ⟨notMem_blanks (by decide) n, hn⟩
  refine ⟨line_sl hline offs, fun mark hmark => ?_⟩
  rw [starts_blanks]
  exact not_starts_sl (hp mark hmark) h 0

theorem LineFree.mono {marks marks' : List Str} {l : Str} (h : LineFree marks l)
    (hsub : ∀ mark ∈ marks', mark ∈ marks) : LineFree marks' l :=
  ⟨h.line, fun mark hmark => h.free mark (hsub mark hmark)⟩

/-- What the end of a class or a namespace starts with, and a raw string literal. -/
def outerMarks : List Str := ["\x7d; //", "R\""]

/-! ## The public section -/

/-- What no line in front of the private section starts with. -/
def publicMarks : List Str := "private:".toList :: outerMarks

/-- A line in front of the private section. -/
def PublicLine (l : Str) : Prop := LineFree publicMarks l

theorem PublicLine.before {l : Str} (h : PublicLine l) : starts "private:" l = false :=
  h.free _ List.mem_cons_self

/-- A text of such lines. -/
def PublicText (text : Str) : Prop :=
  ∃ lines : List Str, text = lines.flatten ∧ ∀ l ∈ lines, PublicLine l

theorem publicText_lines {lines : List Str} (h : ∀ l ∈ lines, PublicLine l) :
    PublicText lines.flatten := ⟨lines, rfl, h⟩

theorem publicText_line {l : Str} (h : PublicLine l) : PublicText l :=
  ⟨[l], List.flatten_singleton.symm, List.forall_mem_singleton.mpr h⟩

theorem PublicText.append {t t' : Str} (h : PublicText t) (h' : PublicText t') :
    PublicText (t ++ t') := by
  obtain ⟨lines, rfl, hlines⟩ := h
  obtain ⟨lines', rfl, hlines'⟩ := h'
  exact ⟨lines ++ lines', List.flatten_append.symm, List.forall_mem_append.mpr ⟨hlines, hlines'⟩⟩

theorem publicText_concat {parts : List (Except Exc Str)} {text : Str}
    (h : concat parts = .ok text) (hparts : ∀ part ∈ parts, ∀ t, part = .ok t → PublicText t) :
    PublicText text := by
  obtain ⟨texts, rfl, rfl⟩ := concat_eq_ok h
  have htexts : ∀ t ∈ texts, PublicText t := fun t ht => hparts _ (List.mem_map_of_mem ht) t rfl
  clear h hparts
  induction texts with
  | nil => exact publicText_lines (List.forall_mem_nil _)
  | cons t texts ih =>
      obtain ⟨ht, htexts⟩ := List.forall_mem_cons.mp htexts
      exact ht.append (ih htexts)

/-- A part that is a line without parameters. -/
theorem publicText_ok {msg t : Str} {offs : Nat} (hp : Free msg publicMarks) (hn : '\n' ∉ msg)
    (h : (Except.ok (sl msg offs) : Except Exc Str) = .ok t) : PublicText t := by
  obtain rfl := Except.ok.inj h
  exact publicText_line (lineFree_sl hp (List.prefix_refl _) hn offs)

theorem ctName_line {dbType : Int} {name : Str} (h : ctName dbType = some name) :
    Free name publicMarks ∧ '\n' ∉ name := by
  obtain ⟨d, hd, rfl⟩ := Option.map_eq_some_iff.mp h
  have hmem : d ∈ Runtime.dscr := List.mem_of_find?_eq_some hd
  have hall : ∀ d ∈ Runtime.dscr, Free d.ctName publicMarks ∧ '\n' ∉ d.ctName := by
    decide +kernel
  exact hall d hmem

theorem newline_notMem_padRight {t : Str} (h : '\n' ∉ t) (n : Nat) : '\n' ∉ padRight n t := by
  unfold padRight blanks
  simp [h]

theorem newline_notMem_append {t t' : Str} (h : '\n' ∉ t) (h' : '\n' ∉ t') : '\n' ∉ t ++ t' := by
  rw [List.mem_append, not_or]
  exact ⟨h, h'⟩

/-- The line of an accessor has no line break where the names of the field have none. -/
theorem newline_notMem_code (a : Accessor) (indexed : Bool) (maxNameLen maxCtypeLen : Nat)
    {el : FldDscr} (hname : '\n' ∉ el.name) (haName : '\n' ∉ el.aName) {cType : Str}
    (hcType : ctName el.type.code = some cType) :
    '\n' ∉ a.code indexed maxNameLen maxCtypeLen el := by
  have hpadded := newline_notMem_padRight hname maxNameLen
  have htype := newline_notMem_padRight (ctName_line hcType).2 maxCtypeLen
  have hcall : '\n' ∉ '.' :: a.call indexed := by
    cases a <;> cases indexed <;> decide
  have hkeyword : '\n' ∉ a.keyword := by
    cases a <;> decide
  have hrow : '\n' ∉ (if indexed then "uint ndx" else "" : Str) := by
    cases indexed <;> decide
  have hrow' : '\n' ∉ (if indexed then ", uint ndx" else "").toList := by
    cases indexed <;> decide
  have hbody : '\n' ∉ '\x7b' :: a.body indexed el.aName :=
    newline_notMem_append (t := ['\x7b']) (by decide)
      (newline_notMem_append hkeyword (newline_notMem_append haName hcall))
  refine newline_notMem_append ?_ hbody
  unfold Accessor.signature
  rw [hcType, Option.getD_some]
  cases a with
  | isNull =>
      exact newline_notMem_append (newline_notMem_append (newline_notMem_append
        (newline_notMem_append (by decide) hpadded) (by decide)) hrow) (by decide)
  | setNull =>
      exact newline_notMem_append (newline_notMem_append (newline_notMem_append
        (newline_notMem_append (by decide) hpadded) (by decide)) hrow) (by decide)
  | get =>
      exact newline_notMem_append (newline_notMem_append (newline_notMem_append
        (newline_notMem_append (newline_notMem_append htype (by decide)) hpadded) (by decide))
          hrow) (by decide)
  | set =>
      exact newline_notMem_append (newline_notMem_append (newline_notMem_append
        (newline_notMem_append (newline_notMem_append (newline_notMem_append (by decide) hpadded)
          (by decide)) htype) (by decide)) hrow') (by decide)

theorem publicLine_accessor (a : Accessor) (indexed : Bool) (maxNameLen maxCtypeLen offs : Nat)
    {el : FldDscr} (hname : '\n' ∉ el.name) (haName : '\n' ∉ el.aName)
    (hel : ctName el.type.code ≠ none) :
    PublicLine (sl (a.code indexed maxNameLen maxCtypeLen el) offs) := by
  obtain ⟨cType, hcType⟩ := Option.ne_none_iff_exists'.mp hel
  have hn := newline_notMem_code a indexed maxNameLen maxCtypeLen hname haName hcType
  have hstart : ∃ p, Free p publicMarks ∧ p <+: a.code indexed maxNameLen maxCtypeLen el := by
    unfold Accessor.code Accessor.signature
    rw [hcType, Option.getD_some]
    cases a with
    | isNull =>
        refine ⟨"bool is_null_", by decide, ?_⟩
        simp only [List.append_assoc]
        exact List.prefix_append _ _
    | setNull =>
        refine ⟨"void set_null_", by decide, ?_⟩
        simp only [List.append_assoc]
        exact List.prefix_append _ _
    | get =>
        refine ⟨cType, (ctName_line hcType).1, ?_⟩
        simp only [padRight, List.append_assoc]
        exact List.prefix_append _ _
    | set =>
        refine ⟨"void set_", by decide, ?_⟩
        simp only [List.append_assoc]
        exact List.prefix_append _ _
  obtain ⟨p, hp, hprefix⟩ := hstart
  exact lineFree_sl hp hprefix hn offs

/-- What is printed between the line of the class and its private section. -/
def publicParts (q : GsqlQ) (bt : BufType) (offs : Nat) : List (Except Exc Str) :=
  ((partsBefore q bt offs).drop 3).dropLast

theorem partsBefore_eq (q : GsqlQ) (bt : BufType) (offs : Nat) :
    partsBefore q bt offs =
      lineText (q.id ++ "::" ++ bt.name) offs :: .ok (sl "template <std::size_t N = 1>" offs) ::
        .ok (sl ("class " ++ snakeCase (q.bufDscr bt).id ++ " : public db::buffer_root<" ++
          bufTypeName bt ++ ", N>") offs) ::
        (publicParts q bt offs ++
          [.ok (sl "private:  /*...private methods & attributes...*/" offs)]) := rfl

/-- Fields whose names have no line break, and which have a C type. -/
structure LineNames (flds : List FldDscr) : Prop where
  names : ∀ el ∈ flds, '\n' ∉ el.name
  aNames : ∀ el ∈ flds, '\n' ∉ el.aName
  typed : ∀ el ∈ flds, ctName el.type.code ≠ none

theorem publicText_accessor (a : Accessor) (indexed : Bool) {flds : List FldDscr}
    (hflds : LineNames flds) {maxNameLen maxCtypeLen offs : Nat} {t : Str}
    (h : a.text indexed flds maxNameLen maxCtypeLen offs = .ok t) : PublicText t := by
  rw [a.text_eq indexed hflds.typed] at h
  obtain rfl := Except.ok.inj h
  have htitle : Free (a.title indexed) publicMarks ∧ '\n' ∉ a.title indexed := by
    cases a <;> cases indexed <;> decide
  unfold framed
  split
  · exact publicText_lines (List.forall_mem_nil _)
  · refine PublicText.append (.append (.append ?_ ?_) (publicText_lines ?_)) ?_
    · exact publicText_line (lineFree_sl htitle.1 (List.prefix_refl _) htitle.2 offs)
    · exact publicText_line (lineFree_sl (by decide : Free "//@\x7b" publicMarks)
        (List.prefix_refl _) (by decide) offs)
    · intro l hl
      obtain ⟨el, hel, rfl⟩ := List.mem_map.mp hl
      exact publicLine_accessor a indexed _ _ _ (hflds.names el hel) (hflds.aNames el hel)
        (hflds.typed el hel)
    · exact publicText_line (lineFree_sl (by decide : Free "//@\x7d" publicMarks)
        (List.prefix_refl _) (by decide) offs)

/-- The lines with blanks of their own in front. -/
theorem publicText_blanks {msg t : Str} (n : Nat) {offs : Nat} (hp : Free msg publicMarks)
    (hn : '\n' ∉ msg) (h : t = sl (blanks n ++ msg) offs) : PublicText t := by
  subst h
  exact publicText_line (lineFree_blanks n hp (List.prefix_refl _) hn offs)

theorem newline_notMem_bufTypeName (bt : BufType) : '\n' ∉ bufTypeName bt := by
  cases bt <;> decide

theorem publicText_defineDefaultCtor {cName : Str} (hname : '\n' ∉ cName) (bt : BufType)
    (offs : Nat) : PublicText (defineDefaultCtor cName bt offs) := by
  have hbt := newline_notMem_bufTypeName bt
  refine PublicText.append (.append ?_ ?_) ?_
  · refine publicText_line (lineFree_sl (by decide : Free "constexpr " publicMarks) ?_ ?_ offs)
    · simp only [List.append_assoc]
      exact List.prefix_append _ _
    · simp [hname, hbt]
  · exact publicText_line (lineFree_sl (by decide : Free "\x7b" publicMarks)
      (List.prefix_refl _) (by decide) offs)
  · exact publicText_line (lineFree_whole (by decide) (by decide) (by decide) offs)

theorem publicText_defineAttributeAccess (offs : Nat) :
    PublicText (defineAttributeAccess offs) := by
  refine PublicText.append (.append ?_ ?_) ?_
  · exact @publicText_blanks "attr_vec_t&       attributes()       override \x7breturn A_;\x7d" _
      6 _ (by decide) (by decide) rfl
  · exact publicText_line (lineFree_sl (by decide : Free "const attr_vec_t&" publicMarks)
      (by decide) (by decide) offs)
  · exact publicText_line (lineFree_sl (by decide : Free "std::span<const cstr_t>" publicMarks)
      (by decide) (by decide) offs)

theorem publicText_publicParts {q : GsqlQ} {bt : BufType} {offs : Nat}
    (hflds : LineNames (q.bufDscr bt).flds) (hname : '\n' ∉ snakeCase (q.bufDscr bt).id) :
    ∀ part ∈ publicParts q bt offs, ∀ t, part = .ok t → PublicText t := by
  have haccessor : ∀ (a : Accessor) (indexed : Bool) (t : Str), a.text indexed (q.bufDscr bt).flds
      (q.bufDscr bt).maxNameLen (q.bufDscr bt).maxCtypeLen (offs + 2) = .ok t → PublicText t :=
    fun a indexed t h => publicText_accessor a indexed hflds h
  unfold publicParts partsBefore
  simp only [List.drop_succ_cons, List.drop_zero, List.dropLast_cons_cons, List.dropLast_singleton]
  refine List.forall_mem_cons.mpr ⟨fun t h => publicText_ok (by decide) (by decide) h, ?_⟩
  refine List.forall_mem_cons.mpr ⟨fun t h => publicText_ok (by decide) (by decide) h, ?_⟩
  refine List.forall_mem_cons.mpr ⟨fun t h => ?_, ?_⟩
  · exact @publicText_blanks "using attr_vec_t = std::vector<db::attr_root_root<N>*>;" _ 2 _
      (by decide) (by decide) (Except.ok.inj h).symm
  refine List.forall_mem_cons.mpr ⟨fun t h => ?_, ?_⟩
  · obtain rfl := Except.ok.inj h
    exact publicText_defineDefaultCtor hname bt (offs + 2)
  refine List.forall_mem_cons.mpr ⟨haccessor .isNull false, ?_⟩
  refine List.forall_mem_cons.mpr ⟨haccessor .isNull true, ?_⟩
  refine List.forall_mem_cons.mpr ⟨haccessor .setNull false, ?_⟩
  refine List.forall_mem_cons.mpr ⟨haccessor .setNull true, ?_⟩
  refine List.forall_mem_cons.mpr ⟨haccessor .get false, ?_⟩
  refine List.forall_mem_cons.mpr ⟨haccessor .get true, ?_⟩
  refine List.forall_mem_cons.mpr ⟨haccessor .set false, ?_⟩
  refine List.forall_mem_cons.mpr ⟨haccessor .set true, ?_⟩
  refine List.forall_mem_cons.mpr ⟨fun t h => publicText_ok (by decide) (by decide) h, ?_⟩
  refine List.forall_mem_singleton.mpr fun t h => ?_
  obtain rfl := Except.ok.inj h
  exact publicText_defineAttributeAccess (offs + 2)

/-! ## The lines of the fields -/

/-- What no line of a field starts with: the heads of the arrays. -/
def fieldMarks : List Str :=
  "attr_vec_t A_".toList :: "constexpr static const std::".toList :: outerMarks

/-- A line of a field: it starts no array. -/
def FieldLine (l : Str) : Prop := LineFree fieldMarks l

theorem FieldLine.noArray {l : Str} (h : FieldLine l) : starts "attr_vec_t A_" l = false :=
  h.free _ List.mem_cons_self

theorem FieldLine.noNames {l : Str} (h : FieldLine l) :
    starts "constexpr static const std::" l = false :=
  h.free _ (List.mem_cons_of_mem _ List.mem_cons_self)

/-- It declares no member either. -/
theorem memberVar_eq_none {p msg : Str} (hp : Apart p "db::") (h : p <+: msg) (offs : Nat) :
    memberVar (sl msg offs) = none := by
  unfold memberVar
  rw [not_starts_sl hp h, if_neg Bool.false_ne_true]

theorem newline_notMem_padLeft {t : Str} (h : '\n' ∉ t) (n : Nat) : '\n' ∉ padLeft n t := by
  unfold padLeft blanks
  simp [h]

theorem newline_notMem_ident {t : Str} (h : Ident t) : '\n' ∉ t :=
  fun hmem => absurd (h _ hmem) (by decide)

/-- The lines of the constants of a field. -/
theorem constantLines_spec (k : Nat) (el : FldDscr) (offs : Nat) :
    ∀ l ∈ constantLines k el offs, FieldLine l ∧ memberVar l = none := by
  have hdigits : '\n' ∉ intDecimal el.dec := notMem_intDecimal (by decide) (by decide) _
  have hwidth : '\n' ∉ decimal el.width := fun h => absurd (isDigit_of_mem_decimal h) (by decide)
  have hdecName := newline_notMem_ident (ident_decName k)
  have hlenName := newline_notMem_ident (ident_lenName k)
  have hline : ∀ msg : Str, constantHead <+: msg → '\n' ∉ msg →
      FieldLine (sl msg offs) ∧ memberVar (sl msg offs) = none := fun msg h hn =>
    ⟨lineFree_sl (by decide) h hn offs, memberVar_eq_none (by decide) h offs⟩
  have hdec : FieldLine (decLine k el offs) ∧ memberVar (decLine k el offs) = none := by
    refine hline _ ?_ ?_
    · simp only [List.append_assoc]
      exact List.prefix_append _ _
    · simp [hdecName, newline_notMem_padLeft hdigits 2]
  have hlen : FieldLine (lenLine k el offs) ∧ memberVar (lenLine k el offs) = none := by
    refine hline _ ?_ ?_
    · simp only [List.append_assoc]
      exact List.prefix_append _ _
    · simp [hlenName, newline_notMem_padLeft hwidth 2]
  unfold constantLines
  cases attrType el.type.code with
  | unknown => exact List.forall_mem_nil _
  | atomic => exact List.forall_mem_singleton.mpr hdec
  | string => exact List.forall_mem_cons.mpr ⟨hdec, List.forall_mem_singleton.mpr hlen⟩
  | bstring => exact List.forall_mem_singleton.mpr hlen

/-- The line of its alias. -/
theorem typeLines_spec {el : FldDscr} (hel : attrType el.type.code ≠ .unknown) (k offs : Nat) :
    ∀ l ∈ typeLines k el offs, FieldLine l ∧ memberVar l = none := by
  obtain ⟨name, -, hname, -⟩ := names_of_attrType hel
  have htype : '\n' ∉ storedType k el := by
    have hlenName := newline_notMem_ident (ident_lenName k)
    unfold storedType
    rw [hname, Option.getD_some]
    cases h : attrType el.type.code with
    | unknown => exact absurd h hel
    | atomic => simp [(ctName_line hname).2]
    | string => simp [hlenName]
    | bstring => simp [hlenName]
  have hprefix : aliasHead <+: "using " ++ typeAlias k ++ " = " ++ storedType k el := by
    simp only [List.append_assoc]
    exact List.prefix_append _ _
  refine List.forall_mem_singleton.mpr ⟨lineFree_sl (by decide) hprefix ?_ offs,
    memberVar_eq_none (by decide) hprefix offs⟩
  simp [newline_notMem_ident (ident_typeAlias k), htype]

/-- The constant for the decimal places that the member of a field has. -/
def decConstant (k : Nat) (el : FldDscr) : Option Str :=
  match attrType el.type.code with
  | .atomic | .string => some (decName k)
  | .bstring | .unknown => none

/-- The line of its member. -/
theorem memberLines_read {el : FldDscr} (hel : attrType el.type.code ≠ .unknown) (k offs : Nat) :
    (∀ l ∈ memberLines k el offs, FieldLine l) ∧
      (memberLines k el offs).filterMap memberVar = [(memberAt k el, decConstant k el)] := by
  obtain ⟨line, hline, hread⟩ := declared_attributeDecl hel k offs
  obtain ⟨line', hline', hnone, huses⟩ := uses_attributeDecl hel k offs
  obtain rfl : line' = line := Except.ok.inj (hline'.symm.trans hline)
  obtain ⟨-, dbName, -, hdb⟩ := names_of_attrType hel
  have hform : "db::".toList <+: line' ∧ '\n' ∉ line' := by
    have halias := newline_notMem_ident (ident_typeAlias k)
    have hdec := newline_notMem_ident (ident_decName k)
    have hpadded := newline_notMem_padRight (newline_notMem_ident (dbtName_ident hdb)) 18
    have hdigits := newline_notMem_ident (ident_zeroPadded 2 k)
    unfold attributeDecl at hline'
    rw [hdb, Option.getD_some] at hline'
    cases h : attrType el.type.code with
    | unknown => exact absurd h hel
    | atomic =>
        simp only [h] at hline'
        obtain rfl := Except.ok.inj hline'
        exact ⟨⟨_, rfl⟩, by simp [halias, hdec, hpadded, hdigits]⟩
    | string =>
        simp only [h] at hline'
        obtain rfl := Except.ok.inj hline'
        exact ⟨⟨_, rfl⟩, by simp [halias, hdec, hpadded, hdigits]⟩
    | bstring =>
        simp only [h] at hline'
        obtain rfl := Except.ok.inj hline'
        exact ⟨⟨_, rfl⟩, by simp [halias, hpadded, hdigits]⟩
  have hlines : memberLines k el offs = [sl line' offs] := by
    unfold memberLines
    rw [hline']
  have hconstants : constantsIn (sl line' offs) = usedByMember k el := by
    rw [← huses]
    unfold uses
    rw [hnone]
  have hvar : memberVar (sl line' offs) = some (memberAt k el, decConstant k el) := by
    unfold memberVar
    rw [starts_sl (by decide) hform.1, if_pos rfl, hread, hconstants]
    unfold usedByMember decConstant
    cases h : attrType el.type.code with
    | unknown => exact absurd h hel
    | atomic => rfl
    | string => rfl
    | bstring => rfl
  rw [hlines]
  exact ⟨List.forall_mem_singleton.mpr (lineFree_sl (by decide) hform.1 hform.2 offs),
    by simp [hvar]⟩

/-! ## The arrays -/

/-- The lines of an array: a head, a brace, the rows and the closing brace. -/
def arrayLines (head brace close : Str) (rows : List Str) (offs : Nat) : List Str :=
  sl head offs :: sl brace offs :: ((rows.map fun l => sl l (offs + 2)) ++ [sl close offs])

/-- Every line of the list starts as one of the items. -/
theorem Wrapped.not_starts {p mark : Str} {items lines : List Str} (h : Wrapped items lines)
    (hp : Apart p mark) (hitems : ∀ item ∈ items, p <+: item) (offs : Nat) :
    ∀ l ∈ lines, starts mark (sl l offs) = false := by
  obtain ⟨rows, trailing, rfl, hrows, -, rfl⟩ := h.rows
  intro l hl
  obtain ⟨item, hitem, hprefix⟩ := exists_prefix_of_mem_rowLines hrows hl
  exact not_starts_sl hp ((hitems item hitem).trans hprefix) offs

theorem flatten_arrayLines (head brace close : Str) (rows : List Str) (offs : Nat) :
    (arrayLines head brace close rows offs).flatten =
      sl head offs ++ sl brace offs ++ slLines rows (offs + 2) ++ sl close offs := by
  simp [arrayLines, slLines, List.flatMap_def]

/-- No line of an array looks like the end of a class. -/
theorem lineFree_arrayLines {marks items rows : List Str} {p head brace close : Str} (offs : Nat)
    (hhead : LineFree marks (sl head offs)) (hbrace : LineFree marks (sl brace offs))
    (hclose : LineFree marks (sl close offs)) (hrows : Wrapped items rows) (hp : Free p marks)
    (hitems : ∀ item ∈ items, p <+: item ∧ '\n' ∉ item) :
    ∀ l ∈ arrayLines head brace close rows offs, LineFree marks l := by
  refine List.forall_mem_cons.mpr ⟨hhead, List.forall_mem_cons.mpr ⟨hbrace, ?_⟩⟩
  refine List.forall_mem_append.mpr ⟨fun l hl => ?_, List.forall_mem_singleton.mpr hclose⟩
  obtain ⟨row, hrow, rfl⟩ := List.mem_map.mp hl
  refine ⟨line_sl (hrows.newline_notMem (fun item h => (hitems item h).2) row hrow) _, ?_⟩
  exact fun mark hmark =>
    hrows.not_starts (hp mark hmark) (fun item h => (hitems item h).1) _ row hrow

/-! ## The lines of a class -/

/-- The line of the class. -/
def classLine (q : GsqlQ) (bt : BufType) (offs : Nat) : Str :=
  sl ("class " ++ snakeCase (q.bufDscr bt).id ++ " : public db::buffer_root<" ++
    bufTypeName bt ++ ", N>") offs

/-- The line in front of the private section. -/
def privateLine (offs : Nat) : Str := sl "private:  /*...private methods & attributes...*/" offs

/-- The head of the array of names. -/
def nameArrayHead (flds : List FldDscr) : Str :=
  "constexpr static const std::array<const cstr_t, " ++ decimal flds.length ++ "> N_"

theorem newline_notMem_nameArrayHead (flds : List FldDscr) : '\n' ∉ nameArrayHead flds := by
  have hdigits : '\n' ∉ decimal flds.length :=
    fun h => absurd (isDigit_of_mem_decimal h) (by decide)
  unfold nameArrayHead
  rw [List.mem_append, List.mem_append, not_or, not_or]
  exact ⟨⟨by decide, hdigits⟩, by decide⟩

/-- The two arrays and the end of the class. -/
def arraysOf (flds : List FldDscr) (offs : Nat) (pointers names : List Str) (last : Str) :
    List Str :=
  arrayLines "attr_vec_t A_" "\x7b" "\x7d;" pointers offs ++
    (arrayLines (nameArrayHead flds) "\x7b\x7b" "\x7d\x7d;" names offs ++ [last])

/-- The private section: the loops over the fields, the arrays and the end of the class. -/
def privateLines (flds : List FldDscr) (offs : Nat) (arrays : List Str) : List Str :=
  (flds.mapIdx fun k el => constantLines k el offs).flatten ++
    ((flds.mapIdx fun k el => typeLines k el offs).flatten ++
      ((flds.mapIdx fun k el => memberLines k el offs).flatten ++ arrays))

theorem lineText_line {msg t : Str} {offs : Nat} {ch : Char} (hch : ch ≠ '\n') (hmsg : '\n' ∉ msg)
    (h : lineText msg offs ch = .ok t) :
    ∀ marks, Free "/*" marks → LineFree marks t := by
  have hfill : ∀ n, '\n' ∉ List.replicate n ch := fun n hmem =>
    hch (List.eq_of_mem_replicate hmem).symm
  unfold lineText at h
  dsimp only at h
  split at h
  · cases h
  · obtain rfl := Except.ok.inj h
    refine fun marks hmarks => lineFree_sl hmarks ?_ ?_ offs
    · simp only [List.append_assoc]
      exact List.prefix_append _ _
    · exact newline_notMem_append (newline_notMem_append (newline_notMem_append
        (newline_notMem_append (by decide) (hfill 4)) hmsg) (hfill _)) (by decide)

/-- The lines of the two arrays. -/
theorem partsAfter_lines {q : GsqlQ} {bt : BufType} {offs : Nat} {text : Str}
    (hne : (q.bufDscr bt).flds ≠ []) (h : concat (partsAfter q bt offs) = .ok text) :
    ∃ pointers names, Wrapped ((q.bufDscr bt).flds.map memberAddress) pointers ∧
      Wrapped ((q.bufDscr bt).flds.map quotedName) names ∧
      text = (arraysOf (q.bufDscr bt).flds (offs + 2) pointers names
        (sl ("\x7d; // class " ++ snakeCase (q.bufDscr bt).id) offs)).flatten := by
  obtain ⟨rows, hrows, htext⟩ := defineAttrArray_eq _ (generatedWidth - 8) (offs + 2) hne
  obtain ⟨rows', hrows', htext'⟩ := defineAttrNameArray_eq _ (generatedWidth - 8) (offs + 2) hne
  obtain ⟨pointers, hpointers, rfl⟩ := hrows.wrapped hne
  obtain ⟨names, hnames, rfl⟩ := hrows'.wrapped hne
  refine ⟨pointers, names, hpointers, hnames, ?_⟩
  have hparts : partsAfter q bt offs =
      [defineAttrArray (q.bufDscr bt).flds (generatedWidth - 8) (offs + 2),
        defineAttrNameArray (q.bufDscr bt).flds (generatedWidth - 8) (offs + 2),
        sl ("\x7d; // class " ++ snakeCase (q.bufDscr bt).id) offs].map .ok := rfl
  rw [hparts, concat_ok] at h
  rw [← Except.ok.inj h, htext, htext', arraysOf, List.flatten_append, List.flatten_append,
    flatten_arrayLines, flatten_arrayLines]
  rfl

/-- The fields of a class that can be compiled: they are stored, their names are identifiers and
they have as many decimal places as a constant can say. -/
structure Compilable (flds : List FldDscr) : Prop extends Numbered flds where
  ident : ∀ el ∈ flds, el.name ≠ [] ∧ Ident el.name
  dec : ∀ el ∈ flds, 0 ≤ el.dec

theorem Compilable.lineNames {flds : List FldDscr} (h : Compilable flds) : LineNames flds where
  names el hel := newline_notMem_ident (h.ident el hel).2
  aNames el hel := by
    obtain ⟨k, hk⟩ := h.exists_memberName hel
    rw [hk]
    exact newline_notMem_ident (ident_memberName k)
  typed _ hel := h.ctName_ne_none hel

theorem forall_mem_mapIdx {P : Str → Prop} {flds : List FldDscr} {f : Nat → FldDscr → List Str}
    (h : ∀ k, ∀ el ∈ flds, ∀ l ∈ f k el, P l) : ∀ l ∈ (flds.mapIdx f).flatten, P l := by
  intro l hl
  obtain ⟨ls, hls, hl⟩ := List.mem_flatten.mp hl
  obtain ⟨k, hk, rfl⟩ := List.mem_mapIdx.mp hls
  exact h k _ (List.getElem_mem hk) l hl

/-- The lines in front of the private section: the class is the first that is found. -/
theorem partsBefore_lines {q : GsqlQ} {bt : BufType} {offs : Nat} {text : Str}
    (h : concat (partsBefore q bt offs) = .ok text) (hid : '\n' ∉ q.id)
    (hname : '\n' ∉ snakeCase (q.bufDscr bt).id) (hflds : LineNames (q.bufDscr bt).flds) :
    ∃ front, text = (front ++ [privateLine offs]).flatten ∧ (∀ l ∈ front, PublicLine l) ∧
      front.find? (starts "class ") = some (classLine q bt offs) := by
  rw [partsBefore_eq] at h
  obtain ⟨title, rest₁, htitle, hrest₁, rfl⟩ := concat_cons_eq_ok h
  obtain ⟨template, rest₂, htemplate, hrest₂, rfl⟩ := concat_cons_eq_ok hrest₁
  obtain ⟨cls, rest₃, hcls, hrest₃, rfl⟩ := concat_cons_eq_ok hrest₂
  obtain ⟨pub, priv, hpub, hpriv, rfl⟩ := concat_append_eq_ok hrest₃
  obtain ⟨lines, rfl, hlines⟩ := publicText_concat hpub (publicText_publicParts hflds hname)
  obtain rfl := Except.ok.inj htemplate
  obtain rfl := Except.ok.inj hcls
  have hsection := concat_ok [privateLine offs]
  obtain rfl : priv = [privateLine offs].flatten := Except.ok.inj (hpriv.symm.trans hsection)
  have hbt := newline_notMem_bufTypeName bt
  have hcolons : '\n' ∉ q.id ++ "::" ++ bt.name := by
    cases bt <;> simp [hid, BufType.name]
  have htitle' := lineText_line (by decide) hcolons htitle
  have hclass : "class ".toList <+: "class " ++ snakeCase (q.bufDscr bt).id ++
      " : public db::buffer_root<" ++ bufTypeName bt ++ ", N>" := by
    simp only [List.append_assoc]
    exact List.prefix_append _ _
  refine ⟨title :: sl "template <std::size_t N = 1>" offs :: classLine q bt offs :: lines,
    by simp [classLine], ?_, ?_⟩
  · refine List.forall_mem_cons.mpr ⟨htitle' _ (by decide), ?_⟩
    refine List.forall_mem_cons.mpr ⟨lineFree_sl (by decide) (List.prefix_refl _)
      (by decide) offs, List.forall_mem_cons.mpr ⟨?_, hlines⟩⟩
    exact lineFree_sl (by decide : Free "class " publicMarks) hclass (by simp [hname, hbt]) offs
  · have htemplate : starts "class " (sl "template <std::size_t N = 1>" offs) = false :=
      not_starts_sl (by decide : Apart "template" "class ") (by decide) offs
    have hcomment : starts "class " title = false :=
      (htitle' ["class ".toList] (by decide)).free _ List.mem_cons_self
    rw [List.find?_cons_of_neg (by rw [hcomment]; exact Bool.false_ne_true),
      List.find?_cons_of_neg (by rw [htemplate]; exact Bool.false_ne_true),
      List.find?_cons_of_pos (show starts "class " (classLine q bt offs) = true from
        starts_sl (by decide) hclass offs)]

/-- The last line of a class. -/
def classEnd (q : GsqlQ) (bt : BufType) (offs : Nat) : Str :=
  sl ("\x7d; // class " ++ snakeCase (q.bufDscr bt).id) offs

/-- The text of a class, line by line. -/
theorem genBufClass_lines {q : GsqlQ} {bt : BufType} {offs : Nat} {text : Str}
    (h : genBufClass q bt offs = .ok text) (hid : '\n' ∉ q.id)
    (hname : '\n' ∉ snakeCase (q.bufDscr bt).id) (hflds : Compilable (q.bufDscr bt).flds)
    (hne : (q.bufDscr bt).flds ≠ []) :
    ∃ front pointers names,
      text = (front ++ (privateLine offs :: privateLines (q.bufDscr bt).flds (offs + 2)
        (arraysOf (q.bufDscr bt).flds (offs + 2) pointers names (classEnd q bt offs)))).flatten ∧
      front.find? (starts "class ") = some (classLine q bt offs) ∧
      (∀ l ∈ front, PublicLine l) ∧
      Wrapped ((q.bufDscr bt).flds.map memberAddress) pointers ∧
      Wrapped ((q.bufDscr bt).flds.map quotedName) names := by
  rw [genBufClass_eq] at h
  obtain ⟨before, rest₁, hbefore, hrest₁, rfl⟩ := concat_append_eq_ok h
  obtain ⟨constants, rest₂, hconstants, hrest₂, rfl⟩ := concat_cons_eq_ok hrest₁
  obtain ⟨types, rest₃, htypes, hrest₃, rfl⟩ := concat_cons_eq_ok hrest₂
  obtain ⟨members, after, hmembers, hafter, rfl⟩ := concat_cons_eq_ok hrest₃
  obtain ⟨front, rfl, hfront, hfind⟩ := partsBefore_lines hbefore hid hname hflds.lineNames
  obtain ⟨pointers, names, hpointers, hnames, rfl⟩ := partsAfter_lines hne hafter
  obtain ⟨hconstants', htypes', hmembers'⟩ := loops_eq hflds.stored (offs + 2)
  obtain rfl := Except.ok.inj (hconstants.symm.trans hconstants')
  obtain rfl := Except.ok.inj (htypes.symm.trans htypes')
  obtain rfl := Except.ok.inj (hmembers.symm.trans hmembers')
  exact ⟨front, pointers, names, by simp [privateLines, classEnd], hfind, hfront, hpointers,
    hnames⟩

/-- Only the last line of a class looks like its end. -/
theorem lineFree_classLines {flds : List FldDscr} (hflds : Compilable flds) (offs : Nat)
    {front pointers names : List Str} (hfront : ∀ l ∈ front, PublicLine l)
    (hpointers : Wrapped (flds.map memberAddress) pointers)
    (hnames : Wrapped (flds.map quotedName) names) :
    ∀ l ∈ front ++ (privateLine offs :: privateLines flds (offs + 2)
      (arrayLines "attr_vec_t A_" "\x7b" "\x7d;" pointers (offs + 2) ++
        arrayLines (nameArrayHead flds) "\x7b\x7b" "\x7d\x7d;" names (offs + 2))),
      LineFree outerMarks l := by
  have hfield : ∀ {l}, FieldLine l → LineFree outerMarks l := fun h =>
    h.mono fun mark hmark => List.mem_cons_of_mem _ (List.mem_cons_of_mem _ hmark)
  have hhead : LineFree outerMarks (sl (nameArrayHead flds) (offs + 2)) := by
    refine lineFree_sl (by decide : Free "constexpr static const std::array<" outerMarks) ?_
      (newline_notMem_nameArrayHead flds) _
    unfold nameArrayHead
    rw [List.append_assoc]
    exact List.IsPrefix.trans (by decide) (List.prefix_append _ _)
  refine List.forall_mem_append.mpr ⟨fun l hl => (hfront l hl).mono fun mark hmark =>
    List.mem_cons_of_mem _ hmark, ?_⟩
  refine List.forall_mem_cons.mpr ⟨lineFree_sl (by decide : Free "private:" outerMarks)
    (by decide) (by decide) offs, ?_⟩
  refine List.forall_mem_append.mpr ⟨forall_mem_mapIdx fun k el _ l hl =>
    hfield (constantLines_spec k el _ l hl).1, ?_⟩
  refine List.forall_mem_append.mpr ⟨forall_mem_mapIdx fun k el hel l hl =>
    hfield (typeLines_spec (hflds.stored el hel) k _ l hl).1, ?_⟩
  refine List.forall_mem_append.mpr ⟨forall_mem_mapIdx fun k el hel l hl =>
    hfield ((memberLines_read (hflds.stored el hel) k _).1 l hl), ?_⟩
  refine List.forall_mem_append.mpr ⟨lineFree_arrayLines _ ?_ ?_ ?_ hpointers
    (by decide : Free "&" outerMarks) ?_, lineFree_arrayLines _ hhead ?_ ?_ hnames
    (by decide : Free "\"" outerMarks) ?_⟩
  · exact lineFree_sl (by decide) (List.prefix_refl _) (by decide) _
  · exact lineFree_sl (by decide) (List.prefix_refl _) (by decide) _
  · exact lineFree_whole (by decide) (by decide) (by decide) _
  · intro item hitem
    obtain ⟨el, hel, rfl⟩ := List.mem_map.mp hitem
    exact ⟨⟨_, rfl⟩, by simp [memberAddress, hflds.lineNames.aNames el hel]⟩
  · exact lineFree_sl (by decide) (List.prefix_refl _) (by decide) _
  · exact lineFree_whole (by decide) (by decide) (by decide) _
  · intro item hitem
    obtain ⟨el, hel, rfl⟩ := List.mem_map.mp hitem
    exact ⟨⟨_, rfl⟩, by simp [quotedName, hflds.lineNames.names el hel]⟩

/-- A class is some lines that do not look like its end, and its end. -/
theorem genBufClass_segment {q : GsqlQ} {bt : BufType} {offs : Nat} {text : Str}
    (h : genBufClass q bt offs = .ok text) (hid : '\n' ∉ q.id)
    (hname : '\n' ∉ snakeCase (q.bufDscr bt).id) (hflds : Compilable (q.bufDscr bt).flds)
    (hne : (q.bufDscr bt).flds ≠ []) :
    ∃ inner, text = (inner ++ [classEnd q bt offs]).flatten ∧
      ∀ l ∈ inner, LineFree outerMarks l := by
  obtain ⟨front, pointers, names, rfl, -, hfront, hpointers, hnames⟩ :=
    genBufClass_lines h hid hname hflds hne
  exact ⟨_, by simp [privateLines, arraysOf],
    lineFree_classLines hflds offs hfront hpointers hnames⟩

end Dbgen3.Generator
