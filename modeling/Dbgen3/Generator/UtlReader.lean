import Dbgen3.Generator.ClassReader
import Dbgen3.Generator.EmbeddedSql
import Dbgen3.Lib.Sections

/-!
# Reading the query class back

The class `utl` of a query takes the size of each buffer it refers to, sets the
buffers, and has a getter and a member for each of them, the codes that are
allowed and the statement in a raw string literal. The reader below finds them in
the items of the text, and looks the members up that the constructor sets.
-/

namespace Dbgen3.Generator

open Text Words Sections RawString
open Dbgen3.Runtime (BufType)

/-! ## The reader -/

/-- The lines of code among items. -/
def codeLines (its : List Item) : List Str :=
  its.filterMap fun item => match item with
    | .code l => some l
    | .raw _ => none

/-- What a literal holds. -/
def rawValue : Item → Option Str
  | .code _ => none
  | .raw value => some value

/-- A buffer that a query class sets: the function it is given to, its class, and the template
parameter for its size. -/
structure GeneratedBuf where
  setter : Str
  cls : Str
  size : Str
  deriving DecidableEq

/-- A query class that is read. -/
structure GeneratedUtl where
  sizes : List Str
  bufs : List GeneratedBuf
  /-- The getters with the classes they return. -/
  getters : List (Str × Str)
  allowed : List Int
  sql : Str
  deriving DecidableEq

/-- The member that a line declares: its name, its class and its size. -/
def bufMember (line : Str) : Option (Str × Str × Str) :=
  match words isIdent line with
  | [cls, size, var] => some (var, cls, size)
  | _ => none

/-- The buffer that a line of the constructor sets. -/
def setBuf (members : List (Str × Str × Str)) (line : Str) : Option GeneratedBuf :=
  match words isIdent line with
  | [setter, var] => (members.lookup var).map fun m => ⟨setter, m.1, m.2⟩
  | _ => none

/-- The getter in a line, and the class it returns. -/
def bufGetter (line : Str) : Option (Str × Str) :=
  match words isIdent line with
  | cls :: _ :: name :: _ => some (name, cls)
  | _ => none

/-- The sizes that a template header names. -/
def sizesIn (line : Str) : List Str :=
  if starts "template<" line then (words isIdent line).filter fun w => "N_".toList.isPrefixOf w
  else []

/-- Read the items of a query class. -/
def readUtl (its : List Item) : Option GeneratedUtl := do
  let lines := codeLines its
  let body := behind (starts ": db::utl(") lines
  let members ← (upTo (starts "constexpr ") ((behind (starts "private:") body).drop 1)).mapM
    bufMember
  let bufs ← (upTo (starts "\x7d") (body.drop 2)).mapM (setBuf members)
  let getters ← (upTo (starts "///") ((behind (starts "\x7d") body).drop 1)).mapM bufGetter
  let allowed ← (body.find? (starts "\x7breturn ")).bind returnedInts
  let sql ← its.findSome? rawValue
  pure { bufs, getters, allowed, sql, sizes := (upTo (starts "class ") lines).flatMap sizesIn }

/-- The template parameter for the size of a buffer. -/
def sizeName (bt : BufType) : Str := "N_" ++ bt.name

/-- How a query class sets the buffer of a class. -/
def utlBuf (c : BufClass) : GeneratedBuf where
  setter := "set_" ++ c.type.name ++ "_buf"
  cls := c.name
  size := sizeName c.type

/-- The query class that a query describes. -/
def utlOf (q : GsqlQ) (offs : Nat) : GeneratedUtl where
  sizes := (requiredTypes q).map sizeName
  bufs := q.referred.map utlBuf
  getters := q.referred.map fun c => (c.type.name ++ "_buf", c.name)
  allowed := q.allowed
  sql := embedded q.sqlSet.sqlDscr.mlSql.lines (offs + 2)

/-! ## Lines with the name of a class -/

/-- No name with an angle behind it starts with such a mark. -/
def Sharp (mark : Str) : Prop := '<' ∉ mark ∧ (mark.any fun c => ! isIdent c) = true

instance (mark : Str) : Decidable (Sharp mark) := inferInstanceAs (Decidable (_ ∧ _))

theorem free_name {name : Str} (hne : name ≠ []) (hname : Ident name) {marks : List Str}
    (h : ∀ mark ∈ marks, Sharp mark) : Free (name ++ "<") marks := by
  intro mark hmark
  obtain ⟨hangle, hany⟩ := h mark hmark
  obtain ⟨c, hc, hbreak⟩ := List.any_eq_true.mp hany
  constructor
  · obtain ⟨d, ds, rfl⟩ := List.exists_cons_of_ne_nil hne
    refine ⟨d, rfl, ?_⟩
    rintro rfl
    exact absurd (hname ' ' List.mem_cons_self) (by decide)
  · rintro (hpre | hpre)
    · exact hangle (hpre.subset (List.mem_append_right _ (List.mem_singleton_self _)))
    · rcases List.mem_append.mp (hpre.subset hc) with hmem | hmem
      · rw [hname c hmem] at hbreak
        cases hbreak
      · obtain rfl : c = '<' := List.mem_singleton.mp hmem
        exact hangle hc

theorem ident_typeName (bt : BufType) : bt.name ≠ [] ∧ Ident bt.name := by
  cases bt <;> decide

theorem words_append {t : Str} (hne : t ≠ []) (ht : Ident t) {c : Char} (hc : isIdent c = false)
    (rest : Str) : words isIdent (t ++ c :: rest) = t :: words isIdent rest := by
  rw [words_append_cons hc, words_eq_singleton hne ht]
  rfl

theorem words_name {name : Str} (hne : name ≠ []) (hname : Ident name) (rest : Str) :
    words isIdent (name ++ "<" ++ rest) = name :: words isIdent rest := by
  have hcut : name ++ "<" ++ rest = name ++ '<' :: rest := by
    rw [List.append_assoc]
    rfl
  rw [hcut, words_append hne hname (by decide)]

theorem lineFree_ctorLine {marks : List Str} (h : Free "set_" marks) (c : BufClass) (offs : Nat) :
    LineFree marks (ctorLine offs c) ∧
      words isIdent (ctorLine offs c) = ["set_" ++ c.type.name ++ "_buf", c.type.name ++ "_"] := by
  obtain ⟨-, hbt⟩ := ident_typeName c.type
  have hform : ctorLine offs c = sl (blanks 2 ++ (("set_" ++ c.type.name ++ "_buf") ++
      '(' :: '&' :: ((c.type.name ++ "_") ++ ')' :: [';']))) offs := by
    unfold ctorLine
    simp only [List.append_assoc]
    rfl
  have hsetter : Ident ("set_" ++ c.type.name ++ "_buf") :=
    Ident.append (Ident.append (by decide) hbt) (by decide)
  have hvar : Ident (c.type.name ++ "_") := hbt.append (by decide)
  have hn := newline_notMem_ident hsetter
  have hn' := newline_notMem_ident hvar
  rw [hform]
  constructor
  · refine lineFree_blanks 2 h ?_ (newline_notMem_append hn ?_) offs
    · simp only [List.append_assoc]
      exact List.prefix_append _ _
    · exact newline_notMem_append (t := ['(', '&']) (by decide)
        (newline_notMem_append hn' (by decide))
  · rw [words_sl, words_breaks_append (forall_mem_of_all rfl),
      words_append (List.append_ne_nil_of_right_ne_nil _ (by decide)) hsetter (by decide),
      words_cons (by decide),
      words_append (List.append_ne_nil_of_right_ne_nil _ (by decide)) hvar (by decide)]
    rfl

section

variable {marks : List Str} (hmarks : ∀ mark ∈ marks, Sharp mark) {c : BufClass}
  (hne : c.name ≠ []) (hname : Ident c.name) (offs : Nat)

include hmarks hne hname

theorem lineFree_getterLine :
    LineFree marks (getterLine offs c) ∧
      bufGetter (getterLine offs c) = some (c.type.name ++ "_buf", c.name) := by
  obtain ⟨-, hbt⟩ := ident_typeName c.type
  have hsize : Ident ("N_" ++ c.type.name) := Ident.append (by decide) hbt
  have hgetter : Ident (c.type.name ++ "_buf") := hbt.append (by decide)
  have hn := newline_notMem_ident hname
  have hn' := newline_notMem_ident hsize
  have hn'' := newline_notMem_ident hgetter
  obtain ⟨rest, hrest, hform⟩ : ∃ rest, '\n' ∉ rest ∧ getterLine offs c = sl ((c.name ++ "<") ++
      (("N_" ++ c.type.name) ++ '>' :: '*' :: ' ' :: ((c.type.name ++ "_buf") ++ '(' :: rest)))
        offs := by
    refine ⟨") override \x7breturn dynamic_cast<" ++ (c.name ++ ("<" ++ (("N_" ++ c.type.name) ++
      (">*>(db::utl::" ++ ((c.type.name ++ "_buf") ++ "());\x7d"))))), ?_, ?_⟩
    · exact newline_notMem_append (by decide) (newline_notMem_append hn (newline_notMem_append
        (by decide) (newline_notMem_append hn' (newline_notMem_append (by decide)
          (newline_notMem_append hn'' (by decide))))))
    · unfold getterLine
      simp only [List.append_assoc]
      rfl
  rw [hform]
  constructor
  · refine lineFree_sl (free_name hne hname hmarks) (List.prefix_append _ _) ?_ offs
    have htail : '\n' ∉ '>' :: '*' :: ' ' :: ((c.type.name ++ "_buf") ++ '(' :: rest) :=
      newline_notMem_append (t := ['>', '*', ' ']) (by decide)
        (newline_notMem_append hn'' (newline_notMem_append (t := ['(']) (by decide) hrest))
    exact newline_notMem_append (newline_notMem_append hn (by decide))
      (newline_notMem_append hn' htail)
  · have hwords : words isIdent (sl ((c.name ++ "<") ++ (("N_" ++ c.type.name) ++ '>' :: '*' ::
        ' ' :: ((c.type.name ++ "_buf") ++ '(' :: rest))) offs) =
          c.name :: ("N_" ++ c.type.name) :: (c.type.name ++ "_buf") :: words isIdent rest := by
      rw [words_sl, words_name hne hname,
        words_append (List.append_ne_nil_of_left_ne_nil (by decide) _) hsize (by decide),
        words_cons (by decide), words_cons (by decide),
        words_append (List.append_ne_nil_of_right_ne_nil _ (by decide)) hgetter (by decide)]
    unfold bufGetter
    rw [hwords]

theorem lineFree_memberLine :
    LineFree marks (memberLine offs c) ∧
      bufMember (memberLine offs c) =
        some (c.type.name ++ "_", c.name, sizeName c.type) := by
  obtain ⟨-, hbt⟩ := ident_typeName c.type
  have hsize : Ident ("N_" ++ c.type.name) := Ident.append (by decide) hbt
  have hvar : Ident (c.type.name ++ "_") := hbt.append (by decide)
  have hn := newline_notMem_ident hname
  have hn' := newline_notMem_ident hsize
  have hn'' := newline_notMem_ident hvar
  have hform : memberLine offs c = sl (blanks 2 ++ ((c.name ++ "<") ++ (("N_" ++ c.type.name) ++
      '>' :: ' ' :: ((c.type.name ++ "_") ++ '\x7b' :: ['\x7d', ';'])))) offs := by
    unfold memberLine
    simp only [List.append_assoc]
    rfl
  rw [hform]
  constructor
  · refine lineFree_blanks 2 (free_name hne hname hmarks) (List.prefix_append _ _) ?_ offs
    have htail : '\n' ∉ '>' :: ' ' :: ((c.type.name ++ "_") ++ '\x7b' :: ['\x7d', ';']) :=
      newline_notMem_append (t := ['>', ' ']) (by decide)
        (newline_notMem_append hn'' (by decide))
    exact newline_notMem_append (newline_notMem_append hn (by decide))
      (newline_notMem_append hn' htail)
  · have hwords : words isIdent (sl (blanks 2 ++ ((c.name ++ "<") ++ (("N_" ++ c.type.name) ++
        '>' :: ' ' :: ((c.type.name ++ "_") ++ '\x7b' :: ['\x7d', ';'])))) offs) =
          [c.name, "N_" ++ c.type.name, c.type.name ++ "_"] := by
      rw [words_sl, words_breaks_append (forall_mem_of_all rfl), words_name hne hname,
        words_append (List.append_ne_nil_of_left_ne_nil (by decide) _) hsize (by decide),
        words_cons (by decide),
        words_append (List.append_ne_nil_of_right_ne_nil _ (by decide)) hvar (by decide)]
      rfl
    unfold bufMember
    rw [hwords]
    rfl

end

/-! ## The template header -/

theorem requiredTypes_mem (q : GsqlQ) :
    requiredTypes q ∈ [[], [BufType.par], [BufType.res], [BufType.par, BufType.res]] := by
  unfold requiredTypes
  simp only [List.filter_cons, List.filter_nil]
  cases (q.bufDscr .par).isRequired <;> cases (q.bufDscr .res).isRequired <;> decide

theorem lineFree_nil {marks : List Str} (h : ∀ mark ∈ marks, ¬ mark <+: ['\n']) (offs : Nat) :
    LineFree marks (sl [] offs) := by
  refine ⟨line_sl (by decide) offs, fun mark hmark => ?_⟩
  have hskip : (sl [] offs).dropWhile (· = ' ') = ['\n'] := by
    rw [sl, s, List.append_nil]
    exact List.dropWhile_append_of_pos fun c hc => decide_eq_true (List.eq_of_mem_replicate hc)
  rw [starts, hskip, Bool.eq_false_iff, ne_eq, List.isPrefixOf_iff_prefix]
  exact h mark hmark

theorem templHdr_eq {q : GsqlQ} (hq : q.Typed) :
    genTemplHdr q = headerFor ((requiredTypes q).map fun bt => ⟨bt, []⟩) := by
  rw [(prints hq 0).header]
  unfold headerFor GsqlQ.referred
  rw [List.flatMap_map, List.flatMap_map]
  rfl

/-- The line of the template header is a header of the sizes, or blank. -/
theorem templHdr_line {q : GsqlQ} (hq : q.Typed) {marks : List Str}
    (hfree : Free "template<" marks) (hnil : ∀ mark ∈ marks, ¬ mark <+: ['\n']) (offs : Nat) :
    LineFree marks (sl (genTemplHdr q) offs) ∧
      sizesIn (sl (genTemplHdr q) offs) = (requiredTypes q).map sizeName := by
  have hmem := requiredTypes_mem q
  rw [templHdr_eq hq]
  generalize requiredTypes q = types at hmem
  simp only [List.mem_cons, List.not_mem_nil, or_false] at hmem
  have hline : ∀ {msg : Str}, "template<".toList <+: msg → '\n' ∉ msg →
      LineFree marks (sl msg offs) ∧ sizesIn (sl msg offs) =
        (words isIdent msg).filter fun w => "N_".toList.isPrefixOf w := by
    intro msg h hn
    refine ⟨lineFree_sl hfree h hn offs, ?_⟩
    rw [sizesIn, starts_sl (by decide) h, if_pos rfl, words_sl]
  rcases hmem with rfl | rfl | rfl | rfl
  · have hblank : starts "template<" (sl [] offs) = false :=
      (@lineFree_nil ["template<".toList] (by decide) offs).free _ List.mem_cons_self
    refine ⟨lineFree_nil hnil offs, ?_⟩
    change (if starts "template<" (sl [] offs) then _ else _) = []
    rw [hblank, if_neg Bool.false_ne_true]
  · obtain ⟨hfree, hsizes⟩ := @hline (headerFor [⟨.par, []⟩]) (by decide) (by decide)
    exact ⟨hfree, hsizes.trans (by decide)⟩
  · obtain ⟨hfree, hsizes⟩ := @hline (headerFor [⟨.res, []⟩]) (by decide) (by decide)
    exact ⟨hfree, hsizes.trans (by decide)⟩
  · obtain ⟨hfree, hsizes⟩ := @hline (headerFor [⟨.par, []⟩, ⟨.res, []⟩]) (by decide) (by decide)
    exact ⟨hfree, hsizes.trans (by decide)⟩

/-! ## The lines of the class -/

/-- The lines in front of the base of the constructor. -/
def utlFront (q : GsqlQ) (title : Str) (offs : Nat) : List Str :=
  [title, sl (genTemplHdr q) offs, sl "class utl: public db::utl" offs, sl "\x7b" offs,
    sl "public:" offs, sl "  using brr = db::buffer_root_root;" offs,
    sl "explicit utl(db::connection* c)" (offs + 2)]

/-- The line that returns the allowed codes. -/
def returnLine (codes : List Int) (offs : Nat) : Str :=
  sl ("  \x7breturn \x7b" ++ joinWith ", " (codes.map intDecimal) ++
    "\x7d;\x7d //NOLINT clang-tidy(cppcoreguidelines-avoid-magic-numbers)") offs

theorem returnLine_eq (codes : List Int) (offs : Nat) :
    returnLine codes offs = sl (blanks 2 ++ ("\x7breturn \x7b" ++
      (joinWith ", " (codes.map intDecimal) ++
        "\x7d;\x7d //NOLINT clang-tidy(cppcoreguidelines-avoid-magic-numbers)"))) offs := by
  unfold returnLine
  simp only [List.append_assoc]
  rfl

theorem starts_returnLine (codes : List Int) (offs : Nat) :
    starts "\x7breturn " (returnLine codes offs) = true := by
  have hpre : "\x7breturn ".toList <+: "\x7breturn \x7b".toList := by decide
  rw [returnLine_eq, starts_blanks]
  exact starts_sl (by decide) (hpre.trans (List.prefix_append _ _)) 0

theorem lineFree_returnLine {marks : List Str} (h : Free "\x7breturn \x7b" marks)
    (codes : List Int) (offs : Nat) : LineFree marks (returnLine codes offs) := by
  have hlist : '\n' ∉ joinWith ", " (codes.map intDecimal) := by
    intro hmem
    rcases mem_joinWith hmem with hsep | ⟨item, hitem, hmem⟩
    · exact absurd hsep (by decide)
    · obtain ⟨v, -, rfl⟩ := List.mem_map.mp hitem
      exact notMem_intDecimal (by decide) (by decide) v hmem
  rw [returnLine_eq]
  exact lineFree_blanks 2 h (List.prefix_append _ _)
    (newline_notMem_append (by decide) (newline_notMem_append hlist (by decide))) offs

/-- Text without a brace in front of a function does not count. -/
theorem bracedList_append {t : Str} (h : '\x7b' ∉ t) (rest : Str) :
    bracedList (t ++ rest) = bracedList rest := by
  unfold bracedList
  rw [List.dropWhile_append_of_pos (ne_of_notMem h)]

theorem returnedInts_returnLine {codes : List Int} (h : ∀ v ∈ codes, IsInt v) (offs : Nat) :
    returnedInts (returnLine codes offs) = some codes := by
  have hblank : '\x7b' ∉ blanks (offs % 256) := notMem_blanks (by decide) _
  have hfront : '\x7b' ∉ sl "/// return codes that do not triger an exception" offs ++
      sl "std::vector<int> allowed_codes()const override" offs := by
    simp only [sl, s, List.mem_append, not_or]
    exact ⟨⟨⟨hblank, by decide⟩, by decide⟩, ⟨hblank, by decide⟩, by decide⟩
  have hdefined := returnedInts_defineAllowedCodes h offs
  have hlist := bracedList_append hfront (returnLine codes offs)
  unfold returnedInts at hdefined ⊢
  rw [← hlist]
  exact hdefined

/-- The lines from the base of the constructor up to the literal. -/
def utlBody (q : GsqlQ) (offs : Nat) : List Str :=
  sl ": db::utl(c, sql_)" (offs + 2) :: sl "\x7b" (offs + 2) ::
    (q.referred.map (ctorLine (offs + 2)) ++ (sl "\x7d" (offs + 2) ::
      (q.referred.map (getterLine (offs + 2)) ++
        (sl "/// return codes that do not triger an exception" (offs + 2) ::
          sl "std::vector<int> allowed_codes()const override" (offs + 2) ::
          returnLine q.allowed (offs + 2) :: sl "private:" offs ::
          (q.referred.map (memberLine (offs + 2)) ++
            [sl "constexpr static const cstr_t sql_ =" (offs + 2)])))))

/-- The items of the class. -/
def utlItems (q : GsqlQ) (title : Str) (offs : Nat) : List Item :=
  (utlFront q title offs ++ utlBody q offs).map .code ++
    [.raw (embedded q.sqlSet.sqlDscr.mlSql.lines (offs + 2)), .code [';', '\n'],
      .code (sl "\x7d;" offs)]

/-- What starts a section of the class, or ends it. -/
def utlMarks : List Str :=
  ["\x7d; //", "R\"", ": db::utl(", "\x7d", "///", "private:", "constexpr ", "\x7breturn ",
    "class "]

/-- The classes of the buffers that the query refers to have names. -/
def Named (q : GsqlQ) : Prop := ∀ c ∈ q.referred, c.name ≠ [] ∧ Ident c.name

theorem lineFree_bufLines {q : GsqlQ} (hq : Named q) (offs : Nat) :
    (∀ l ∈ q.referred.map (ctorLine offs), LineFree utlMarks l) ∧
      (∀ l ∈ q.referred.map (getterLine offs), LineFree utlMarks l) ∧
      ∀ l ∈ q.referred.map (memberLine offs), LineFree utlMarks l := by
  have hsharp : ∀ mark ∈ utlMarks, Sharp mark := by decide
  have hset : Free "set_" utlMarks := by decide
  refine ⟨fun l hl => ?_, fun l hl => ?_, fun l hl => ?_⟩
  · obtain ⟨c, -, rfl⟩ := List.mem_map.mp hl
    exact (lineFree_ctorLine hset c offs).1
  · obtain ⟨c, hc, rfl⟩ := List.mem_map.mp hl
    exact (lineFree_getterLine hsharp (hq c hc).1 (hq c hc).2 offs).1
  · obtain ⟨c, hc, rfl⟩ := List.mem_map.mp hl
    exact (lineFree_memberLine hsharp (hq c hc).1 (hq c hc).2 offs).1

section

variable {q : GsqlQ} (hq : Named q) (offs : Nat) (rest : List Str)

include hq

theorem setters_read : upTo (starts "\x7d") ((utlBody q offs ++ rest).drop 2) =
    q.referred.map (ctorLine (offs + 2)) := by
  obtain ⟨hctor, -, -⟩ := lineFree_bufLines hq (offs + 2)
  unfold utlBody
  simp only [List.cons_append, List.append_assoc, List.drop_succ_cons, List.drop_zero]
  exact upTo_append_cons (fun l hl => (hctor l hl).free _ (by decide))
    (starts_sl (by decide) (List.prefix_refl _) _) _

theorem getters_read :
    upTo (starts "///") ((behind (starts "\x7d") (utlBody q offs ++ rest)).drop 1) =
      q.referred.map (getterLine (offs + 2)) := by
  obtain ⟨hctor, hgetter, -⟩ := lineFree_bufLines hq (offs + 2)
  have hfront : ∀ l ∈ sl ": db::utl(c, sql_)" (offs + 2) :: sl "\x7b" (offs + 2) ::
      q.referred.map (ctorLine (offs + 2)), starts "\x7d" l = false := by
    refine List.forall_mem_cons.mpr ⟨?_, List.forall_mem_cons.mpr ⟨?_, ?_⟩⟩
    · exact not_starts_sl (by decide) (List.prefix_refl _) _
    · exact not_starts_sl (by decide) (List.prefix_refl _) _
    · exact fun l hl => (hctor l hl).free _ (by decide)
  have hclose : starts "\x7d" (sl "\x7d" (offs + 2)) = true :=
    starts_sl (by decide) (List.prefix_refl _) _
  unfold utlBody
  rw [← List.cons_append, ← List.cons_append, List.append_assoc, behind_append hfront,
    List.cons_append, behind_cons hclose]
  simp only [List.cons_append, List.append_assoc, List.drop_succ_cons, List.drop_zero]
  exact upTo_append_cons (fun l hl => (hgetter l hl).free _ (by decide))
    (starts_sl (by decide) (by decide) _) _

/-- What no line in front of the one that returns the codes starts with. -/
def returnMarks : List Str := ["private:", "\x7breturn ", "\x7d; //", "R\""]

/-- No line in front of the one that returns the codes returns anything or starts the private
section. -/
theorem exists_publicLines : ∃ lines : List Str,
    utlBody q offs = lines ++ (returnLine q.allowed (offs + 2) :: sl "private:" offs ::
      (q.referred.map (memberLine (offs + 2)) ++
        [sl "constexpr static const cstr_t sql_ =" (offs + 2)])) ∧
      ∀ l ∈ lines, LineFree returnMarks l := by
  obtain ⟨hctor, hgetter, -⟩ := lineFree_bufLines hq (offs + 2)
  have hmono : ∀ {l}, LineFree utlMarks l → LineFree returnMarks l := fun h => h.mono (by decide)
  refine ⟨sl ": db::utl(c, sql_)" (offs + 2) :: sl "\x7b" (offs + 2) ::
    (q.referred.map (ctorLine (offs + 2)) ++ (sl "\x7d" (offs + 2) ::
      (q.referred.map (getterLine (offs + 2)) ++
        [sl "/// return codes that do not triger an exception" (offs + 2),
          sl "std::vector<int> allowed_codes()const override" (offs + 2)]))), ?_, ?_⟩
  · unfold utlBody
    simp only [List.cons_append, List.append_assoc, List.nil_append]
  · refine List.forall_mem_cons.mpr ⟨?_, List.forall_mem_cons.mpr ⟨?_, ?_⟩⟩
    · exact lineFree_sl (by decide) (List.prefix_refl _) (by decide) _
    · exact lineFree_whole (by decide) (by decide) (by decide) _
    · refine List.forall_mem_append.mpr ⟨fun l hl => hmono (hctor l hl), ?_⟩
      refine List.forall_mem_cons.mpr ⟨?_, List.forall_mem_append.mpr
        ⟨fun l hl => hmono (hgetter l hl), List.forall_mem_cons.mpr ⟨?_,
          List.forall_mem_singleton.mpr ?_⟩⟩⟩
      · exact lineFree_whole (by decide) (by decide) (by decide) _
      · exact lineFree_sl (by decide) (List.prefix_refl _) (by decide) _
      · exact lineFree_sl (by decide) (List.prefix_refl _) (by decide) _

/-- No line up to the literal looks like the end of a class or starts a literal. -/
theorem lineFree_utlBody : ∀ l ∈ utlBody q offs, LineFree outerMarks l := by
  obtain ⟨-, -, hmember⟩ := lineFree_bufLines hq (offs + 2)
  obtain ⟨lines, hbody, hlines⟩ := exists_publicLines hq offs
  rw [hbody]
  refine List.forall_mem_append.mpr ⟨fun l hl => (hlines l hl).mono (by decide), ?_⟩
  refine List.forall_mem_cons.mpr ⟨lineFree_returnLine (by decide) _ _, ?_⟩
  refine List.forall_mem_cons.mpr ⟨lineFree_sl (by decide : Free "private:" outerMarks)
    (List.prefix_refl _) (by decide) offs, ?_⟩
  refine List.forall_mem_append.mpr ⟨fun l hl => (hmember l hl).mono (by decide), ?_⟩
  exact List.forall_mem_singleton.mpr (lineFree_sl (by decide : Free "constexpr " outerMarks)
    (by decide) (by decide) _)

theorem members_read :
    upTo (starts "constexpr ") ((behind (starts "private:") (utlBody q offs ++ rest)).drop 1) =
      q.referred.map (memberLine (offs + 2)) := by
  obtain ⟨-, -, hmember⟩ := lineFree_bufLines hq (offs + 2)
  obtain ⟨lines, hbody, hlines⟩ := exists_publicLines hq offs
  have hreturn : starts "private:" (returnLine q.allowed (offs + 2)) = false :=
    (@lineFree_returnLine ["private:".toList] (by decide) _ _).free _ List.mem_cons_self
  have hclose : starts "private:" (sl "private:" offs) = true :=
    starts_sl (by decide) (List.prefix_refl _) _
  rw [hbody, List.append_assoc, behind_append fun l hl => (hlines l hl).free _ (by decide)]
  simp only [List.cons_append, List.append_assoc, List.nil_append]
  rw [← List.singleton_append, behind_append (List.forall_mem_singleton.mpr hreturn),
    behind_cons hclose, List.drop_succ_cons, List.drop_zero]
  exact upTo_append_cons (fun l hl => (hmember l hl).free _ (by decide))
    (starts_sl (by decide) (by decide) _) _

theorem allowed_read (hallowed : ∀ v ∈ q.allowed, IsInt v) :
    ((utlBody q offs ++ rest).find? (starts "\x7breturn ")).bind returnedInts =
      some q.allowed := by
  obtain ⟨lines, hbody, hlines⟩ := exists_publicLines hq offs
  have hreturn := starts_returnLine q.allowed (offs + 2)
  rw [hbody, List.append_assoc, List.cons_append, List.find?_append,
    List.find?_eq_none.mpr fun l hl => by rw [(hlines l hl).free _ (by decide)]; decide,
    Option.none_or, List.find?_cons_of_pos hreturn]
  exact returnedInts_returnLine hallowed (offs + 2)

end

/-- The name of the member for a buffer. -/
def memberVarName (bt : BufType) : Str := bt.name ++ "_"

/-- The members that a query declares. -/
def membersOf (q : GsqlQ) : List (Str × Str × Str) :=
  q.referred.map fun c => (memberVarName c.type, c.name, sizeName c.type)

theorem nodup_membersOf (q : GsqlQ) : ((membersOf q).map Prod.fst).Nodup := by
  have hnames : (membersOf q).map Prod.fst = (requiredTypes q).map memberVarName := by
    unfold membersOf GsqlQ.referred
    rw [List.map_map, List.map_map]
    rfl
  have hall : ∀ types ∈ [[], [BufType.par], [BufType.res], [BufType.par, BufType.res]],
      (types.map memberVarName).Nodup := by decide
  rw [hnames]
  exact hall _ (requiredTypes_mem q)

/-- The members are found that the constructor sets. -/
theorem bufs_read (q : GsqlQ) (offs : Nat) :
    (q.referred.map (ctorLine offs)).mapM (setBuf (membersOf q)) =
      some (q.referred.map utlBuf) := by
  apply mapM_eq_some
  rw [List.forall₂_map_left_iff, List.forall₂_map_right_iff, List.forall₂_same]
  intro c hc
  have hmem : (memberVarName c.type, c.name, sizeName c.type) ∈ membersOf q :=
    List.mem_map_of_mem hc
  have hlookup := lookup_of_mem (nodup_membersOf q) hmem []
  rw [List.append_nil] at hlookup
  unfold setBuf
  rw [(lineFree_ctorLine (by decide : Free "set_" []) c offs).2]
  exact congrArg (Option.map _) hlookup

/-! ## The class -/

theorem codeLines_append (its its' : List Item) :
    codeLines (its ++ its') = codeLines its ++ codeLines its' := List.filterMap_append

theorem codeLines_code (lines : List Str) : codeLines (lines.map .code) = lines := by
  unfold codeLines
  rw [List.filterMap_map]
  exact List.filterMap_some

theorem findSome?_code (lines : List Str) : (lines.map Item.code).findSome? rawValue = none := by
  rw [List.findSome?_eq_none_iff, List.forall_mem_map]
  exact fun l _ => rfl

/-- The lines in front of the base of the constructor. -/
theorem lineFree_utlFront {q : GsqlQ} (hq : q.Typed) {marks : List Str} {title : Str}
    (htitle : LineFree marks title) (hmarks : ∀ p ∈ ["template<".toList, "class utl", "\x7b\n",
      "public:", "using ", "explicit "], Free p marks) (hnil : ∀ mark ∈ marks, ¬ mark <+: ['\n'])
    (offs : Nat) : ∀ l ∈ utlFront q title offs, LineFree marks l := by
  have hline : ∀ {p msg : Str}, p ∈ ["template<".toList, "class utl", "\x7b\n", "public:",
      "using ", "explicit "] → p <+: msg → '\n' ∉ msg → ∀ n, LineFree marks (sl msg n) :=
    fun hp h hn n => lineFree_sl (hmarks _ hp) h hn n
  have husing := lineFree_blanks 2 (hmarks "using ".toList (by decide))
    (by decide : _ <+: "using brr = db::buffer_root_root;".toList) (by decide) offs
  refine List.forall_mem_cons.mpr ⟨htitle, ?_⟩
  refine List.forall_mem_cons.mpr ⟨(templHdr_line hq (hmarks _ (by decide)) hnil offs).1, ?_⟩
  refine List.forall_mem_cons.mpr ⟨@hline "class utl" "class utl: public db::utl" (by decide)
    (by decide) (by decide) offs, ?_⟩
  refine List.forall_mem_cons.mpr ⟨lineFree_whole (hmarks "\x7b\n".toList (by decide)) (by decide)
    (by decide) offs, ?_⟩
  refine List.forall_mem_cons.mpr ⟨@hline "public:" "public:" (by decide) (by decide)
    (by decide) offs, ?_⟩
  refine List.forall_mem_cons.mpr ⟨husing, List.forall_mem_singleton.mpr ?_⟩
  exact @hline "explicit " "explicit utl(db::connection* c)" (by decide) (by decide)
    (by decide) (offs + 2)

/-- The members of the buffers are read as they were printed. -/
theorem mapM_memberLine {q : GsqlQ} (hnamed : Named q) (offs : Nat) :
    (q.referred.map (memberLine offs)).mapM bufMember = some (membersOf q) := by
  apply mapM_eq_some
  unfold membersOf
  rw [List.forall₂_map_left_iff, List.forall₂_map_right_iff, List.forall₂_same]
  intro c hc
  obtain ⟨hne, hname⟩ := hnamed c hc
  exact (lineFree_memberLine (List.forall_mem_nil _) hne hname offs).2

theorem mapM_getterLine {q : GsqlQ} (hnamed : Named q) (offs : Nat) :
    (q.referred.map (getterLine (offs + 2))).mapM bufGetter = some (utlOf q offs).getters := by
  apply mapM_eq_some
  unfold utlOf
  rw [List.forall₂_map_left_iff, List.forall₂_map_right_iff, List.forall₂_same]
  intro c hc
  obtain ⟨hne, hname⟩ := hnamed c hc
  exact (lineFree_getterLine (List.forall_mem_nil _) hne hname (offs + 2)).2

/-- The items of a query class, also behind comments and in front of other lines, are read as the
class that is described. -/
theorem readUtl_utlItems {q : GsqlQ} (hq : q.Typed) (hnamed : Named q)
    (hallowed : ∀ v ∈ q.allowed, IsInt v) {title : Str} (offs : Nat) {pre : List Str}
    (hpre : ∀ l ∈ pre ++ [title], LineFree ["class ", ": db::utl(", "template<"] l)
    (post : List Str) :
    readUtl (pre.map .code ++ (utlItems q title offs ++ post.map .code)) =
      some (utlOf q offs) := by
  let its := pre.map Item.code ++ (utlItems q title offs ++ post.map Item.code)
  let rest := [';', '\n'] :: sl "\x7d;" offs :: post
  have hlines : codeLines its = (pre ++ utlFront q title offs) ++ (utlBody q offs ++ rest) := by
    unfold its utlItems
    simp only [codeLines_append, codeLines_code, List.append_assoc]
    rfl
  have hraw : its.findSome? rawValue = some (embedded q.sqlSet.sqlDscr.mlSql.lines (offs + 2)) := by
    unfold its utlItems
    rw [List.findSome?_append, findSome?_code, List.append_assoc, List.findSome?_append,
      findSome?_code]
    rfl
  have hsizes : (upTo (starts "class ") (codeLines its)).flatMap sizesIn =
      (requiredTypes q).map sizeName := by
    have hfront : ∀ l ∈ pre ++ [title], sizesIn l = [] := fun l hl => by
      rw [sizesIn, (hpre l hl).free _ (by decide), if_neg Bool.false_ne_true]
    obtain ⟨hblank, hread⟩ := @templHdr_line q hq ["class ".toList] (by decide) (by decide) offs
    have hcut : codeLines its = (pre ++ [title] ++ [sl (genTemplHdr q) offs]) ++
        sl "class utl: public db::utl" offs :: ((utlFront q title offs).drop 3 ++
          (utlBody q offs ++ rest)) := by
      rw [hlines]
      simp [utlFront]
    rw [hcut, upTo_append_cons ?_ (starts_sl (by decide) (by decide) offs), List.flatMap_append,
      List.flatMap_eq_nil_iff.mpr hfront, List.nil_append, List.flatMap_singleton, hread]
    refine List.forall_mem_append.mpr ⟨fun l hl => (hpre l hl).free _ (by decide), ?_⟩
    exact List.forall_mem_singleton.mpr (hblank.free _ (by decide))
  have hbody : behind (starts ": db::utl(") (codeLines its) = utlBody q offs ++ rest := by
    have htitle : LineFree [": db::utl(".toList] title :=
      (hpre title (List.mem_append_right _ (List.mem_singleton_self _))).mono (by decide)
    have hfront := lineFree_utlFront hq htitle (by decide) (by decide) offs
    have hhead : starts ": db::utl(" (sl ": db::utl(c, sql_)" (offs + 2)) = true :=
      starts_sl (by decide) (by decide) _
    rw [hlines, behind_append]
    · exact behind_cons hhead _
    · refine List.forall_mem_append.mpr ⟨fun l hl => ?_, fun l hl => ?_⟩
      · exact (hpre l (List.mem_append_left _ hl)).free _ (by decide)
      · exact (hfront l hl).free _ (by decide)
  change readUtl its = _
  unfold readUtl
  simp only [hbody, members_read hnamed, setters_read hnamed, getters_read hnamed,
    allowed_read hnamed offs rest hallowed, mapM_memberLine hnamed, bufs_read,
    mapM_getterLine hnamed, hraw, hsizes, Option.bind_eq_bind, Option.bind_some]
  rfl

/-! ## The text -/

/-- A text of whole lines that are read as the items. -/
def Printed (text : Str) (its : List Item) : Prop :=
  ∃ lines : List Str, text = lines.flatten ∧ (∀ l ∈ lines, Line l) ∧ Reads rawDelimiter lines its

theorem Printed.append {text text' : Str} {its its' : List Item} (h : Printed text its)
    (h' : Printed text' its') : Printed (text ++ text') (its ++ its') := by
  obtain ⟨lines, rfl, hlines, hreads⟩ := h
  obtain ⟨lines', rfl, hlines', hreads'⟩ := h'
  exact ⟨lines ++ lines', List.flatten_append.symm, List.forall_mem_append.mpr ⟨hlines, hlines'⟩,
    hreads.append hreads'⟩

theorem Printed.items_eq {text : Str} {its : List Item} (h : Printed text its) :
    items rawDelimiter none (textLines text) = its := by
  obtain ⟨lines, rfl, hlines, hreads⟩ := h
  rw [textLines_flatten hlines]
  exact hreads.items_eq

theorem opened_eq_none {l : Str} (h : starts "R\"" l = false) : opened rawDelimiter l = none := by
  have hmark : "R\"".toList <+: opening rawDelimiter := by decide
  unfold opened
  dsimp only
  rw [if_neg]
  rw [List.isPrefixOf_iff_prefix]
  intro hopen
  rw [starts, Bool.eq_false_iff, ne_eq, List.isPrefixOf_iff_prefix] at h
  exact h (hmark.trans hopen)

theorem printed_lines {lines : List Str} (h : ∀ l ∈ lines, LineFree ["R\""] l) :
    Printed lines.flatten (lines.map .code) :=
  ⟨lines, rfl, fun l hl => (h l hl).line, reads_code fun l hl =>
    opened_eq_none ((h l hl).free _ (by decide))⟩

theorem printed_line {l : Str} (h : LineFree ["R\""] l) : Printed l [.code l] := by
  have hprinted := printed_lines (List.forall_mem_singleton.mpr h)
  rwa [List.flatten_singleton] at hprinted

/-- A statement that a raw string literal can hold. -/
def Quotable (ls : List Str) : Prop := ∀ l ∈ ls, '\n' ∉ l ∧ ¬ terminator rawDelimiter <:+: l

theorem quotable_iff (ls : List Str) :
    Quotable ls ↔ ∀ l ∈ ls, '\n' ∉ l ∧ cutAt (terminator rawDelimiter) l = none := by
  unfold Quotable
  simp only [cutAt_eq_none_iff (by decide : terminator rawDelimiter ≠ [])]

instance (ls : List Str) : Decidable (Quotable ls) := decidable_of_iff' _ (quotable_iff ls)

theorem notInfix_sl {l : Str} (h : ¬ terminator rawDelimiter <:+: l) (offs : Nat) :
    ¬ terminator rawDelimiter <:+: sl l offs := by
  have hblanks : ∀ c ∈ blanks (offs % 256), SqlLex.isBlank c = true := fun c hc =>
    (isBlank_of_mem_blanks hc).1
  have hnil : ¬ terminator rawDelimiter <:+: [] := by decide
  unfold sl s
  rw [infix_append_line (by decide) (by decide), terminator_infix_append_iff hblanks]
  exact not_or.mpr ⟨h, hnil⟩

/-- The literal of the statement is read as the value. -/
theorem printed_literal {ls : List Str} (h : Quotable ls) (offs : Nat) :
    Printed (sl "R\"k0a1f2k3a4(" offs ++ ls.flatMap (fun l => sl l (offs + 2)) ++
      sl ")k0a1f2k3a4\";" offs) [.raw (embedded ls offs), .code [';', '\n']] := by
  let lines := ls.map fun l => sl l (offs + 2)
  have hopen : opened rawDelimiter (sl "R\"k0a1f2k3a4(" offs) = some ['\n'] := by
    unfold opened
    rw [dropWhile_sl (by decide) (List.prefix_refl _)]
    rfl
  have hlast : cutAt (terminator rawDelimiter) (sl ")k0a1f2k3a4\";" offs) =
      some (blanks (offs % 256), [';', '\n']) := by
    have hclose : sl ")k0a1f2k3a4\";" offs = blanks (offs % 256) ++
        (terminator rawDelimiter ++ [';', '\n']) := by
      rw [sl, s, List.append_assoc]
      rfl
    have hskip : cutAt (terminator rawDelimiter) (blanks (offs % 256) ++
        (terminator rawDelimiter ++ [';', '\n'])) =
          (cutAt (terminator rawDelimiter) (terminator rawDelimiter ++ [';', '\n'])).map
            fun r => (blanks (offs % 256) ++ r.1, r.2) :=
      cutAt_skip (notMem_blanks (by decide) _) _
    rw [hclose, hskip, cutAt_self, Option.map_some, List.append_nil]
  have hlines : ∀ l ∈ lines, ¬ terminator rawDelimiter <:+: l := by
    rw [List.forall_mem_map]
    exact fun l hl => notInfix_sl (h l hl).2 _
  have hvalue : ['\n'] ++ lines.flatten ++ blanks (offs % 256) = embedded ls offs := by
    rw [embedded, List.append_assoc, List.flatMap_def]
    rfl
  have hread := reads_literal hopen (by decide) hlines hlast
  rw [hvalue] at hread
  refine ⟨sl "R\"k0a1f2k3a4(" offs :: (lines ++ [sl ")k0a1f2k3a4\";" offs]), ?_, ?_, hread⟩
  · rw [List.flatten_cons, List.flatten_append, List.flatten_singleton, List.flatMap_def,
      List.append_assoc]
  · refine List.forall_mem_cons.mpr ⟨line_sl (by decide) offs, List.forall_mem_append.mpr ⟨?_, ?_⟩⟩
    · exact List.forall_mem_map.mpr fun l hl => line_sl (h l hl).1 _
    · exact List.forall_mem_singleton.mpr (line_sl (by decide) offs)

/-- The parts of a query class behind its title. -/
def utlParts (q : GsqlQ) (offs : Nat) : List Str :=
  [sl (genTemplHdr q) offs, sl "class utl: public db::utl" offs, sl "\x7b" offs,
    sl "public:" offs, sl "  using brr = db::buffer_root_root;" offs, genUtlCtor q (offs + 2),
    genUtlGetters q (offs + 2), defineAllowedCodes q.allowed (offs + 2), sl "private:" offs,
    genUtlMemberVar q (offs + 2), genConstSql q (offs + 2), sl "\x7d;" offs]

theorem utlParts_flatten {q : GsqlQ} (hq : q.Typed) (title : Str) (offs : Nat) :
    title ++ (utlParts q offs).flatten =
      (utlFront q title offs ++ utlBody q offs).flatten ++
        ((sl "R\"k0a1f2k3a4(" (offs + 2) ++ q.sqlSet.sqlDscr.mlSql.lines.flatMap
          (fun l => sl l (offs + 2 + 2)) ++ sl ")k0a1f2k3a4\";" (offs + 2)) ++
            [sl "\x7d;" offs].flatten) := by
  have hallowed : defineAllowedCodes q.allowed (offs + 2) =
      sl "/// return codes that do not triger an exception" (offs + 2) ++
        (sl "std::vector<int> allowed_codes()const override" (offs + 2) ++
          returnLine q.allowed (offs + 2)) := List.append_assoc _ _ _
  unfold utlParts utlFront utlBody genConstSql
  rw [(prints hq (offs + 2)).ctor, (prints hq (offs + 2)).getters, (prints hq (offs + 2)).members,
    hallowed]
  simp only [List.flatten_cons, List.flatten_append, List.flatten_nil, List.flatMap_def,
    List.append_assoc, List.append_nil, List.nil_append, List.cons_append]

/-- The text of a query class is read as its items. -/
theorem printed_genUtl {q : GsqlQ} (hq : q.Typed) (hnamed : Named q) (hid : '\n' ∉ q.namespaceStr)
    (hsql : Quotable q.sqlSet.sqlDscr.mlSql.lines) {offs : Nat} {text : Str}
    (h : genUtl q offs = .ok text) :
    ∃ title, (∀ marks, Free "/*" marks → LineFree marks title) ∧
      Printed text (utlItems q title offs) := by
  have hparts : genUtl q offs =
      concat (lineText (q.namespaceStr ++ "::utl") offs :: (utlParts q offs).map .ok) := rfl
  rw [hparts] at h
  obtain ⟨title, rest, htitle, hrest, rfl⟩ := concat_cons_eq_ok h
  rw [concat_ok] at hrest
  obtain rfl := Except.ok.inj hrest
  have hcomment := lineText_line (by decide) (newline_notMem_append hid (by decide)) htitle
  refine ⟨title, hcomment, ?_⟩
  have hend : LineFree ["R\""] (sl "\x7d;" offs) :=
    lineFree_whole (by decide) (by decide) (by decide) offs
  have hlines : ∀ l ∈ utlFront q title offs ++ utlBody q offs, LineFree ["R\""] l := by
    refine List.forall_mem_append.mpr ⟨?_, fun l hl =>
      (lineFree_utlBody hnamed offs l hl).mono (by decide)⟩
    exact lineFree_utlFront hq (hcomment _ (by decide)) (by decide) (by decide) offs
  rw [utlParts_flatten hq]
  exact (printed_lines hlines).append ((printed_literal hsql (offs + 2)).append
    (printed_lines (List.forall_mem_singleton.mpr hend)))

end Dbgen3.Generator
