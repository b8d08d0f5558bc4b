import Dbgen3.Generator.GenCpp
import Dbgen3.Lib.RawString
import Dbgen3.Lib.SqlLex

/-!
# The embedded and the prepared statement

The generator prepares the trimmed lines of a text joined by blanks and embeds
the same lines with their line breaks in a raw string literal. The two have the
same tokens as long as every line can stand alone.
-/

namespace Dbgen3.Generator

open Text SqlLex RawString

/-- The query after the description of a `<sql>` element is put in an empty set. -/
def GsqlQ.ofElement (q : GsqlQ) (db : Rdbms) (sql sqlPrep : Str) : GsqlQ :=
  q.setSqlSet
    (({ dbType := q.sqlSet.dbType } : GsqlSqlSet).put
      (.new db (View.ofStr sql) (View.ofStr sqlPrep))).2

/-- The value of the constant that a generated text declares. The declaration has to end
right after the literal. -/
def constValue (text : Str) : Option Str :=
  (literal rawDelimiter text).bind fun p => if p.2 = [';', '\n'] then some p.1 else none

/-- Every line of a text can stand alone: it closes its literals, does not end the raw
string literal, and has no successor with tokens when it ends in a comment. -/
structure LineSafe (ls : List Str) : Prop where
  closed : ∀ l ∈ ls, Closed l
  noTerminator : ∀ l ∈ ls, ¬ terminator rawDelimiter <:+: l
  commentsLast : CommentsLast ls

/-! ## The value of the constant -/

/-- A line as `gen_const_sql` prints it, without its end. -/
def indented (offs : Nat) (l : Str) : Str := s l (offs + 2)

/-- What the literal holds when no line ends it. -/
def embedded (ls : List Str) (offs : Nat) : Str :=
  ['\n'] ++ (ls.flatMap (fun l => indented offs l ++ ['\n']) ++ blanks (offs % 256))

theorem isBlank_of_mem_blanks {c : Char} {n : Nat} (h : c ∈ blanks n) :
    isBlank c = true ∧ c ≠ '\n' := by
  obtain rfl := List.eq_of_mem_replicate h
  decide

/-- Blanks in front of a line do not hide or make a terminator. -/
theorem terminator_infix_append_iff {bs : Str} (hb : ∀ c ∈ bs, isBlank c = true) (l : Str) :
    terminator rawDelimiter <:+: bs ++ l ↔ terminator rawDelimiter <:+: l := by
  have hne : terminator rawDelimiter ≠ [] := by decide
  have hmem : ')' ∉ bs := by
    intro h
    have := hb _ h
    cases this
  have hcut : cutAt (terminator rawDelimiter) (bs ++ l) =
      (cutAt (terminator rawDelimiter) l).map fun r => (bs ++ r.1, r.2) := cutAt_skip hmem l
  apply not_iff_not.mp
  rw [← cutAt_eq_none_iff hne, ← cutAt_eq_none_iff hne, hcut, Option.map_eq_none_iff]

theorem literal_genConstSql (q : GsqlQ) (offs : Nat) :
    literal rawDelimiter (genConstSql q offs) =
      cutAt (terminator rawDelimiter)
        (embedded q.sqlSet.sqlDscr.mlSql.lines offs ++
          (terminator rawDelimiter ++ [';', '\n'])) := by
  have hblank : 'R' ∉ blanks (offs % 256) := notMem_blanks (by decide) _
  have hdecl : 'R' ∉ ("constexpr static const cstr_t sql_ =".toList ++ ['\n'] : Str) := by decide
  have hpre : 'R' ∉ sl "constexpr static const cstr_t sql_ =" offs ++ blanks (offs % 256) := by
    rw [List.mem_append, not_or, sl, s, List.append_assoc, List.mem_append, not_or]
    exact ⟨⟨hblank, hdecl⟩, hblank⟩
  have hopen : ("R\"k0a1f2k3a4(".toList : Str) = opening rawDelimiter := by decide
  have hclose : (")k0a1f2k3a4\";".toList : Str) = terminator rawDelimiter ++ [';'] := by decide
  rw [← literal_append hpre]
  simp only [genConstSql, embedded, indented, sl, s, hopen, hclose, List.append_assoc,
    List.cons_append, List.nil_append]

/-- The constant has a value exactly when no line ends the literal, and then it holds
the lines with their indentation. -/
theorem constValue_eq_some_iff (q : GsqlQ) (offs : Nat) (t : Str) :
    constValue (genConstSql q offs) = some t ↔
      (∀ l ∈ q.sqlSet.sqlDscr.mlSql.lines, ¬ terminator rawDelimiter <:+: l) ∧
        t = embedded q.sqlSet.sqlDscr.mlSql.lines offs := by
  let ls := q.sqlSet.sqlDscr.mlSql.lines
  have hlines : cutAt (terminator rawDelimiter)
      (embedded ls offs ++ (terminator rawDelimiter ++ [';', '\n'])) =
        some (embedded ls offs, [';', '\n']) ↔
      ∀ l ∈ ls, ¬ terminator rawDelimiter <:+: l := by
    refine (cutAt_lines_iff (indented offs) (by decide) (by decide)
      (notMem_blanks (by decide) (offs % 256)) ls).trans ?_
    apply forall₂_congr
    intro l _
    rw [indented, s, terminator_infix_append_iff fun c hc => (isBlank_of_mem_blanks hc).1]
  rw [constValue, literal_genConstSql]
  constructor
  · intro h
    obtain ⟨⟨x, y⟩, hcut, hxy⟩ := Option.bind_eq_some_iff.mp h
    rw [Option.ite_none_right_eq_some, Option.some.injEq] at hxy
    obtain ⟨rfl, rfl⟩ := hxy
    obtain rfl : embedded ls offs = x := List.append_cancel_right (eq_of_cutAt hcut)
    exact ⟨hlines.mp hcut, rfl⟩
  · rintro ⟨hclean, rfl⟩
    rw [hlines.mpr hclean]
    rfl

/-! ## The tokens of both statements -/

theorem trimOf_indented (offs : Nat) (l : Str) : TrimOf l (indented offs l) := by
  refine ⟨blanks ((offs + 2) % 256), [], by rw [List.append_nil]; rfl, ?_, by simp⟩
  intro c hc
  exact (isBlank_of_mem_blanks hc).1

theorem trimOf_trim {l : Str} (hn : '\n' ∉ l) : TrimOf (trim (View.ofStr l)).toStr l := by
  obtain ⟨left, right, heq, hleft, hright⟩ := trim_spec l
  refine ⟨left, right, heq, hleft, ?_⟩
  intro c hc
  refine ⟨hright c hc, ?_⟩
  rintro rfl
  apply hn
  rw [heq]
  exact List.mem_append_right _ hc

/-- A line as the prepared statement has it. -/
def core (l : Str) : Str := (trim (View.ofStr l)).toStr

theorem prepared_eq (ls : List Str) :
    (MultiLine.mk ls).toStr = (ls.map core).flatMap fun l => l ++ [' '] := by
  rw [List.flatMap_map]
  rfl

section

variable {ls : List Str} (hn : ∀ l ∈ ls, '\n' ∉ l) (offs : Nat)

include hn

theorem newline_notMem_core : ∀ l ∈ ls.map core, '\n' ∉ l := by
  rw [List.forall_mem_map]
  intro l hl hmem
  obtain ⟨left, right, heq, -⟩ := trimOf_trim (hn l hl)
  apply hn l hl
  rw [heq]
  exact List.mem_append_left _ (List.mem_append_right _ hmem)

/-- No token of the prepared statement goes over a line break. -/
theorem newline_notMem_prepared : '\n' ∉ (tokens (MultiLine.mk ls).toStr).flatten := by
  intro h
  have hmem := mem_of_mem_tokens h
  rw [prepared_eq] at hmem
  obtain ⟨l, hl, hc⟩ := List.mem_flatMap.mp hmem
  rcases List.mem_append.mp hc with hc | hc
  · exact absurd hc (newline_notMem_core hn l hl)
  · simp at hc

omit hn in
theorem tokens_embedded : tokens (embedded ls offs) =
    tokens (ls.flatMap (fun l => indented offs l ++ ['\n']) ++ blanks (offs % 256)) :=
  tokens_blanks_append (by simp [isBlank]) _

/-- Lines that close their literals keep their own tokens. -/
theorem tokens_embedded_of_closed (hall : ∀ l ∈ ls, Closed l) :
    tokens (embedded ls offs) = (ls.map core).flatMap tokens := by
  have hind : ∀ l ∈ ls, Closed (indented offs l) :=
    fun l hl => (trimOf_indented offs l).closed_iff.mpr (hall l hl)
  have hlast : tokens (blanks (offs % 256)) = [] := by
    have h := tokens_blanks_append (fun c hc => (isBlank_of_mem_blanks (n := offs % 256) hc).1) []
    rwa [List.append_nil] at h
  calc tokens (embedded ls offs)
      = ls.flatMap (fun l => tokens (indented offs l)) ++ tokens (blanks (offs % 256)) :=
        (tokens_embedded offs).trans (tokens_lines _ hind _)
    _ = ls.flatMap (fun l => tokens (indented offs l)) := by rw [hlast, List.append_nil]
    _ = ls.flatMap (fun l => tokens (core l)) := by
        apply List.flatMap_congr
        intro l hl
        have htrim := trimOf_trim (hn l hl)
        rw [(trimOf_indented offs l).tokens_eq (hall l hl)]
        exact htrim.tokens_eq (htrim.closed_iff.mp (hall l hl))
    _ = (ls.map core).flatMap tokens := by rw [List.flatMap_map]

omit hn in
/-- A literal that is left open keeps its line break. -/
theorem newline_mem_embedded (hopen : ¬ ∀ l ∈ ls, Closed l) :
    '\n' ∈ (tokens (embedded ls offs)).flatten := by
  rw [tokens_embedded]
  apply newline_mem_tokens_lines
  intro h
  exact hopen fun l hl => (trimOf_indented offs l).closed_iff.mp (h l hl)

/-- The embedded and the prepared lines have the same tokens exactly when all literals are
closed and nothing follows a comment. -/
theorem tokens_embedded_eq_iff :
    tokens (embedded ls offs) = tokens (MultiLine.mk ls).toStr ↔
      (∀ l ∈ ls, Closed l) ∧ CommentsLast ls := by
  by_cases hall : ∀ l ∈ ls, Closed l
  · have hcore : ∀ l ∈ ls, TrimOf (core l) l := fun l hl => trimOf_trim (hn l hl)
    have hclosed : ∀ l ∈ ls.map core, Closed l := by
      rw [List.forall_mem_map]
      exact fun l hl => (hcore l hl).closed_iff.mp (hall l hl)
    rw [tokens_embedded_of_closed hn offs hall, prepared_eq, eq_comm,
      tokens_joined_iff hclosed (newline_notMem_core hn), commentsLast_map hcore hall]
    exact (and_iff_right hall).symm
  · refine iff_of_false ?_ fun h => hall h.1
    intro heq
    apply newline_notMem_prepared hn
    rw [← heq]
    exact newline_mem_embedded offs hall

end

/-! ## From the kept lines to the lines of the text -/

theorem trimOf_nil_of_whitespace {l : Str} (h : MultiLine.isWhitespaceLine l = true) :
    TrimOf [] l :=
  ⟨l, [], by simp, List.all_eq_true.mp h, by simp⟩

/-- A line of blanks is safe and carries nothing. -/
structure Harmless (l : Str) : Prop where
  closed : Closed l
  tokens : tokens l = []
  noComment : ¬ EndsInComment l
  noTerminator : ¬ terminator rawDelimiter <:+: l

theorem harmless_of_whitespace {l : Str} (h : MultiLine.isWhitespaceLine l = true) :
    Harmless l := by
  have hnil : Closed [] ∧ ¬ EndsInComment [] ∧ ¬ terminator rawDelimiter <:+: [] := by decide
  have htrim := trimOf_nil_of_whitespace h
  refine ⟨htrim.closed_iff.mpr hnil.1, htrim.tokens_eq hnil.1, ?_, ?_⟩
  · rw [htrim.endsInComment_iff]
    exact hnil.2.1
  · rw [← List.append_nil l, terminator_infix_append_iff (List.all_eq_true.mp h)]
    exact hnil.2.2

/-- The minimal form has the terminator in a line where the lines have it. -/
theorem noTerminator_minimize_iff (o : List Str) :
    (∀ l ∈ MultiLine.minimize o, ¬ terminator rawDelimiter <:+: l) ↔
      ∀ l ∈ o, ¬ terminator rawDelimiter <:+: l := by
  obtain ⟨pre, block, post, f, rfl, hmin, hpre, hpost, hblock⟩ := MultiLine.minimize_spec o
  have hpre' : ∀ l ∈ pre, ¬ terminator rawDelimiter <:+: l :=
    fun l hl => (harmless_of_whitespace (hpre l hl)).noTerminator
  have hpost' : ∀ l ∈ post, ¬ terminator rawDelimiter <:+: l :=
    fun l hl => (harmless_of_whitespace (hpost l hl)).noTerminator
  have hterm : ∀ l ∈ block,
      (terminator rawDelimiter <:+: f l ↔ terminator rawDelimiter <:+: l) := by
    intro l hl
    obtain ⟨bs, heq, hbs⟩ := hblock l hl
    conv => rhs; rw [heq]
    exact (terminator_infix_append_iff hbs (f l)).symm
  rw [hmin, List.forall_mem_map]
  simp only [List.forall_mem_append]
  constructor
  · intro h
    exact ⟨⟨hpre', fun l hl hin => h l hl ((hterm l hl).mpr hin)⟩, hpost'⟩
  · rintro ⟨⟨-, h⟩, -⟩ l hl hin
    exact h l hl ((hterm l hl).mp hin)

/-- A text and its minimized lines are safe together. -/
theorem lineSafe_minimize_iff (o : List Str) : LineSafe (MultiLine.minimize o) ↔ LineSafe o := by
  have hterm := noTerminator_minimize_iff o
  obtain ⟨pre, block, post, f, rfl, hmin, hpre, hpost, hblock⟩ := MultiLine.minimize_spec o
  have hpre' : ∀ l ∈ pre, Harmless l := fun l hl => harmless_of_whitespace (hpre l hl)
  have hpost' : ∀ l ∈ post, Harmless l := fun l hl => harmless_of_whitespace (hpost l hl)
  have htrim : ∀ l ∈ block, TrimOf (f l) l := by
    intro l hl
    obtain ⟨bs, heq, hbs⟩ := hblock l hl
    exact ⟨bs, [], by rw [List.append_nil]; exact heq, hbs, by simp⟩
  have hcomments : CommentsLast (pre ++ block ++ post) ↔ CommentsLast block := by
    rw [List.append_assoc]
    apply commentsLast_append
    · exact fun l hl => (hpre' l hl).noComment
    · exact fun l hl => ⟨(hpost' l hl).tokens, (hpost' l hl).noComment⟩
  rw [hmin] at hterm ⊢
  constructor
  · rintro ⟨hclosed, hclean, hlast⟩
    rw [List.forall_mem_map] at hclosed
    have hclosed' : ∀ l ∈ block, Closed l :=
      fun l hl => (htrim l hl).closed_iff.mpr (hclosed l hl)
    refine ⟨?_, hterm.mp hclean, hcomments.mpr ((commentsLast_map htrim hclosed').mp hlast)⟩
    simp only [List.forall_mem_append]
    exact ⟨⟨fun l hl => (hpre' l hl).closed, hclosed'⟩, fun l hl => (hpost' l hl).closed⟩
  · rintro ⟨hclosed, hclean, hlast⟩
    simp only [List.forall_mem_append] at hclosed
    refine ⟨?_, hterm.mpr hclean, (commentsLast_map htrim hclosed.1.2).mpr (hcomments.mp hlast)⟩
    rw [List.forall_mem_map]
    exact fun l hl => (htrim l hl).closed_iff.mp (hclosed.1.2 l hl)

/-- The lines that are kept have no line breaks. -/
theorem newline_notMem_toVec {str : View} {l : Str} (hl : l ∈ MultiLine.toVec str) : '\n' ∉ l := by
  obtain ⟨k, hk, hkeep⟩ := MultiLine.mem_of_mem_minimize hl
  exact fun h => notMem_of_mem_getlines hk (hkeep _ h)

/-- The embedded and the prepared statement of a `<sql>` element have the same tokens
exactly when every line of its text can stand alone. -/
theorem embedded_tokens_eq_iff (q : GsqlQ) (db : Rdbms) (sql sqlPrep : Str) (offs : Nat) :
    (constValue (genConstSql (q.ofElement db sql sqlPrep) offs)).map tokens =
        some (tokens (q.ofElement db sql sqlPrep).sql) ↔
      LineSafe (split (View.ofStr sql) '\n') := by
  let ls := MultiLine.toVec (View.ofStr sql)
  have hsafe : LineSafe ls ↔ LineSafe (split (View.ofStr sql) '\n') :=
    lineSafe_minimize_iff (split (View.ofStr sql) '\n')
  have hn : ∀ l ∈ ls, '\n' ∉ l := fun l hl => newline_notMem_toVec hl
  have htokens := tokens_embedded_eq_iff hn offs
  rw [← hsafe, Option.map_eq_some_iff]
  constructor
  · rintro ⟨t, ht, heq⟩
    obtain ⟨hclean, rfl⟩ := (constValue_eq_some_iff _ offs t).mp ht
    obtain ⟨hclosed, hlast⟩ := htokens.mp heq
    exact ⟨hclosed, hclean, hlast⟩
  · rintro ⟨hclosed, hclean, hlast⟩
    exact ⟨embedded ls offs, (constValue_eq_some_iff _ offs _).mpr ⟨hclean, rfl⟩,
      htokens.mpr ⟨hclosed, hlast⟩⟩

/-- A comment in the first of two lines hides the second one in the prepared statement
only. -/
theorem embedded_tokens_ne_of_comment :
    let q := GsqlQ.ofElement { sqlSet := { dbType := .db2 } } .sql "select 1 -- one\nfrom t" ""
    (constValue (genConstSql q 4)).map tokens = some ["select".toList, "1", "from", "t"] ∧
      tokens q.sql = ["select".toList, "1"] ∧
      (constValue (genConstSql q 4)).map tokens ≠ some (tokens q.sql) := by
  decide

end Dbgen3.Generator
