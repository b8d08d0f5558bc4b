import Dbgen3.Generator.ConstSql
import Dbgen3.Generator.Minimal
import Mathlib.Algebra.Order.BigOperators.Group.List
import Mathlib.Algebra.Order.Group.Nat
import Mathlib.Algebra.Ring.Nat

/-!
# The value of the embedded statement

`gen_const_sql` puts the lines of a text between the delimiters of a raw string
literal and escapes nothing. What a C++ compiler reads from the literal is
compared with the lines. A compiler may take a carriage return and a line feed
as one end of line; both ways of reading are considered.
-/

namespace Dbgen3.Generator

open Text RawString
open MultiLine (linesToStr)

/-! ## Reading the source -/

/-- A character that a document can carry. -/
def XmlChar (c : Char) : Prop := c = '\t' ∨ c = '\n' ∨ c = '\r' ∨ 32 ≤ c.toNat

instance (c : Char) : Decidable (XmlChar c) := inferInstanceAs (Decidable (_ ∨ _))

/-- Each carriage return in front of a line feed goes with it. -/
def joinEols : Str → Str
  | '\r' :: '\n' :: rest => '\n' :: joinEols rest
  | c :: rest => c :: joinEols rest
  | [] => []

/-- The characters that a compiler reads from a file. -/
def sourceText (crlf : Bool) (t : Str) : Str := if crlf then joinEols t else t

/-- A line break, the lines indented and with their ends, and blanks. -/
def laidOut (ls : List Str) (offs : Nat) : Str :=
  '\n' :: (ls.flatMap (fun l => blanks (offs + 2) ++ l ++ ['\n']) ++ blanks offs)

/-- The line without a carriage return at its end. -/
def dropCr (l : Str) : Str := if l.getLast? = some '\r' then l.dropLast else l

/-! ## Searching line by line -/

theorem infix_append_line {pat a : Str} {n : Char} (hn : n ∉ pat) (hne : pat ≠ []) (s : Str) :
    pat <:+: a ++ n :: s ↔ pat <:+: a ∨ pat <:+: s := by
  constructor
  · intro h
    by_cases ha : pat <:+: a
    · exact .inl ha
    · right
      by_contra hs
      have hcut := cutAt_skip_line hn ha s
      rw [(cutAt_eq_none_iff hne s).mpr hs, Option.map_none, cutAt_eq_none_iff hne] at hcut
      exact hcut h
  · rintro (h | h)
    · exact h.trans (List.prefix_append a (n :: s)).isInfix
    · have hsuffix : s <:+ a ++ n :: s := ⟨a ++ [n], by simp⟩
      exact h.trans hsuffix.isInfix

/-- A pattern without a line break stands in a text where it stands in one of its lines. -/
theorem infix_iff_getlines {pat : Str} {n : Char} (hn : n ∉ pat) (hne : pat ≠ []) (t : Str) :
    pat <:+: t ↔ ∃ l ∈ getlines n t, pat <:+: l := by
  induction hlen : t.length using Nat.strong_induction_on generalizing t with
  | _ len ih =>
      by_cases hmem : n ∈ t
      · obtain ⟨a, s, rfl, ha⟩ := List.eq_append_cons_of_mem hmem
        have hs : s.length < len := by
          rw [← hlen]
          simp only [List.length_append, List.length_cons]
          omega
        rw [infix_append_line hn hne, ih s.length hs s rfl, getlines_append ha]
        simp only [List.mem_cons, exists_eq_or_imp]
      · by_cases hnil : t = []
        · subst hnil
          simp [getlines, hne]
        · rw [getlines_of_notMem hnil hmem]
          simp

/-! ## Carriage returns -/

theorem joinEols_cons {c : Char} (hc : c ≠ '\r') (t : Str) :
    joinEols (c :: t) = c :: joinEols t := by
  rw [joinEols]
  rintro rest h
  exact absurd h hc

theorem joinEols_cons_cons {d : Char} (c : Char) (hd : d ≠ '\n') (t : Str) :
    joinEols (c :: d :: t) = c :: joinEols (d :: t) := by
  rw [joinEols]
  rintro rest - h
  exact absurd (List.cons.inj h).1 hd

theorem dropCr_cons_cons (c d : Char) (l : Str) : dropCr (c :: d :: l) = c :: dropCr (d :: l) := by
  unfold dropCr
  rw [List.getLast?_cons_cons]
  split
  · rw [List.dropLast_cons_cons]
  · rfl

theorem joinEols_line {a : Str} (h : '\n' ∉ a) (b : Str) :
    joinEols (a ++ '\n' :: b) = dropCr a ++ '\n' :: joinEols b := by
  induction a with
  | nil => exact joinEols_cons (by decide) b
  | cons c a ih =>
      rw [List.mem_cons, not_or] at h
      cases a with
      | nil =>
          by_cases hc : c = '\r'
          · subst hc
            rfl
          · have hdrop : dropCr [c] = [c] := if_neg (by simpa using hc)
            rw [hdrop, List.singleton_append, joinEols_cons hc, joinEols_cons (by decide)]
            rfl
      | cons d a =>
          have hd : d ≠ '\n' := by
            rintro rfl
            exact h.2 List.mem_cons_self
          rw [List.cons_append, List.cons_append, joinEols_cons_cons c hd, dropCr_cons_cons,
            List.cons_append, ← ih h.2, List.cons_append]

theorem linesToStr_cons (l : Str) (ls : List Str) :
    linesToStr (l :: ls) '\n' = l ++ '\n' :: linesToStr ls '\n' := by
  rw [linesToStr, List.flatMap_cons, List.append_assoc, List.singleton_append, linesToStr]

theorem joinEols_linesToStr {ls : List Str} (h : ∀ l ∈ ls, '\n' ∉ l) :
    joinEols (linesToStr ls '\n') = linesToStr (ls.map dropCr) '\n' := by
  induction ls with
  | nil => rfl
  | cons l ls ih =>
      obtain ⟨hl, hls⟩ := List.forall_mem_cons.mp h
      rw [linesToStr_cons, joinEols_line hl, ih hls, List.map_cons, linesToStr_cons]

theorem dropCr_length_lt {l : Str} (h : l.getLast? = some '\r') :
    (dropCr l).length < l.length := by
  have hne : l ≠ [] := by
    rintro rfl
    cases h
  have hpos := List.length_pos_iff.mpr hne
  rw [dropCr, if_pos h, List.length_dropLast]
  omega

theorem dropCr_length_le (l : Str) : (dropCr l).length ≤ l.length := by
  unfold dropCr
  split
  · rw [List.length_dropLast]
    exact Nat.sub_le _ _
  · exact Nat.le_refl _

/-- A carriage return at the end neither makes nor hides a terminator. -/
theorem terminator_infix_dropCr {l : Str} :
    terminator rawDelimiter <:+: dropCr l ↔ terminator rawDelimiter <:+: l := by
  unfold dropCr
  split
  · next h =>
    obtain ⟨l, rfl⟩ := List.getLast?_eq_some_iff.mp h
    rw [List.dropLast_concat]
    have hline := @infix_append_line (terminator rawDelimiter) l '\r'
      (by decide) (by decide) []
    rw [hline]
    have hnil : ¬ terminator rawDelimiter <:+: [] := by decide
    exact (or_iff_left hnil).symm
  · exact Iff.rfl

/-! ## The generated declaration -/

/-- The query with other lines. -/
def GsqlQ.withLines (q : GsqlQ) (ls : List Str) : GsqlQ :=
  { q with sqlSet := { q.sqlSet with sqlDscr := { q.sqlSet.sqlDscr with mlSql := ⟨ls⟩ } } }

/-- The lines of the declaration. -/
def constLines (ls : List Str) (offs : Nat) : List Str :=
  s "constexpr static const cstr_t sql_ =" offs :: s "R\"k0a1f2k3a4(" offs ::
    (ls.map (indented offs) ++ [s ")k0a1f2k3a4\";" offs])

theorem genConstSql_eq (q : GsqlQ) (offs : Nat) :
    genConstSql q offs = linesToStr (constLines q.sqlSet.sqlDscr.mlSql.lines offs) '\n' := by
  simp only [genConstSql, constLines, linesToStr, sl, indented, List.flatMap_cons,
    List.flatMap_append, List.flatMap_map, List.flatMap_nil, List.append_assoc, List.append_nil]

theorem dropCr_indented (offs : Nat) (l : Str) :
    dropCr (indented offs l) = indented offs (dropCr l) := by
  by_cases hl : l = []
  · subst hl
    have hlast : (indented offs []).getLast? ≠ some '\r' := by
      intro h
      have hmem : '\r' ∈ blanks ((offs + 2) % 256) := by
        have := List.mem_of_getLast? h
        rwa [indented, s, List.append_nil] at this
      exact notMem_blanks (by decide) _ hmem
    rw [dropCr, if_neg hlast]
    rfl
  · have hlast : (indented offs l).getLast? = l.getLast? := by
      rw [indented, s, List.getLast?_append_of_ne_nil _ hl]
    unfold dropCr
    rw [hlast]
    split
    · rw [indented, s, List.dropLast_append_of_ne_nil hl]
      rfl
    · rfl

theorem map_dropCr_constLines (ls : List Str) (offs : Nat) :
    (constLines ls offs).map dropCr = constLines (ls.map dropCr) offs := by
  have hfixed : ∀ t : Str, t ≠ [] → t.getLast? ≠ some '\r' → dropCr (s t offs) = s t offs := by
    intro t hne hlast
    rw [dropCr, if_neg]
    rwa [s, List.getLast?_append_of_ne_nil _ hne]
  simp only [constLines, List.map_cons, List.map_append, List.map_nil, List.map_map]
  rw [hfixed _ (by decide) (by decide), hfixed _ (by decide) (by decide),
    hfixed _ (by decide) (by decide)]
  congr 4
  ext1 l
  exact dropCr_indented offs l

theorem newline_notMem_constLines {ls : List Str} (h : ∀ l ∈ ls, '\n' ∉ l) (offs : Nat) :
    ∀ l ∈ constLines ls offs, '\n' ∉ l := by
  have hs : ∀ (t : Str) (n : Nat), '\n' ∉ t → '\n' ∉ s t n := by
    intro t n ht
    rw [s, List.mem_append, not_or]
    exact ⟨notMem_blanks (by decide) _, ht⟩
  simp only [constLines, List.forall_mem_cons, List.forall_mem_append, List.forall_mem_map]
  exact ⟨hs _ _ (by decide), hs _ _ (by decide), fun l hl => hs _ _ (h l hl),
    hs _ _ (by decide), List.forall_mem_nil _⟩

/-- A compiler that joins the ends of lines reads the declaration of other lines. -/
theorem joinEols_genConstSql {q : GsqlQ} (h : ∀ l ∈ q.sqlSet.sqlDscr.mlSql.lines, '\n' ∉ l)
    (offs : Nat) :
    joinEols (genConstSql q offs) =
      genConstSql (q.withLines (q.sqlSet.sqlDscr.mlSql.lines.map dropCr)) offs := by
  rw [genConstSql_eq, joinEols_linesToStr (newline_notMem_constLines h offs),
    map_dropCr_constLines, genConstSql_eq]
  rfl

/-! ## The value -/

theorem embedded_eq_laidOut (ls : List Str) {offs : Nat} (h : offs + 2 < 256) :
    embedded ls offs = laidOut ls offs := by
  have hin : ∀ l : Str, indented offs l = blanks (offs + 2) ++ l := by
    intro l
    rw [indented, s, Nat.mod_eq_of_lt h]
  simp only [embedded, laidOut, hin, Nat.mod_eq_of_lt (Nat.lt_of_le_of_lt (Nat.le_add_right _ 2) h)]
  rfl

/-- The lengths of the laid out lines grow with those of the lines. -/
theorem length_laidOut (ls : List Str) (offs : Nat) :
    (laidOut ls offs).length = (ls.map fun l => offs + 3 + l.length).sum + offs + 1 := by
  have hlines : (ls.flatMap fun l => blanks (offs + 2) ++ l ++ ['\n']).length =
      (ls.map fun l => offs + 3 + l.length).sum := by
    induction ls with
    | nil => rfl
    | cons l ls ih =>
        rw [List.flatMap_cons, List.length_append, ih, List.map_cons, List.sum_cons]
        simp only [List.length_append, blanks, List.length_replicate, List.length_singleton]
        omega
  rw [laidOut, List.length_cons, List.length_append, hlines, blanks, List.length_replicate]

/-- Lines without their carriage returns are laid out alike only where there are none. -/
theorem laidOut_dropCr_iff (ls : List Str) (offs : Nat) :
    laidOut (ls.map dropCr) offs = laidOut ls offs ↔ ∀ l ∈ ls, l.getLast? ≠ some '\r' := by
  constructor
  · intro h l hl hlast
    have hle : ∀ k ∈ ls, offs + 3 + (dropCr k).length ≤ offs + 3 + k.length := fun k _ =>
      Nat.add_le_add_left (dropCr_length_le k) _
    have hlt : offs + 3 + (dropCr l).length < offs + 3 + l.length :=
      Nat.add_lt_add_left (dropCr_length_lt hlast) _
    have hsum := List.sum_lt_sum (fun k => offs + 3 + (dropCr k).length)
      (fun k => offs + 3 + k.length) hle ⟨l, hl, hlt⟩
    have hlen := congrArg List.length h
    rw [length_laidOut, length_laidOut, List.map_map] at hlen
    change (ls.map fun k => offs + 3 + (dropCr k).length).sum + offs + 1 = _ at hlen
    omega
  · intro h
    have hmap : ls.map dropCr = ls := by
      conv => rhs; rw [← List.map_id ls]
      apply List.map_congr_left
      intro l hl
      exact if_neg (h l hl)
    rw [hmap]

theorem constValue_withLines_iff (q : GsqlQ) (ls : List Str) (offs : Nat) (t : Str) :
    constValue (genConstSql (q.withLines ls) offs) = some t ↔
      (∀ l ∈ ls, ¬ terminator rawDelimiter <:+: l) ∧ t = embedded ls offs :=
  constValue_eq_some_iff (q.withLines ls) offs t

theorem ofElement_lines {sql : Str} (hnull : '\x00' ∉ sql) (q : GsqlQ) (db : Rdbms) (prep : Str) :
    (q.ofElement db sql prep).sqlSet.sqlDscr.mlSql.lines =
      MultiLine.minimize (getlines '\n' sql) := by
  change MultiLine.minimize (getlines '\n' (View.ofStr sql).cStr) = _
  rw [MultiLine.cStr_ofStr hnull]

/-- The constant of a query holds the laid out lines of its text exactly when the text does not
contain the terminator and, for a compiler that joins the ends of lines, no line that is kept
ends with a carriage return. -/
theorem constSql_value_iff {sql : Str} (hsql : ∀ c ∈ sql, XmlChar c) {offs : Nat}
    (hoffs : offs + 2 < 256) (q : GsqlQ) (db : Rdbms) (prep : Str) (crlf : Bool) :
    constValue (sourceText crlf (genConstSql (q.ofElement db sql prep) offs)) =
        some (laidOut (MultiLine.minimize (getlines '\n' sql)) offs) ↔
      ¬ terminator rawDelimiter <:+: sql ∧
        (crlf = true →
          ∀ l ∈ MultiLine.minimize (getlines '\n' sql), l.getLast? ≠ some '\r') := by
  let ls := MultiLine.minimize (getlines '\n' sql)
  have hnull : '\x00' ∉ sql := by
    intro h
    rcases hsql _ h with h | h | h | h
    · cases h
    · cases h
    · cases h
    · exact absurd h (by decide)
  have hlines := ofElement_lines hnull q db prep
  have hterm : (∀ l ∈ ls, ¬ terminator rawDelimiter <:+: l) ↔
      ¬ terminator rawDelimiter <:+: sql := by
    rw [noTerminator_minimize_iff, infix_iff_getlines (by decide : '\n' ∉ _) (by decide) sql]
    simp only [not_exists, not_and]
  cases crlf with
  | false =>
      change constValue (genConstSql (q.ofElement db sql prep) offs) = some (laidOut ls offs) ↔ _
      rw [constValue_eq_some_iff, hlines, embedded_eq_laidOut _ hoffs, hterm]
      exact ⟨fun h => ⟨h.1, nofun⟩, fun h => ⟨h.1, rfl⟩⟩
  | true =>
      have hbreak : ∀ l ∈ (q.ofElement db sql prep).sqlSet.sqlDscr.mlSql.lines, '\n' ∉ l :=
        fun l hl => newline_notMem_toVec hl
      have hterm' : (∀ l ∈ ls.map dropCr, ¬ terminator rawDelimiter <:+: l) ↔
          ¬ terminator rawDelimiter <:+: sql := by
        rw [List.forall_mem_map, ← hterm]
        simp only [terminator_infix_dropCr]
      change constValue (joinEols (genConstSql (q.ofElement db sql prep) offs)) =
        some (laidOut ls offs) ↔ _
      rw [joinEols_genConstSql hbreak, hlines, constValue_withLines_iff, hterm',
        embedded_eq_laidOut _ hoffs, eq_comm (a := laidOut ls offs), laidOut_dropCr_iff]
      simp

/-- A text on two lines. -/
theorem constSql_value_two_lines :
    constValue (sourceText true (genConstSql
        (GsqlQ.ofElement { sqlSet := { dbType := .db2 } } .sql "select 1\n  from t" "") 4)) =
      some (laidOut (MultiLine.minimize (getlines '\n' "select 1\n  from t")) 4) ↔
    ¬ terminator rawDelimiter <:+: "select 1\n  from t".toList ∧
      (true = true → ∀ l ∈ MultiLine.minimize (getlines '\n' "select 1\n  from t"),
        l.getLast? ≠ some '\r') :=
  constSql_value_iff (forall_mem_of_all rfl) (by decide) _ _ _ _

/-- A text with the terminator in a comment ends the literal and goes on as code. -/
theorem constSql_value_ended :
    let sql : Str := "select 1 -- )k0a1f2k3a4\"; int leaked;".toList
    let q := GsqlQ.ofElement { sqlSet := { dbType := .db2 } } .sql sql ""
    (∀ c ∈ sql, XmlChar c) ∧
      literal rawDelimiter (genConstSql q 4) =
        some ("\n      select 1 -- ".toList, "; int leaked;\n    )k0a1f2k3a4\";\n".toList) ∧
      ∀ crlf, constValue (sourceText crlf (genConstSql q 4)) ≠
        some (laidOut (MultiLine.minimize (getlines '\n' sql)) 4) :=
  ⟨forall_mem_of_all rfl, by decide, by decide⟩

end Dbgen3.Generator
