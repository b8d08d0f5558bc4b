import Dbgen3.Lib.Text

/-!
# Raw string literals

A raw string literal ends at the first occurrence of its terminator. Searching
for a pattern that has no line break goes line by line.
-/

namespace RawString

/-- The text before the first occurrence of `pat` and the text after it. -/
def cutAt (pat : Str) : Str → Option (Str × Str)
  | [] => if pat = [] then some ([], []) else none
  | c :: cs =>
      if pat.isPrefixOf (c :: cs) then some ([], (c :: cs).drop pat.length)
      else (cutAt pat cs).map fun p => (c :: p.1, p.2)

/-- How a raw string literal with delimiter `delim` starts. -/
def opening (delim : Str) : Str := 'R' :: '"' :: (delim ++ ['('])

/-- How a raw string literal with delimiter `delim` ends. -/
def terminator (delim : Str) : Str := ')' :: (delim ++ ['"'])

/-- The contents of the first raw string literal of a text, and the text after it. -/
def literal (delim s : Str) : Option (Str × Str) :=
  (cutAt (opening delim) s).bind fun p => cutAt (terminator delim) p.2

/-! ## Searching -/

section Search

variable {pat : Str}

theorem cutAt_eq_none_iff (hp : pat ≠ []) (s : Str) : cutAt pat s = none ↔ ¬ pat <:+: s := by
  induction s with
  | nil =>
      rw [cutAt, if_neg hp, List.infix_nil]
      simp [hp]
  | cons c s ih =>
      rw [cutAt, List.infix_cons_iff]
      by_cases h : pat.isPrefixOf (c :: s) = true
      · rw [if_pos h]
        have hpre : pat <+: c :: s := List.isPrefixOf_iff_prefix.mp h
        simp [hpre]
      · rw [if_neg h, Option.map_eq_none_iff, ih]
        have hpre : ¬ pat <+: c :: s := fun hc => h (List.isPrefixOf_iff_prefix.mpr hc)
        simp [hpre]

/-- The search takes the text apart. -/
theorem eq_of_cutAt {s x y : Str} (h : cutAt pat s = some (x, y)) : s = x ++ (pat ++ y) := by
  induction s generalizing x with
  | nil =>
      rw [cutAt] at h
      split at h
      · next hp =>
          obtain ⟨rfl, rfl⟩ := Prod.mk.inj (Option.some.inj h)
          rw [hp]
          rfl
      · cases h
  | cons c s ih =>
      rw [cutAt] at h
      split at h
      · next hpre =>
          obtain ⟨rfl, rfl⟩ := Prod.mk.inj (Option.some.inj h)
          exact (List.prefix_iff_eq_append.mp (List.isPrefixOf_iff_prefix.mp hpre)).symm
      · obtain ⟨⟨x', y'⟩, hcut, heq⟩ := Option.map_eq_some_iff.mp h
        obtain ⟨rfl, rfl⟩ := Prod.mk.inj heq
        rw [ih hcut]
        rfl

/-- The search succeeds where the pattern stands. -/
theorem cutAt_self (pat s : Str) : cutAt pat (pat ++ s) = some ([], s) := by
  cases h : pat ++ s with
  | nil =>
      obtain ⟨rfl, rfl⟩ := List.append_eq_nil_iff.mp h
      rfl
  | cons c cs =>
      have hpre : pat.isPrefixOf (c :: cs) = true :=
        List.isPrefixOf_iff_prefix.mpr ⟨s, h⟩
      rw [cutAt, if_pos hpre, ← h, List.drop_left]

/-- Text without the first character of the pattern is skipped. -/
theorem cutAt_skip {p : Char} {ps a : Str} (ha : p ∉ a) (s : Str) :
    cutAt (p :: ps) (a ++ s) = (cutAt (p :: ps) s).map fun r => (a ++ r.1, r.2) := by
  induction a with
  | nil => simp
  | cons c a ih =>
      rw [List.mem_cons, not_or] at ha
      have hpre : ¬ (p :: ps).isPrefixOf (c :: (a ++ s)) = true := by
        simp [List.isPrefixOf, ha.1]
      rw [List.cons_append, cutAt, if_neg hpre, ih ha.2, Option.map_map]
      rfl

/-- A line without the pattern is skipped together with its end, which no
occurrence of the pattern contains. -/
theorem cutAt_skip_line {n : Char} (hn : n ∉ pat) {a : Str} (ha : ¬ pat <:+: a) (s : Str) :
    cutAt pat (a ++ n :: s) = (cutAt pat s).map fun r => (a ++ n :: r.1, r.2) := by
  have hnil : pat ≠ [] := by
    rintro rfl
    exact ha List.nil_infix
  have hfront : ∀ t, pat <+: t ++ n :: s → pat <+: t := by
    intro t ht
    obtain h | h := List.prefix_or_prefix_of_prefix ht (List.prefix_append t _)
    · exact h
    · obtain ⟨r, rfl⟩ := h
      have hr : r <+: n :: s := (List.prefix_append_right_inj t).mp ht
      cases r with
      | nil => simp
      | cons d r =>
          obtain ⟨rfl, -⟩ := List.cons_prefix_cons.mp hr
          simp at hn
  induction a with
  | nil =>
      have hpre : ¬ pat.isPrefixOf (n :: s) = true := by
        intro h
        exact hnil (List.prefix_nil.mp (hfront [] (List.isPrefixOf_iff_prefix.mp h)))
      rw [List.nil_append, cutAt, if_neg hpre]
      rfl
  | cons c a ih =>
      have hpre : ¬ pat.isPrefixOf (c :: (a ++ n :: s)) = true := by
        intro h
        exact ha (hfront (c :: a) (List.isPrefixOf_iff_prefix.mp h)).isInfix
      have htail : ¬ pat <:+: a := fun h => ha (List.infix_cons h)
      rw [List.cons_append, cutAt, if_neg hpre, ih htail, Option.map_map]
      rfl

/-- An occurrence inside a prefix is found there. -/
theorem cutAt_append_of_infix {a : Str} (ha : pat <:+: a) (s : Str) :
    ∃ x y, cutAt pat (a ++ s) = some (x, y) ∧ x.length + pat.length ≤ a.length := by
  induction a with
  | nil =>
      obtain rfl := List.infix_nil.mp ha
      exact ⟨[], s, cutAt_self [] s, Nat.le_refl _⟩
  | cons c a ih =>
      by_cases hpre : pat <+: c :: a
      · have hall : pat.isPrefixOf (c :: (a ++ s)) = true :=
          List.isPrefixOf_iff_prefix.mpr (hpre.trans (List.prefix_append (c :: a) s))
        refine ⟨[], (c :: (a ++ s)).drop pat.length, ?_, by simpa using hpre.length_le⟩
        rw [List.cons_append, cutAt, if_pos hall]
      · have htail : pat <:+: a := (List.infix_cons_iff.mp ha).resolve_left hpre
        by_cases hall : pat.isPrefixOf (c :: (a ++ s)) = true
        · refine ⟨[], (c :: (a ++ s)).drop pat.length, ?_, ?_⟩
          · rw [List.cons_append, cutAt, if_pos hall]
          · have := htail.length_le
            simp only [List.length_nil, List.length_cons]
            omega
        · obtain ⟨x, y, hxy, hlen⟩ := ih htail
          refine ⟨c :: x, y, ?_, ?_⟩
          · rw [List.cons_append, cutAt, if_neg hall, hxy]
            rfl
          · simp only [List.length_cons]
            omega

end Search

/-! ## A literal made of lines -/

section Lines

variable {delim : Str} (frame : Str → Str) {first post tail : Str}

/-- The literal that starts after a text without an `R`. -/
theorem literal_append {pre : Str} (hpre : 'R' ∉ pre) (s : Str) :
    literal delim (pre ++ (opening delim ++ s)) = cutAt (terminator delim) s := by
  have hskip : cutAt (opening delim) (pre ++ (opening delim ++ s)) =
      (cutAt (opening delim) (opening delim ++ s)).map fun r => (pre ++ r.1, r.2) :=
    cutAt_skip hpre _
  rw [literal, hskip, cutAt_self]
  rfl

private theorem cutAt_lines_aux {n : Char} (hn : n ∉ terminator delim) (hpost : ')' ∉ post)
    (lines : List Str) :
    cutAt (terminator delim)
        (lines.flatMap (fun l => frame l ++ [n]) ++ (post ++ (terminator delim ++ tail))) =
      some (lines.flatMap (fun l => frame l ++ [n]) ++ post, tail) ↔
    ∀ l ∈ lines, ¬ terminator delim <:+: frame l := by
  have hend : cutAt (terminator delim) (post ++ (terminator delim ++ tail)) = some (post, tail) := by
    have hskip : cutAt (terminator delim) (post ++ (terminator delim ++ tail)) =
        (cutAt (terminator delim) (terminator delim ++ tail)).map fun r => (post ++ r.1, r.2) :=
      cutAt_skip hpost _
    rw [hskip, cutAt_self]
    simp
  induction lines with
  | nil => simpa using hend
  | cons l lines ih =>
      rw [List.flatMap_cons, List.forall_mem_cons]
      simp only [List.append_assoc, List.cons_append, List.nil_append]
      by_cases hl : terminator delim <:+: frame l
      · obtain ⟨x, y, hxy, hlen⟩ := cutAt_append_of_infix hl
          (n :: (lines.flatMap (fun l => frame l ++ [n]) ++ (post ++ (terminator delim ++ tail))))
        have hshort : x.length < (frame l).length := by
          simp only [terminator, List.length_cons] at hlen
          omega
        constructor
        · intro h
          rw [hxy, Option.some.injEq, Prod.mk.injEq] at h
          have := congrArg List.length h.1
          simp only [List.length_append, List.length_cons] at this
          omega
        · rintro ⟨h, -⟩
          exact absurd hl h
      · refine Iff.trans ?_ (ih.trans (and_iff_right hl).symm)
        rw [cutAt_skip_line hn hl]
        cases hc : cutAt (terminator delim)
            (lines.flatMap (fun l => frame l ++ [n]) ++ (post ++ (terminator delim ++ tail))) with
        | none => simp
        | some r =>
            obtain ⟨x, y⟩ := r
            simp

/-- Contents made of whole lines between two pieces without a parenthesis end at the
terminator after them exactly when no line has the terminator inside. -/
theorem cutAt_lines_iff {n : Char} (hn : n ∉ terminator delim) (hfirst : ')' ∉ first)
    (hpost : ')' ∉ post) (lines : List Str) :
    cutAt (terminator delim)
        (first ++ (lines.flatMap (fun l => frame l ++ [n]) ++ post) ++ (terminator delim ++ tail)) =
      some (first ++ (lines.flatMap (fun l => frame l ++ [n]) ++ post), tail) ↔
    ∀ l ∈ lines, ¬ terminator delim <:+: frame l := by
  have hskip : ∀ s, cutAt (terminator delim) (first ++ s) =
      (cutAt (terminator delim) s).map fun r => (first ++ r.1, r.2) := fun s => cutAt_skip hfirst s
  rw [← cutAt_lines_aux frame hn hpost lines, List.append_assoc, List.append_assoc, hskip]
  cases hc : cutAt (terminator delim)
      (lines.flatMap (fun l => frame l ++ [n]) ++ (post ++ (terminator delim ++ tail))) with
  | none => simp
  | some r =>
      obtain ⟨x, y⟩ := r
      simp

end Lines

end RawString
