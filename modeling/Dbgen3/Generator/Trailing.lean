import Dbgen3.Generator.Minimal

/-!
# Trailing blanks of a text

`multi_line::to_vec` trims a view on the right before it splits it, and `split`
builds its stream from the pointer of the view. The blanks are therefore still
there, and what they do to the lines is decided by the first of them.
-/

namespace Dbgen3.Generator

namespace MultiLine

/-! ## Texts that end a line -/

/-- The text is empty or ends with a delimiter. -/
def Complete (delim : Char) (p : Str) : Prop := p = [] ∨ ∃ p', p = p' ++ [delim]

theorem getlines_ne_nil (delim : Char) {t : Str} (h : t ≠ []) : getlines delim t ≠ [] := by
  cases t with
  | nil => exact absurd rfl h
  | cons c t =>
      rw [getlines]
      split
      · exact List.cons_ne_nil _ _
      · split
        · exact List.cons_ne_nil _ _
        · exact List.cons_ne_nil _ _

theorem getlines_append_delim (delim : Char) (p x : Str) :
    getlines delim (p ++ delim :: x) = getlines delim (p ++ [delim]) ++ getlines delim x := by
  induction p with
  | nil =>
      rw [List.nil_append, List.nil_append, getlines, if_pos rfl, getlines, if_pos rfl]
      rfl
  | cons c p ih =>
      have hne : p ++ [delim] ≠ [] := List.append_ne_nil_of_right_ne_nil p (List.cons_ne_nil _ _)
      rw [List.cons_append, List.cons_append, getlines, getlines, ih]
      split
      · rfl
      · cases h : getlines delim (p ++ [delim]) with
        | nil => exact absurd h (getlines_ne_nil delim hne)
        | cons item items => rfl

theorem getlines_append_complete {delim : Char} {p : Str} (h : Complete delim p) (x : Str) :
    getlines delim (p ++ x) = getlines delim p ++ getlines delim x := by
  obtain rfl | ⟨p', rfl⟩ := h
  · rfl
  · rw [List.append_assoc, List.singleton_append, getlines_append_delim]

/-- A text that ends in its last line. -/
theorem getlines_last {delim : Char} {p l : Str} (h : Complete delim p) (hne : l ≠ [])
    (hl : delim ∉ l) : getlines delim (p ++ l) = getlines delim p ++ [l] := by
  rw [getlines_append_complete h, getlines_of_notMem hne hl]

theorem getlines_last_delim {delim : Char} {p l : Str} (h : Complete delim p)
    (hl : delim ∉ l) (r : Str) :
    getlines delim (p ++ (l ++ delim :: r)) =
      getlines delim p ++ [l] ++ getlines delim r := by
  rw [getlines_append_complete h, getlines_append hl, List.append_assoc, List.singleton_append]

/-! ## Blank lines at the end -/

theorem block_append_blank {o ws : List Str} (h : ¬ ∀ l ∈ o, isWhitespaceLine l = true)
    (hws : ∀ l ∈ ws, isWhitespaceLine l = true) : block (o ++ ws) = block o := by
  have hdrop : (o ++ ws).dropWhile isWhitespaceLine = o.dropWhile isWhitespaceLine ++ ws := by
    rw [List.dropWhile_append, if_neg]
    intro hempty
    exact dropWhile_ne_nil h (List.isEmpty_iff.mp hempty)
  have hrev : ∀ l ∈ ws.reverse, isWhitespaceLine l = true := by
    intro l hl
    exact hws l (List.mem_reverse.mp hl)
  rw [block, hdrop, block, List.rdropWhile, List.reverse_append,
    List.dropWhile_append_of_pos hrev, List.rdropWhile]

/-- Blank lines at the end are not in the minimal form. -/
theorem minimize_append_blank {o ws : List Str}
    (hws : ∀ l ∈ ws, isWhitespaceLine l = true) : minimize (o ++ ws) = minimize o := by
  by_cases h : ∀ l ∈ o, isWhitespaceLine l = true
  · have hall : ∀ l ∈ o ++ ws, isWhitespaceLine l = true := by
      intro l hl
      exact (List.mem_append.mp hl).elim (h l) (hws l)
    rw [(minimize_eq_nil_iff _).mpr hall, (minimize_eq_nil_iff _).mpr h]
  · have hall : ¬ ∀ l ∈ o ++ ws, isWhitespaceLine l = true := by
      intro hall
      exact h fun l hl => hall l (List.mem_append_left ws hl)
    rw [minimize_of_not_blank hall, minimize_of_not_blank h, indent, indent,
      block_append_blank h hws]

theorem blank_getlines {t : Str} (h : ∀ c ∈ t, isspace c = true) :
    ∀ l ∈ getlines '\n' t, isWhitespaceLine l = true := by
  intro l hl
  apply List.all_eq_true.mpr
  exact (forall_getlines t).mpr (fun c hc _ => h c hc) l hl

/-- The last line of the minimal form ends like the last line of the text. -/
theorem getLast?_minimize {o : List Str} {k : Str} (hk : isWhitespaceLine k = false) :
    ∃ l, (minimize (o ++ [k])).getLast? = some l ∧ l.getLast? = k.getLast? := by
  have h : ¬ ∀ l ∈ o ++ [k], isWhitespaceLine l = true := by
    intro hall
    rw [hall k (List.mem_append_right o (List.mem_singleton_self k))] at hk
    cases hk
  have hblock : ∃ b, block (o ++ [k]) = b ++ [k] := by
    have hdrop : ∃ b, (o ++ [k]).dropWhile isWhitespaceLine = b ++ [k] := by
      rw [List.dropWhile_append]
      split
      · exact ⟨[], List.dropWhile_cons_of_neg (by rw [hk]; exact Bool.false_ne_true)⟩
      · exact ⟨_, rfl⟩
    obtain ⟨b, hb⟩ := hdrop
    refine ⟨b, ?_⟩
    rw [block, hb]
    exact List.rdropWhile_concat_neg _ _ _ (by rw [hk]; exact Bool.false_ne_true)
  obtain ⟨b, hb⟩ := hblock
  have hle : indent (o ++ [k]) ≤ leadingBlanks k := by
    apply (isLeast_indent h).2
    exact ⟨k, hb ▸ List.mem_append_right b (List.mem_singleton_self k), hk, rfl⟩
  have hlt := leadingBlanks_lt hk
  refine ⟨k.drop (indent (o ++ [k])), ?_, ?_⟩
  · rw [minimize_of_not_blank h, ← shift_of_le hle]
    conv => lhs; arg 1; arg 2; rw [hb]
    rw [List.map_append, List.map_singleton, List.getLast?_concat]
  · rw [List.getLast?_drop, if_neg (by omega)]

/-! ## The end of a text -/

/-- A text cut at its end: complete lines, the last line that is not blank with its last
character `c` and the blanks `q` behind it, and the blanks from the line break on. -/
structure Cut (s : Str) where
  lines : Str
  line : Str
  c : Char
  q : Str
  rest : Str
  eq : s = lines ++ (line ++ c :: q) ++ rest
  complete : Complete '\n' lines
  noBreak : '\n' ∉ line ++ c :: q
  notBlank : isspace c = false
  blanks : ∀ x ∈ q ++ rest, isspace x = true
  atBreak : rest = [] ∨ ∃ r, rest = '\n' :: r

theorem complete_rdropWhile (t : Str) : Complete '\n' (t.rdropWhile (· ≠ '\n')) := by
  by_cases h : t.rdropWhile (· ≠ '\n') = []
  · exact Or.inl h
  · right
    have hlast := List.rdropWhile_last_not (· ≠ '\n') t h
    refine ⟨(t.rdropWhile (· ≠ '\n')).dropLast, ?_⟩
    conv => lhs; rw [← List.dropLast_concat_getLast h]
    congr 2
    simpa using hlast

/-- A text that is not blank can be cut. -/
theorem exists_cut {s : Str} (h : ¬ ∀ c ∈ s, isspace c = true) : Nonempty (Cut s) := by
  have hne : s.rdropWhile isspace ≠ [] := fun hnil => h (List.rdropWhile_eq_nil_iff.mp hnil)
  let t := (s.rdropWhile isspace).dropLast
  let c := (s.rdropWhile isspace).getLast hne
  let tail := s.rtakeWhile isspace
  have hc : isspace c = false :=
    Bool.eq_false_iff.mpr (List.rdropWhile_last_not isspace s hne)
  have hs : s = t ++ [c] ++ tail := by
    rw [List.dropLast_concat_getLast hne, List.rdropWhile_append_rtakeWhile]
  have hline : ∀ x ∈ t.rtakeWhile (· ≠ '\n'), x ≠ '\n' := by
    intro x hx
    simpa using List.mem_rtakeWhile_imp hx
  have hq : ∀ x ∈ tail.takeWhile (· ≠ '\n'), x ≠ '\n' := by
    intro x hx
    simpa using List.mem_takeWhile_imp hx
  refine ⟨⟨t.rdropWhile (· ≠ '\n'), t.rtakeWhile (· ≠ '\n'), c, tail.takeWhile (· ≠ '\n'),
    tail.dropWhile (· ≠ '\n'), ?_, complete_rdropWhile t, ?_, hc, ?_, ?_⟩⟩
  · calc s = t ++ [c] ++ tail := hs
      _ = t.rdropWhile (· ≠ '\n') ++ t.rtakeWhile (· ≠ '\n') ++ [c] ++
          (tail.takeWhile (· ≠ '\n') ++ tail.dropWhile (· ≠ '\n')) := by
        rw [List.rdropWhile_append_rtakeWhile, List.takeWhile_append_dropWhile]
      _ = _ := by simp only [List.append_assoc, List.cons_append, List.nil_append]
  · rw [List.mem_append, List.mem_cons, not_or, not_or]
    refine ⟨fun hx => hline _ hx rfl, ?_, fun hx => hq _ hx rfl⟩
    rintro hbreak
    rw [← hbreak] at hc
    cases hc
  · rw [List.takeWhile_append_dropWhile]
    intro x hx
    exact List.mem_rtakeWhile_imp hx
  · cases hrest : tail.dropWhile (· ≠ '\n') with
    | nil => exact Or.inl rfl
    | cons x r =>
        right
        have hhead := List.head?_dropWhile_not (· ≠ '\n') tail
        rw [hrest] at hhead
        have hx : x = '\n' := by simpa using hhead
        exact ⟨r, by rw [hx]⟩

namespace Cut

variable {s : Str} (k : Cut s)

theorem isWhitespaceLine_line (q : Str) : isWhitespaceLine (k.line ++ k.c :: q) = false := by
  rw [isWhitespaceLine, List.all_append, List.all_cons, k.notBlank, Bool.false_and,
    Bool.and_false]

/-- The blanks at the end of the text are the two parts of the cut. -/
theorem rtakeWhile_eq : s.rtakeWhile isspace = k.q ++ k.rest := by
  have hs : s = (k.lines ++ k.line) ++ [k.c] ++ (k.q ++ k.rest) := by
    conv => lhs; rw [k.eq]
    simp only [List.append_assoc, List.cons_append, List.nil_append]
  have hrev : ∀ x ∈ (k.q ++ k.rest).reverse, isspace x = true := by
    intro x hx
    exact k.blanks x (List.mem_reverse.mp hx)
  conv => lhs; rw [hs]
  rw [List.rtakeWhile, List.reverse_append, List.takeWhile_append_of_pos hrev,
    List.reverse_concat, List.takeWhile_cons_of_neg (by rw [k.notBlank]; exact Bool.false_ne_true),
    List.append_nil, List.reverse_reverse]

theorem rdropWhile_eq : s.rdropWhile isspace = k.lines ++ (k.line ++ [k.c]) := by
  have h := List.rdropWhile_append_rtakeWhile (p := isspace) (l := s)
  rw [k.rtakeWhile_eq] at h
  refine @List.append_cancel_right _ _ (k.q ++ k.rest) _ ?_
  rw [h]
  conv => lhs; rw [k.eq]
  simp only [List.append_assoc, List.cons_append, List.nil_append]

/-- The lines of the text in minimal form, with other blanks at the end of the last one. -/
def linesWith (q : Str) : List Str := minimize (getlines '\n' k.lines ++ [k.line ++ k.c :: q])

/-- The blanks from the line break on do not matter. -/
theorem minimize_getlines {q rest : Str} (hq : '\n' ∉ q) (hrest : ∀ x ∈ rest, isspace x = true)
    (hbreak : rest = [] ∨ ∃ r, rest = '\n' :: r) :
    minimize (getlines '\n' (k.lines ++ (k.line ++ k.c :: q) ++ rest)) = k.linesWith q := by
  have hn : '\n' ∉ k.line ++ k.c :: q := by
    have h := k.noBreak
    simp only [List.mem_append, List.mem_cons, not_or] at h ⊢
    exact ⟨h.1, h.2.1, hq⟩
  obtain rfl | ⟨r, rfl⟩ := hbreak
  · have hne : k.line ++ k.c :: q ≠ [] :=
      List.append_ne_nil_of_right_ne_nil _ (List.cons_ne_nil _ _)
    rw [List.append_nil, getlines_last k.complete hne hn, linesWith]
  · rw [List.append_assoc, List.append_assoc, ← List.append_assoc k.line,
      getlines_last_delim k.complete hn,
      minimize_append_blank (blank_getlines fun x hx => hrest x (List.mem_cons_of_mem _ hx)),
      linesWith]

/-- The last line ends with the blanks behind its last character. -/
theorem getLast?_linesWith (q : Str) :
    ∃ l, (k.linesWith q).getLast? = some l ∧ l.getLast? = (k.c :: q).getLast? := by
  obtain ⟨l, hl, hlast⟩ :=
    getLast?_minimize (o := getlines '\n' k.lines) (k.isWhitespaceLine_line q)
  refine ⟨l, hl, hlast.trans ?_⟩
  rw [List.getLast?_append_of_ne_nil _ (List.cons_ne_nil _ _)]

end Cut

/-! ## Trimming and splitting -/

theorem rtrim_ofStr (s : Str) : (rtrim (View.ofStr s)).toStr = s.rdropWhile isspace := by
  have h := List.rdropWhile_append_rtakeWhile (p := isspace) (l := s)
  have hlen : (s.reverse.dropWhile isspace).length = (s.rdropWhile isspace).length := by
    rw [List.rdropWhile, List.length_reverse]
  change s.take ((View.ofStr s).toStr.reverse.dropWhile isspace).length = _
  rw [View.toStr_ofStr, hlen]
  conv => lhs; arg 2; rw [← h]
  exact List.take_left

theorem toVec_ofStr {s : Str} (h : '\x00' ∉ s) :
    toVec (View.ofStr s) = minimize (getlines '\n' s) := by
  change minimize (getlines '\n' (View.ofStr s).cStr) = _
  rw [cStr_ofStr h]

/-- Blanks at the end of a text are not in its lines. -/
structure TrimsFirst (s : Str) : Prop where
  lines : toVec (View.ofStr s) = minimize (getlines '\n' (rtrim (View.ofStr s)).toStr)
  suffix : ∀ w : Str, (∀ c ∈ w, isspace c = true) →
    toVec (View.ofStr s) = toVec (View.ofStr (s ++ w))
  last : ∀ l, (toVec (View.ofStr s)).getLast? = some l →
    ∀ c, l.getLast? = some c → isspace c = false

theorem trimsFirst_of_blank {s : Str} (h : ∀ c ∈ s, isspace c = true) : TrimsFirst s := by
  have hnil : ∀ w : Str, (∀ c ∈ w, isspace c = true) → toVec (View.ofStr (s ++ w)) = [] := by
    intro w hw
    have hall : ∀ c ∈ s ++ w, isspace c = true := by
      intro c hc
      exact (List.mem_append.mp hc).elim (h c) (hw c)
    have hnull' : '\x00' ∉ s ++ w := by
      intro hmem
      have := hall _ hmem
      cases this
    rw [toVec_ofStr hnull', (minimize_eq_nil_iff _).mpr (blank_getlines hall)]
  have hs : toVec (View.ofStr s) = [] := by
    have := hnil [] (by simp)
    rwa [List.append_nil] at this
  constructor
  · rw [hs, rtrim_ofStr, List.rdropWhile_eq_nil_iff.mpr h]
    rfl
  · intro w hw
    rw [hs, hnil w hw]
  · intro l hl
    rw [hs] at hl
    cases hl

section

variable {s : Str} (hnull : '\x00' ∉ s) (k : Cut s)

include hnull

/-- The lines of the text with more blanks behind it. -/
theorem toVec_append {q rest w : Str} (hs : s ++ w = k.lines ++ (k.line ++ k.c :: q) ++ rest)
    (hw : ∀ c ∈ w, isspace c = true) (hq : '\n' ∉ q) (hrest : ∀ x ∈ rest, isspace x = true)
    (hbreak : rest = [] ∨ ∃ r, rest = '\n' :: r) :
    toVec (View.ofStr (s ++ w)) = k.linesWith q := by
  have hnull' : '\x00' ∉ s ++ w := by
    intro hmem
    rcases List.mem_append.mp hmem with hmem | hmem
    · exact hnull hmem
    · have := hw _ hmem
      cases this
  rw [toVec_ofStr hnull', hs, k.minimize_getlines hq hrest hbreak]

theorem toVec_cut : toVec (View.ofStr s) = k.linesWith k.q := by
  have h := k.noBreak
  simp only [List.mem_append, List.mem_cons, not_or] at h
  have := @toVec_append s hnull k k.q k.rest []
    (by rw [List.append_nil]; exact k.eq) (by simp) h.2.2
    (fun x hx => k.blanks x (List.mem_append_right _ hx)) k.atBreak
  rwa [List.append_nil] at this

/-- A line break right behind the last character hides all blanks behind it. -/
theorem trimsFirst_of_break {r : Str} (hq : k.q = []) (hrest : k.rest = '\n' :: r) :
    TrimsFirst s := by
  have hs : toVec (View.ofStr s) = k.linesWith [] := by rw [toVec_cut hnull k, hq]
  constructor
  · have hnone := @Cut.minimize_getlines s k [] [] (by simp) (by simp) (Or.inl rfl)
    rw [List.append_nil] at hnone
    rw [hs, rtrim_ofStr, k.rdropWhile_eq, hnone]
  · intro w hw
    rw [hs]
    symm
    apply @toVec_append s hnull k [] (k.rest ++ w) w ?_ hw (by simp)
    · intro x hx
      rcases List.mem_append.mp hx with hx | hx
      · exact k.blanks x (List.mem_append_right _ hx)
      · exact hw x hx
    · right
      rw [hrest]
      exact ⟨r ++ w, List.cons_append⟩
    · conv => lhs; rw [k.eq, hq]
      rw [List.append_assoc]
  · intro l hl c hc
    obtain ⟨l', hl', hlast⟩ := k.getLast?_linesWith []
    rw [hs, hl', Option.some.injEq] at hl
    subst hl
    rw [hlast, List.getLast?_singleton, Option.some.injEq] at hc
    rw [← hc]
    exact k.notBlank

/-- Blanks behind the last character stay at the end of the last line. -/
theorem not_trimsFirst_of_blanks (hq : k.q ≠ []) : ¬ TrimsFirst s := by
  intro h
  obtain ⟨l, hl, hlast⟩ := k.getLast?_linesWith k.q
  rw [← toVec_cut hnull k] at hl
  have hend : l.getLast? = some (k.q.getLast hq) := by
    rw [hlast, List.getLast?_cons_of_ne_nil hq, List.getLast?_eq_some_getLast hq]
  have hblank := k.blanks _ (List.mem_append_left k.rest (List.getLast_mem hq))
  rw [h.last l hl _ hend] at hblank
  cases hblank

/-- A text that ends with its last character is changed by a blank. -/
theorem not_trimsFirst_of_end (hq : k.q = []) (hrest : k.rest = []) : ¬ TrimsFirst s := by
  intro h
  have hs : toVec (View.ofStr s) = k.linesWith [] := by rw [toVec_cut hnull k, hq]
  have hmore : toVec (View.ofStr (s ++ [' '])) = k.linesWith [' '] := by
    apply @toVec_append s hnull k [' '] [] [' '] ?_ (by simp [isspace]) (by simp) (by simp)
      (Or.inl rfl)
    conv => lhs; rw [k.eq, hq, hrest]
    simp only [List.append_assoc, List.cons_append, List.nil_append, List.append_nil]
  have heq := h.suffix [' '] (by simp [isspace])
  obtain ⟨l, hl, hlast⟩ := k.getLast?_linesWith []
  obtain ⟨l', hl', hlast'⟩ := k.getLast?_linesWith [' ']
  rw [← hs, heq, hmore, hl', Option.some.injEq] at hl
  subst hl
  rw [hlast, List.getLast?_singleton, List.getLast?_cons_of_ne_nil (List.cons_ne_nil _ _),
    List.getLast?_singleton, Option.some.injEq] at hlast'
  have hblank := k.notBlank
  rw [hlast'] at hblank
  cases hblank

end

/-- Where the blanks at the end of a text start with a line break, or nothing stands before
them, they are not in its lines; elsewhere they are. -/
def EndsLine (s : Str) : Prop :=
  (∀ c ∈ s, isspace c = true) ∨ (s.rtakeWhile isspace).head? = some '\n'

theorem trimsFirst_iff {s : Str} (h : '\x00' ∉ s) : TrimsFirst s ↔ EndsLine s := by
  by_cases hblank : ∀ c ∈ s, isspace c = true
  · exact iff_of_true (trimsFirst_of_blank hblank) (Or.inl hblank)
  · obtain ⟨k⟩ := exists_cut hblank
    rw [EndsLine, or_iff_right hblank, k.rtakeWhile_eq]
    by_cases hq : k.q = []
    · rw [hq, List.nil_append]
      rcases k.atBreak with hrest | ⟨r, hrest⟩
      · rw [hrest]
        exact iff_of_false (not_trimsFirst_of_end h k hq hrest) nofun
      · rw [hrest]
        exact iff_of_true (trimsFirst_of_break h k hq hrest) rfl
    · apply iff_of_false (not_trimsFirst_of_blanks h k hq)
      intro hhead
      obtain ⟨x, q, hcons⟩ := List.exists_cons_of_ne_nil hq
      rw [hcons, List.cons_append, List.head?_cons, Option.some.injEq] at hhead
      apply k.noBreak
      rw [hcons, hhead]
      simp

/-- A text on one line. -/
theorem trimsFirst_line_iff : TrimsFirst "a\n" ↔ EndsLine "a\n" := trimsFirst_iff (by decide)

/-- A blank behind the only line of a text stays in it. -/
theorem toVec_blank_at_end :
    toVec (View.ofStr "a ") = ["a ".toList] ∧
      minimize (getlines '\n' (rtrim (View.ofStr "a ")).toStr) = ["a".toList] ∧
      ¬ TrimsFirst "a " := by
  refine ⟨by decide, by decide, ?_⟩
  intro h
  have hlines := h.lines
  revert hlines
  decide

end MultiLine

end Dbgen3.Generator
