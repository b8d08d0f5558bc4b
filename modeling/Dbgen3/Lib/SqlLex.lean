import Dbgen3.Lib.Text

/-!
# Tokens of an SQL text

The lexer keeps the characters of single and double quoted literals, takes a run
of blanks outside a literal as one separator and drops a comment that starts
with two dashes up to the end of its line. It is an automaton, so that texts
can be put together and taken apart at the places where the mode is known.
-/

namespace SqlLex

/-- Where the lexer is; `dash` is one dash of code whose successor decides. -/
inductive Mode
  | code | dash | single | double | comment
  deriving DecidableEq, Repr

/-- The characters that separate tokens. -/
def isBlank (c : Char) : Bool :=
  c == ' ' || c == '\t' || c == '\n' || c == '\x0b' || c == '\x0c' || c == '\r'

/-- One character of code other than a dash. A separator is `none`. -/
def codeStep (c : Char) : List (Option Char) × Mode :=
  if isBlank c then ([none], .code)
  else if c = '\'' then ([some c], .single)
  else if c = '"' then ([some c], .double)
  else ([some c], .code)

/-- One character: the output and the next mode. -/
def step : Mode → Char → List (Option Char) × Mode
  | .code, c => if c = '-' then ([], .dash) else codeStep c
  | .dash, c => if c = '-' then ([], .comment) else (some '-' :: (codeStep c).1, (codeStep c).2)
  | .single, c => ([some c], if c = '\'' then .code else .single)
  | .double, c => ([some c], if c = '"' then .code else .double)
  | .comment, c => if c = '\n' then ([none], .code) else ([], .comment)

/-- The output of a text started in a mode, and the mode at its end. -/
def scan : Mode → Str → List (Option Char) × Mode
  | m, [] => ([], m)
  | m, c :: cs => ((step m c).1 ++ (scan (step m c).2 cs).1, (scan (step m c).2 cs).2)

/-- What the end of the text still owes. -/
def finish : Mode → List (Option Char)
  | .dash => [some '-']
  | _ => []

/-- The output of a whole text. -/
def stream (s : Str) : List (Option Char) := (scan .code s).1 ++ finish (scan .code s).2

/-- The maximal runs between separators, the first of which already has `cur`. -/
def wordsFrom (cur : Str) : List (Option Char) → List Str
  | [] => if cur = [] then [] else [cur]
  | none :: rest => (if cur = [] then [] else [cur]) ++ wordsFrom [] rest
  | some c :: rest => wordsFrom (cur ++ [c]) rest

/-- The tokens of a text. -/
def tokens (s : Str) : List Str := wordsFrom [] (stream s)

/-- No literal is open at the end of the text. -/
def Closed (s : Str) : Prop := (scan .code s).2 ≠ .single ∧ (scan .code s).2 ≠ .double

/-- The text ends inside a comment. -/
def EndsInComment (s : Str) : Prop := (scan .code s).2 = .comment

instance (s : Str) : Decidable (Closed s) := inferInstanceAs (Decidable (_ ∧ _))

instance (s : Str) : Decidable (EndsInComment s) := inferInstanceAs (Decidable (_ = _))

/-! ## Words -/

theorem wordsFrom_append_none (cur : Str) (a b : List (Option Char)) :
    wordsFrom cur (a ++ none :: b) = wordsFrom cur a ++ wordsFrom [] b := by
  induction a generalizing cur with
  | nil => rfl
  | cons x a ih =>
      cases x with
      | none =>
          change _ ++ wordsFrom [] (a ++ none :: b) = (_ ++ wordsFrom [] a) ++ wordsFrom [] b
          rw [ih, List.append_assoc]
      | some c => exact ih (cur ++ [c])

/-- The characters of the words are the characters of the output. -/
theorem mem_flatten_wordsFrom (cur : Str) (os : List (Option Char)) (c : Char) :
    c ∈ (wordsFrom cur os).flatten ↔ c ∈ cur ∨ some c ∈ os := by
  have hflush : ∀ cur : Str, c ∈ (if cur = [] then [] else [cur] : List Str).flatten ↔ c ∈ cur := by
    intro cur
    split
    · next h => simp [h]
    · simp
  induction os generalizing cur with
  | nil =>
      rw [wordsFrom, hflush]
      simp
  | cons x os ih =>
      cases x with
      | none =>
          have htail := ih []
          rw [wordsFrom, List.flatten_append, List.mem_append, hflush]
          simpa using or_congr_right htail
      | some d =>
          have htail := ih (cur ++ [d])
          rw [wordsFrom]
          simpa [or_assoc] using htail

/-! ## Putting texts together -/

theorem scan_append (m : Mode) (s t : Str) :
    scan m (s ++ t) =
      ((scan m s).1 ++ (scan (scan m s).2 t).1, (scan (scan m s).2 t).2) := by
  induction s generalizing m with
  | nil => rfl
  | cons c s ih => simp only [List.cons_append, scan, ih, List.append_assoc]

@[simp] theorem tokens_nil : tokens [] = [] := rfl

theorem codeStep_blank {c : Char} (hc : isBlank c = true) : codeStep c = ([none], .code) := by
  rw [codeStep, if_pos hc]

theorem step_blank {m : Mode} {c : Char} (hm : m = .code ∨ m = .dash) (hc : isBlank c = true) :
    step m c = (finish m ++ [none], .code) := by
  have hne : c ≠ '-' := by
    rintro rfl
    cases hc
  rcases hm with rfl | rfl
  · rw [step, if_neg hne, codeStep_blank hc]
    rfl
  · rw [step, if_neg hne, codeStep_blank hc]
    rfl

theorem step_newline {m : Mode} (h₁ : m ≠ .single) (h₂ : m ≠ .double) :
    step m '\n' = (finish m ++ [none], .code) := by
  cases m with
  | code => rfl
  | dash => rfl
  | comment => rfl
  | single => exact absurd rfl h₁
  | double => exact absurd rfl h₂

theorem stream_append_of_step {s rest : Str} {c : Char}
    (h : step (scan .code s).2 c = (finish (scan .code s).2 ++ [none], .code)) :
    stream (s ++ c :: rest) = stream s ++ none :: stream rest := by
  unfold stream
  rw [scan_append]
  simp only [scan, h, List.append_assoc, List.cons_append, List.nil_append]

/-- A line that closes its literals is a token list of its own. -/
theorem tokens_append_newline {s : Str} (h : Closed s) (rest : Str) :
    tokens (s ++ '\n' :: rest) = tokens s ++ tokens rest := by
  unfold tokens
  rw [stream_append_of_step (step_newline h.1 h.2), wordsFrom_append_none]

/-- So is a text that closes its literals and does not end in a comment, before a blank. -/
theorem tokens_append_blank {s : Str} (h : Closed s) (hc : ¬ EndsInComment s) {c : Char}
    (hb : isBlank c = true) (rest : Str) : tokens (s ++ c :: rest) = tokens s ++ tokens rest := by
  have hm : (scan .code s).2 = .code ∨ (scan .code s).2 = .dash := by
    cases hs : (scan .code s).2 with
    | code => exact .inl rfl
    | dash => exact .inr rfl
    | single => exact absurd hs h.1
    | double => exact absurd hs h.2
    | comment => exact absurd hs hc
  unfold tokens
  rw [stream_append_of_step (step_blank hm hb), wordsFrom_append_none]

theorem scan_comment {t : Str} (ht : '\n' ∉ t) : scan .comment t = ([], .comment) := by
  induction t with
  | nil => rfl
  | cons c t ih =>
      rw [List.mem_cons, not_or] at ht
      rw [scan, step, if_neg (Ne.symm ht.1)]
      simp only [ih ht.2, List.append_nil]

/-- A comment swallows everything up to the end of its line. -/
theorem tokens_append_of_comment {s : Str} (h : EndsInComment s) {t : Str} (ht : '\n' ∉ t) :
    tokens (s ++ t) = tokens s := by
  unfold tokens stream
  rw [scan_append, show (scan .code s).2 = .comment from h, scan_comment ht, List.append_nil]

/-! ## Blanks around a line -/

theorem scan_cons_blank {c : Char} (hc : isBlank c = true) (s : Str) :
    scan .code (c :: s) = (none :: (scan .code s).1, (scan .code s).2) := by
  rw [scan, step_blank (.inl rfl) hc]
  rfl

theorem mode_blanks_append {bs : Str} (hb : ∀ c ∈ bs, isBlank c = true) (s : Str) :
    (scan .code (bs ++ s)).2 = (scan .code s).2 := by
  induction bs with
  | nil => rfl
  | cons c bs ih =>
      rw [List.cons_append, scan_cons_blank (hb c List.mem_cons_self)]
      exact ih fun d hd => hb d (List.mem_cons_of_mem _ hd)

/-- Leading blanks carry no token. -/
theorem tokens_blanks_append {bs : Str} (hb : ∀ c ∈ bs, isBlank c = true) (s : Str) :
    tokens (bs ++ s) = tokens s := by
  induction bs with
  | nil => rfl
  | cons c bs ih =>
      have hc := hb c List.mem_cons_self
      rw [← ih fun d hd => hb d (List.mem_cons_of_mem _ hd)]
      unfold tokens stream
      rw [List.cons_append, scan_cons_blank hc]
      rfl

theorem mode_append_blanks {bs : Str} (hb : ∀ c ∈ bs, isBlank c = true ∧ c ≠ '\n') (s : Str) :
    (Closed (s ++ bs) ↔ Closed s) ∧ (EndsInComment (s ++ bs) ↔ EndsInComment s) := by
  have hscan : ∀ m, (scan m bs).2 = m ∨ m = .dash ∧ (scan m bs).2 = .code := by
    intro m
    induction bs generalizing m with
    | nil => exact .inl rfl
    | cons c bs ih =>
        obtain ⟨hc, hn⟩ := hb c List.mem_cons_self
        have htail := ih fun d hd => hb d (List.mem_cons_of_mem _ hd)
        have hq : c ≠ '\'' ∧ c ≠ '"' := by
          constructor <;> (rintro rfl; cases hc)
        cases m with
        | code =>
            rw [scan, step_blank (.inl rfl) hc]
            exact htail .code
        | dash =>
            rw [scan, step_blank (.inr rfl) hc]
            rcases htail .code with h | ⟨h, -⟩
            · exact .inr ⟨rfl, h⟩
            · cases h
        | single =>
            rw [scan, step, if_neg hq.1]
            exact htail .single
        | double =>
            rw [scan, step, if_neg hq.2]
            exact htail .double
        | comment =>
            rw [scan, step, if_neg hn]
            exact htail .comment
  unfold Closed EndsInComment
  rw [scan_append]
  rcases hscan (scan .code s).2 with h | ⟨hd, h⟩
  · simp only [h, true_and, iff_self]
  · simp [hd] at h ⊢
    simp [h]

/-- Trailing blanks of a line that closes its literals carry no token. -/
theorem tokens_append_blanks {s bs : Str} (h : Closed s)
    (hb : ∀ c ∈ bs, isBlank c = true ∧ c ≠ '\n') : tokens (s ++ bs) = tokens s := by
  by_cases hc : EndsInComment s
  · apply tokens_append_of_comment hc
    intro hmem
    exact (hb _ hmem).2 rfl
  · cases bs with
    | nil => rw [List.append_nil]
    | cons c bs =>
        have hnil : tokens (bs ++ []) = tokens [] :=
          tokens_blanks_append (fun d hd => (hb d (List.mem_cons_of_mem _ hd)).1) []
        rw [tokens_append_blank h hc (hb c List.mem_cons_self).1, ← List.append_nil bs, hnil,
          tokens_nil, List.append_nil]

/-! ## The characters of the tokens -/

theorem eq_of_mem_codeStep {c d : Char} (h : some c ∈ (codeStep d).1) : c = d := by
  unfold codeStep at h
  split at h
  · simp at h
  · split at h
    · simpa using h
    · split at h <;> simpa using h

theorem codeStep_ne_dash (d : Char) : (codeStep d).2 ≠ .dash := by
  unfold codeStep
  split
  · simp
  · split
    · simp
    · split <;> simp

/-- One step puts out the character it reads, and a dash that is owed. -/
theorem mem_step {m : Mode} {c d : Char} (h : some c ∈ (step m d).1) :
    c = d ∨ m = .dash ∧ c = '-' := by
  cases m with
  | code =>
      rw [step] at h
      split at h
      · cases h
      · exact .inl (eq_of_mem_codeStep h)
  | dash =>
      rw [step] at h
      split at h
      · cases h
      · rcases List.mem_cons.mp h with h | h
        · exact .inr ⟨rfl, Option.some.inj h⟩
        · exact .inl (eq_of_mem_codeStep h)
  | single => exact .inl (Option.some.inj (List.mem_singleton.mp h))
  | double => exact .inl (Option.some.inj (List.mem_singleton.mp h))
  | comment =>
      rw [step] at h
      split at h <;> simp at h

/-- Only a dash leaves a dash owed. -/
theorem eq_of_step_dash {m : Mode} {d : Char} (h : (step m d).2 = .dash) : d = '-' := by
  cases m with
  | code =>
      rw [step] at h
      split at h
      · next hd => exact hd
      · exact absurd h (codeStep_ne_dash d)
  | dash =>
      rw [step] at h
      split at h
      · cases h
      · exact absurd h (codeStep_ne_dash d)
  | single =>
      rw [step] at h
      split at h <;> cases h
  | double =>
      rw [step] at h
      split at h <;> cases h
  | comment =>
      rw [step] at h
      split at h <;> cases h

theorem mem_scan {m : Mode} {s : Str} {c : Char}
    (h : some c ∈ (scan m s).1 ++ finish (scan m s).2) : c ∈ s ∨ m = .dash ∧ c = '-' := by
  induction s generalizing m with
  | nil =>
      cases m with
      | dash => exact .inr ⟨rfl, Option.some.inj (List.mem_singleton.mp h)⟩
      | code => cases h
      | single => cases h
      | double => cases h
      | comment => cases h
  | cons d s ih =>
      rw [scan, List.append_assoc, List.mem_append] at h
      rcases h with hstep | hrest
      · rcases mem_step hstep with rfl | howed
        · exact .inl List.mem_cons_self
        · exact .inr howed
      · rcases ih hrest with hmem | ⟨hdash, rfl⟩
        · exact .inl (List.mem_cons_of_mem _ hmem)
        · rw [eq_of_step_dash hdash]
          exact .inl List.mem_cons_self

/-- Tokens are made of characters of the text. -/
theorem mem_of_mem_tokens {s : Str} {c : Char} (h : c ∈ (tokens s).flatten) : c ∈ s := by
  rcases (mem_flatten_wordsFrom _ _ _).mp h with h | h
  · cases h
  · rcases mem_scan h with h | ⟨h, -⟩
    · exact h
    · cases h

/-- A literal that is open at the end of a line has the line break in its token. -/
theorem newline_mem_tokens {s : Str} (h : ¬ Closed s) (rest : Str) :
    '\n' ∈ (tokens (s ++ '\n' :: rest)).flatten := by
  have hmode : (scan .code s).2 = .single ∨ (scan .code s).2 = .double := by
    by_cases h₁ : (scan .code s).2 = .single
    · exact .inl h₁
    · by_cases h₂ : (scan .code s).2 = .double
      · exact .inr h₂
      · exact absurd ⟨h₁, h₂⟩ h
  apply (mem_flatten_wordsFrom _ _ _).mpr
  right
  unfold stream
  rw [scan_append]
  apply List.mem_append_left
  apply List.mem_append_right
  rw [scan]
  apply List.mem_append_left
  rcases hmode with hm | hm <;> simp [hm, step]

/-! ## Texts made of lines -/

/-- `k` is the line `l` without some blanks at its ends. -/
def TrimOf (k l : Str) : Prop :=
  ∃ left right, l = left ++ k ++ right ∧ (∀ c ∈ left, isBlank c = true) ∧
    ∀ c ∈ right, isBlank c = true ∧ c ≠ '\n'

theorem TrimOf.closed_iff {k l : Str} (h : TrimOf k l) : Closed l ↔ Closed k := by
  obtain ⟨left, right, rfl, hleft, hright⟩ := h
  refine (mode_append_blanks hright (left ++ k)).1.trans ?_
  unfold Closed
  rw [mode_blanks_append hleft]

theorem TrimOf.endsInComment_iff {k l : Str} (h : TrimOf k l) :
    EndsInComment l ↔ EndsInComment k := by
  obtain ⟨left, right, rfl, hleft, hright⟩ := h
  refine (mode_append_blanks hright (left ++ k)).2.trans ?_
  unfold EndsInComment
  rw [mode_blanks_append hleft]

theorem TrimOf.tokens_eq {k l : Str} (h : TrimOf k l) (hk : Closed k) : tokens l = tokens k := by
  obtain ⟨left, right, rfl, hleft, hright⟩ := h
  have hclosed : Closed (left ++ k) := by
    unfold Closed
    rw [mode_blanks_append hleft]
    exact hk
  rw [tokens_append_blanks hclosed hright, tokens_blanks_append hleft]

/-- A line that ends in a comment is followed by lines without tokens only. -/
def CommentsLast (ls : List Str) : Prop :=
  ∀ pre l post, ls = pre ++ l :: post → EndsInComment l → ∀ k ∈ post, tokens k = []

theorem commentsLast_cons (l : Str) (ls : List Str) :
    CommentsLast (l :: ls) ↔
      (EndsInComment l → ∀ k ∈ ls, tokens k = []) ∧ CommentsLast ls := by
  constructor
  · intro h
    constructor
    · exact h [] l ls rfl
    · intro pre k post hsplit
      exact h (l :: pre) k post (by rw [hsplit]; rfl)
  · rintro ⟨hhead, htail⟩ pre k post hsplit
    cases pre with
    | nil =>
        obtain ⟨rfl, rfl⟩ := List.cons.inj hsplit
        exact hhead
    | cons j pre =>
        obtain ⟨rfl, hrest⟩ := List.cons.inj hsplit
        exact htail pre k post hrest

theorem commentsLast_map {g : Str → Str} {ls : List Str} (hg : ∀ l ∈ ls, TrimOf (g l) l)
    (hc : ∀ l ∈ ls, Closed l) : CommentsLast (ls.map g) ↔ CommentsLast ls := by
  induction ls with
  | nil => rfl
  | cons l ls ih =>
      have htail := ih (fun k hk => hg k (List.mem_cons_of_mem _ hk))
        fun k hk => hc k (List.mem_cons_of_mem _ hk)
      have htokens : (∀ k ∈ ls.map g, tokens k = []) ↔ ∀ k ∈ ls, tokens k = [] := by
        rw [List.forall_mem_map]
        apply forall₂_congr
        intro k hk
        have hgk := hg k (List.mem_cons_of_mem _ hk)
        rw [hgk.tokens_eq (hgk.closed_iff.mp (hc k (List.mem_cons_of_mem _ hk)))]
      rw [List.map_cons, commentsLast_cons, commentsLast_cons, htail, htokens,
        (hg l List.mem_cons_self).endsInComment_iff]

/-- Lines without tokens and comments at both ends do not matter. -/
theorem commentsLast_append {pre ls post : List Str}
    (hpre : ∀ l ∈ pre, ¬ EndsInComment l)
    (hpost : ∀ l ∈ post, tokens l = [] ∧ ¬ EndsInComment l) :
    CommentsLast (pre ++ (ls ++ post)) ↔ CommentsLast ls := by
  have hfront : ∀ ks, CommentsLast (pre ++ ks) ↔ CommentsLast ks := by
    intro ks
    induction pre with
    | nil => rfl
    | cons l pre ih =>
        have htail := ih fun k hk => hpre k (List.mem_cons_of_mem _ hk)
        rw [List.cons_append, commentsLast_cons, htail]
        apply and_iff_right
        intro h
        exact absurd h (hpre l List.mem_cons_self)
  rw [hfront]
  induction ls with
  | nil =>
      constructor
      · intro _ pre l post h
        simp at h
      · intro _ pre l rest h hl
        exact absurd hl (hpost l (by simp only [List.nil_append] at h; simp [h])).2
  | cons l ls ih =>
      have hall : (∀ k ∈ ls ++ post, tokens k = []) ↔ ∀ k ∈ ls, tokens k = [] := by
        rw [List.forall_mem_append]
        exact and_iff_left fun k hk => (hpost k hk).1
      rw [List.cons_append, commentsLast_cons, commentsLast_cons, hall]
      exact and_congr_right fun _ => ih

/-- Lines that close their literals, each with its end, have their own tokens in order. -/
theorem tokens_lines (frame : Str → Str) {ls : List Str} (h : ∀ l ∈ ls, Closed (frame l))
    (rest : Str) :
    tokens (ls.flatMap (fun l => frame l ++ ['\n']) ++ rest) =
      ls.flatMap (fun l => tokens (frame l)) ++ tokens rest := by
  induction ls with
  | nil => rfl
  | cons l ls ih =>
      have htail := ih fun k hk => h k (List.mem_cons_of_mem _ hk)
      have hsplit : (l :: ls).flatMap (fun l => frame l ++ ['\n']) ++ rest =
          frame l ++ '\n' :: (ls.flatMap (fun l => frame l ++ ['\n']) ++ rest) := by
        simp
      rw [hsplit, tokens_append_newline (h l List.mem_cons_self), htail, List.flatMap_cons,
        List.append_assoc]

/-- The lines joined by blanks keep the tokens of all lines exactly when nothing follows
the first comment: the rest of the text is part of it. -/
theorem tokens_joined_iff {ls : List Str} (hc : ∀ l ∈ ls, Closed l) (hn : ∀ l ∈ ls, '\n' ∉ l) :
    tokens (ls.flatMap fun l => l ++ [' ']) = ls.flatMap tokens ↔ CommentsLast ls := by
  induction ls with
  | nil =>
      refine ⟨fun _ pre l post h => ?_, fun _ => rfl⟩
      simp at h
  | cons l ls ih =>
      have hctail : ∀ k ∈ ls, Closed k := fun k hk => hc k (List.mem_cons_of_mem _ hk)
      have hntail : ∀ k ∈ ls, '\n' ∉ k := fun k hk => hn k (List.mem_cons_of_mem _ hk)
      have htail := ih hctail hntail
      have hsplit : (l :: ls).flatMap (fun l => l ++ [' ']) =
          l ++ ' ' :: ls.flatMap (fun l => l ++ [' ']) := by
        simp
      rw [commentsLast_cons, hsplit, List.flatMap_cons]
      by_cases hl : EndsInComment l
      · have hrest : '\n' ∉ ' ' :: ls.flatMap (fun l => l ++ [' ']) := by
          simpa using hntail
        have hempty : ls.flatMap tokens = [] ↔ ∀ k ∈ ls, tokens k = [] := List.flatMap_eq_nil_iff
        rw [tokens_append_of_comment hl hrest, List.self_eq_append_right, hempty]
        constructor
        · intro h
          refine ⟨fun _ => h, ?_⟩
          intro pre k post hls _ j hj
          exact h j (by rw [hls]; simp [hj])
        · rintro ⟨h, -⟩
          exact h hl
      · rw [tokens_append_blank (hc l List.mem_cons_self) hl (by rfl), List.append_cancel_left_eq]
        constructor
        · intro h
          exact ⟨fun h' => absurd h' hl, htail.mp h⟩
        · rintro ⟨-, h⟩
          exact htail.mpr h

/-- A line that leaves a literal open has a line break in the tokens of the lines. -/
theorem newline_mem_tokens_lines (frame : Str → Str) {ls : List Str}
    (h : ¬ ∀ l ∈ ls, Closed (frame l)) (rest : Str) :
    '\n' ∈ (tokens (ls.flatMap (fun l => frame l ++ ['\n']) ++ rest)).flatten := by
  induction ls with
  | nil => simp at h
  | cons l ls ih =>
      have hsplit : (l :: ls).flatMap (fun l => frame l ++ ['\n']) ++ rest =
          frame l ++ '\n' :: (ls.flatMap (fun l => frame l ++ ['\n']) ++ rest) := by
        simp
      rw [hsplit]
      by_cases hl : Closed (frame l)
      · rw [tokens_append_newline hl, List.flatten_append]
        apply List.mem_append_right
        apply ih
        intro hall
        apply h
        rw [List.forall_mem_cons]
        exact ⟨hl, hall⟩
      · exact newline_mem_tokens hl _

end SqlLex
