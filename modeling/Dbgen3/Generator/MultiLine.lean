import Dbgen3.Generator.Common
import Mathlib.Data.List.TakeWhile

/-!
# Texts split into lines

`multi_line` keeps the lines of a text without the blank lines around it and
moves them left as far as the least indented line allows. Every line it keeps
is a line of the text without some leading blanks.
-/

namespace Dbgen3.Generator

/-- `multi_line`. -/
structure MultiLine where
  lines : List Str := []
  deriving DecidableEq, Repr

namespace MultiLine

/-- `multi_line::is_whitespace_line`. -/
def isWhitespaceLine (l : Str) : Bool := l.all isspace

/-- `multi_line::find_first_non_WS_line`. -/
def findFirstNonWSLine (o : List Str) : Nat := (o.takeWhile isWhitespaceLine).length

/-- `multi_line::find_last_non_WS_line`. -/
def findLastNonWSLine (o : List Str) : Int :=
  (o.length : Int) - 1 - (o.reverse.takeWhile isWhitespaceLine).length

/-- The number of blanks a line starts with. -/
def leadingBlanks (l : Str) : Nat := (l.takeWhile isspace).length

/-- The loop that computes `min`, started with `m`. -/
def minFrom (m : Nat) : List Str → Nat
  | [] => m
  | l :: rest =>
      if ! isWhitespaceLine l then
        if leadingBlanks l < m then minFrom (leadingBlanks l) rest else minFrom m rest
      else minFrom m rest

/-- How a line is moved left by `min` characters. -/
def shift (min : Nat) (l : Str) : Str := if l.length ≥ min then l.drop min else []

/-- `multi_line::minimize`. -/
def minimize (o : List Str) : List Str :=
  if o ≠ [] then
    let first := findFirstNonWSLine o
    if o.length = first then []
    else
      let last := findLastNonWSLine o
      let block := (o.drop first).take (last - first + 1).toNat
      block.map (shift (minFrom (block.headD []).length block))
  else o

/-- `multi_line::to_vec`. -/
def toVec (str : View) : List Str := minimize (split (rtrim str) '\n')

/-- The constructors from a string and from a view. -/
def ofView (str : View) : MultiLine := ⟨toVec str⟩

/-- `multi_line::operator std::string`. -/
def toStr (m : MultiLine) : Str :=
  m.lines.flatMap fun l => (trim (View.ofStr l)).toStr ++ [' ']

/-! ## The lines that are kept -/

theorem minFrom_le (m : Nat) (block : List Str) : minFrom m block ≤ m := by
  induction block generalizing m with
  | nil => exact Nat.le_refl m
  | cons l block ih =>
      rw [minFrom]
      split
      · split
        · next h => exact Nat.le_trans (ih _) (Nat.le_of_lt h)
        · exact ih m
      · exact ih m

theorem minFrom_le_leadingBlanks {m : Nat} {block : List Str} {l : Str} (hl : l ∈ block)
    (hw : isWhitespaceLine l = false) : minFrom m block ≤ leadingBlanks l := by
  induction block generalizing m with
  | nil => cases hl
  | cons k block ih =>
      rw [minFrom]
      rcases List.mem_cons.mp hl with rfl | hl
      · rw [hw, if_pos (by rfl)]
        split
        · exact minFrom_le _ block
        · next h => exact Nat.le_trans (minFrom_le m block) (Nat.le_of_not_lt h)
      · split
        · split
          · exact ih hl
          · exact ih hl
        · exact ih hl

/-- Moving a line of the block left takes only blanks away. -/
theorem shift_spec {m : Nat} {block : List Str} {l : Str} (hl : l ∈ block) :
    ∃ bs, l = bs ++ shift (minFrom m block) l ∧ ∀ c ∈ bs, isspace c = true := by
  have hlen : leadingBlanks l ≤ l.length := (List.takeWhile_prefix isspace).length_le
  cases hw : isWhitespaceLine l with
  | true =>
      have hall : ∀ c ∈ l, isspace c = true := List.all_eq_true.mp hw
      unfold shift
      split
      · refine ⟨l.take (minFrom m block), (List.take_append_drop _ l).symm, ?_⟩
        intro c hc
        exact hall c (List.mem_of_mem_take hc)
      · exact ⟨l, (List.append_nil l).symm, hall⟩
  | false =>
      have hmin : minFrom m block ≤ leadingBlanks l := minFrom_le_leadingBlanks hl hw
      rw [shift, if_pos (Nat.le_trans hmin hlen)]
      refine ⟨l.take (minFrom m block), (List.take_append_drop _ l).symm, ?_⟩
      intro c hc
      have hpre : l.take (minFrom m block) <+: l.takeWhile isspace :=
        List.prefix_of_prefix_length_le (List.take_prefix _ l) (List.takeWhile_prefix isspace)
          (Nat.le_trans (List.length_take_le _ l) hmin)
      exact List.all_eq_true.mp List.all_takeWhile c (hpre.subset hc)

private theorem of_mem_reverse_takeWhile {o : List Str} {k : Nat} {l : Str}
    (hk : o.length ≤ k + (o.reverse.takeWhile isWhitespaceLine).length) (hl : l ∈ o.drop k) :
    isWhitespaceLine l = true := by
  have htail : (o.drop k).reverse <+: o.reverse := List.reverse_prefix.mpr (List.drop_suffix k o)
  have hpre : (o.drop k).reverse <+: o.reverse.takeWhile isWhitespaceLine := by
    apply List.prefix_of_prefix_length_le htail (List.takeWhile_prefix isWhitespaceLine)
    rw [List.length_reverse, List.length_drop]
    omega
  exact List.all_eq_true.mp List.all_takeWhile l (hpre.subset (List.mem_reverse.mpr hl))

/-- `minimize` drops blank lines at both ends and moves the other lines left. -/
theorem minimize_spec (o : List Str) :
    ∃ pre block post f, o = pre ++ block ++ post ∧ minimize o = block.map f ∧
      (∀ l ∈ pre, isWhitespaceLine l = true) ∧ (∀ l ∈ post, isWhitespaceLine l = true) ∧
      ∀ l ∈ block, ∃ bs, l = bs ++ f l ∧ ∀ c ∈ bs, isspace c = true := by
  have hpre : ∀ l ∈ o.takeWhile isWhitespaceLine, isWhitespaceLine l = true :=
    List.all_eq_true.mp List.all_takeWhile
  have htake : o.take (findFirstNonWSLine o) = o.takeWhile isWhitespaceLine :=
    (List.prefix_iff_eq_take.mp (List.takeWhile_prefix isWhitespaceLine)).symm
  unfold minimize
  split
  · dsimp only
    split
    · next hall =>
        rw [← hall, List.take_length] at htake
        exact ⟨o, [], [], id, by simp, rfl, htake ▸ hpre, by simp, by simp⟩
    · -- the block between the first and the last line that is not blank
      let first := findFirstNonWSLine o
      let size := (findLastNonWSLine o - first + 1).toNat
      refine ⟨o.take first, _, (o.drop first).drop size, _, ?_, rfl, htake ▸ hpre, ?_, ?_⟩
      · rw [List.append_assoc, List.take_append_drop, List.take_append_drop]
      · intro l hl
        rw [List.drop_drop] at hl
        apply of_mem_reverse_takeWhile ?_ hl
        unfold size first findLastNonWSLine
        omega
      · intro l hl
        exact shift_spec hl
  · next h =>
      obtain rfl : o = [] := Decidable.of_not_not h
      exact ⟨[], [], [], id, rfl, rfl, by simp, by simp, by simp⟩

/-- The characters of the minimal form are characters of the lines. -/
theorem mem_of_mem_minimize {o : List Str} {l : Str} (hl : l ∈ minimize o) :
    ∃ k ∈ o, ∀ c ∈ l, c ∈ k := by
  obtain ⟨pre, block, post, f, rfl, hmin, -, -, hblock⟩ := minimize_spec o
  rw [hmin] at hl
  obtain ⟨k, hk, rfl⟩ := List.mem_map.mp hl
  obtain ⟨bs, hbs, -⟩ := hblock k hk
  refine ⟨k, List.mem_append_left _ (List.mem_append_right _ hk), ?_⟩
  intro c hc
  rw [hbs]
  exact List.mem_append_right _ hc

/-! ## Blank texts -/

/-- `minimize` keeps no line where all lines are blank. -/
theorem minimize_eq_nil_iff (o : List Str) :
    minimize o = [] ↔ ∀ l ∈ o, isWhitespaceLine l = true := by
  constructor
  · intro h
    obtain ⟨pre, block, post, f, rfl, hmin, hpre, hpost, -⟩ := minimize_spec o
    have hblock : block = [] := List.map_eq_nil_iff.mp (hmin.symm.trans h)
    subst hblock
    intro l hl
    rw [List.append_nil] at hl
    exact (List.mem_append.mp hl).elim (hpre l) (hpost l)
  · intro h
    have htake : o.takeWhile isWhitespaceLine = o := List.takeWhile_eq_self_iff.mpr h
    unfold minimize
    split
    · exact if_pos (congrArg List.length htake.symm)
    · next hnil => exact Decidable.of_not_not hnil

theorem toStr_eq_nil_iff (m : MultiLine) : m.toStr = [] ↔ m.lines = [] := by
  rw [toStr, List.flatMap_eq_nil_iff]
  constructor
  · intro h
    apply List.eq_nil_iff_forall_not_mem.mpr
    intro l hl
    exact absurd (h l hl) (List.append_ne_nil_of_right_ne_nil _ (List.cons_ne_nil _ _))
  · intro h l hl
    rw [h] at hl
    cases hl

theorem cStr_ofStr {t : Str} (h : '\x00' ∉ t) : (View.ofStr t).cStr = t := by
  apply List.takeWhile_eq_self_iff.mpr
  intro c hc
  exact decide_eq_true fun hnull => h (hnull ▸ hc)

/-- The lines of a text are joined to the empty text exactly where the text is blank. -/
theorem toStr_ofView_eq_nil_iff {t : Str} (h : '\x00' ∉ t) :
    (ofView (View.ofStr t)).toStr = [] ↔ ∀ c ∈ t, isspace c = true := by
  have hlines : (ofView (View.ofStr t)).lines = minimize (getlines '\n' t) := by
    change minimize (getlines '\n' (View.ofStr t).cStr) = _
    rw [cStr_ofStr h]
  rw [toStr_eq_nil_iff, hlines, minimize_eq_nil_iff]
  calc (∀ l ∈ getlines '\n' t, isWhitespaceLine l = true)
      ↔ ∀ l ∈ getlines '\n' t, ∀ c ∈ l, isspace c = true := by
        simp only [isWhitespaceLine, List.all_eq_true]
    _ ↔ ∀ c ∈ t, c ≠ '\n' → isspace c = true := forall_getlines t
    _ ↔ ∀ c ∈ t, isspace c = true := by
        refine forall₂_congr fun c _ => ⟨fun hc => ?_, fun hc _ => hc⟩
        by_cases hnl : c = '\n'
        · subst hnl
          rfl
        · exact hc hnl

end MultiLine

end Dbgen3.Generator
