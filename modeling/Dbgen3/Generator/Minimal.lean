import Dbgen3.Generator.MultiLine
import Mathlib.Data.List.DropRight
import Mathlib.Data.List.Forall2
import Mathlib.Order.Bounds.Basic

/-!
# The minimal form of a text

`multi_line::minimize` is compared with what it is for: the lines from the first
to the last one that is not blank, all moved left by the same number of
characters, until a line starts in the first column. The minimal form is a
fixed point, so that writing its lines out and reading them back keeps them.

The loops are given once more with their indices, where reading past the end of
a line or of the vector has no result.
-/

namespace Dbgen3.Generator

namespace MultiLine

/-- `multi_line::to_str`. -/
def linesToStr (v : List Str) (delim : Char) : Str := v.flatMap fun l => l ++ [delim]

/-! ## The loops with their indices -/

/-- The loop of `find_first_non_WS_line`. -/
def firstFrom (o : List Str) (r : Nat) : Option Nat :=
  if r < o.length then
    o[r]?.bind fun l => if isWhitespaceLine l then firstFrom o (r + 1) else some r
  else some r
termination_by o.length - r

/-- The loop of `find_last_non_WS_line`; the argument is the index plus one. -/
def lastFrom (o : List Str) : Nat → Option Int
  | 0 => some (-1)
  | r + 1 => o[r]?.bind fun l => if isWhitespaceLine l then lastFrom o r else some r

/-- The loop that looks for the first character of a line that is not blank. -/
def skipBlanks (l : Str) (pos : Nat) : Option Nat :=
  if h : pos < l.length then if isspace l[pos] then skipBlanks l (pos + 1) else some pos
  else none
termination_by l.length - pos

/-- The loop that computes `min`. -/
def minLoop (m : Nat) : List Str → Option Nat
  | [] => some m
  | l :: rest =>
      if ! isWhitespaceLine l then
        (skipBlanks l 0).bind fun pos => if pos < m then minLoop pos rest else minLoop m rest
      else minLoop m rest

/-- `std::span` over `count` lines from `first` on. -/
def span (o : List Str) (first count : Nat) : Option (List Str) :=
  if first + count ≤ o.length then some ((o.drop first).take count) else none

/-- `std::string::substr`: it raises an exception behind the end of the line. -/
def substr (l : Str) (pos : Nat) : Option Str := if pos ≤ l.length then some (l.drop pos) else none

/-- The loop that moves the lines left. -/
def shiftLoop (min : Nat) : List Str → Option (List Str)
  | [] => some []
  | l :: rest =>
      (if l.length ≥ min then substr l min else some []).bind fun l' =>
        (shiftLoop min rest).map fun r => l' :: r

/-- `multi_line::minimize` with all its indices. -/
def minimizeIndexed (o : List Str) : Option (List Str) :=
  if o ≠ [] then
    (firstFrom o 0).bind fun first =>
      if o.length = first then some []
      else
        (lastFrom o o.length).bind fun last =>
          (span o first (last - first + 1).toNat).bind fun block =>
            block.head?.bind fun l =>
              (minLoop l.length block).bind fun min => shiftLoop min block
  else some o

/-! ## The block of a text -/

/-- The lines from the first to the last one that is not blank. -/
def block (o : List Str) : List Str := (o.dropWhile isWhitespaceLine).rdropWhile isWhitespaceLine

/-- What the block of a text is: its lines without the blank lines around them. -/
structure IsBlock (o block : List Str) : Prop where
  around : ∃ pre post, o = pre ++ block ++ post ∧
    (∀ l ∈ pre, isWhitespaceLine l = true) ∧ ∀ l ∈ post, isWhitespaceLine l = true
  starts : ∃ l, block.head? = some l ∧ isWhitespaceLine l = false
  ends : ∃ l, block.getLast? = some l ∧ isWhitespaceLine l = false

/-- The numbers of blanks that the lines of a block start with. -/
def indents (block : List Str) : Set Nat :=
  {n | ∃ l ∈ block, isWhitespaceLine l = false ∧ leadingBlanks l = n}

theorem drop_findFirst (o : List Str) :
    o.drop (findFirstNonWSLine o) = o.dropWhile isWhitespaceLine := by
  have h := List.takeWhile_append_dropWhile (p := isWhitespaceLine) (l := o)
  conv => lhs; arg 2; rw [← h]
  exact List.drop_left

theorem findFirst_add_length (o : List Str) :
    findFirstNonWSLine o + (o.dropWhile isWhitespaceLine).length = o.length := by
  have h := congrArg List.length
    (List.takeWhile_append_dropWhile (p := isWhitespaceLine) (l := o))
  rwa [List.length_append] at h

theorem dropWhile_ne_nil {o : List Str} (h : ¬ ∀ l ∈ o, isWhitespaceLine l = true) :
    o.dropWhile isWhitespaceLine ≠ [] := fun hnil => h (List.dropWhile_eq_nil_iff.mp hnil)

/-- The blank lines at the end of a text stand behind its first line that is not blank. -/
theorem reverse_takeWhile_eq {o : List Str} (h : ¬ ∀ l ∈ o, isWhitespaceLine l = true) :
    o.reverse.takeWhile isWhitespaceLine =
      (o.dropWhile isWhitespaceLine).reverse.takeWhile isWhitespaceLine := by
  let d := o.dropWhile isWhitespaceLine
  have hne : ¬ ∀ l ∈ d, isWhitespaceLine l = true := by
    intro hall
    have hd := dropWhile_ne_nil h
    have hhead := List.head_dropWhile_not isWhitespaceLine hd
    rw [hall _ (List.head_mem hd)] at hhead
    cases hhead
  have hsplit : o.reverse = d.reverse ++ (o.takeWhile isWhitespaceLine).reverse := by
    rw [← List.reverse_append, List.takeWhile_append_dropWhile]
  have hlen : ¬ (d.reverse.takeWhile isWhitespaceLine).length = d.reverse.length := by
    intro hlen
    apply hne
    have hself : d.reverse.takeWhile isWhitespaceLine = d.reverse :=
      (List.takeWhile_prefix isWhitespaceLine).eq_of_length hlen
    intro l hl
    exact List.takeWhile_eq_self_iff.mp hself l (List.mem_reverse.mpr hl)
  rw [hsplit, List.takeWhile_append, if_neg hlen]

theorem rdropWhile_eq_take (d : List Str) :
    d.rdropWhile isWhitespaceLine =
      d.take (d.length - (d.reverse.takeWhile isWhitespaceLine).length) := by
  have h := List.rdropWhile_append_rtakeWhile (p := isWhitespaceLine) (l := d)
  have hlen : d.length - (d.reverse.takeWhile isWhitespaceLine).length =
      (d.rdropWhile isWhitespaceLine).length := by
    have := congrArg List.length h
    rw [List.length_append, List.rtakeWhile, List.length_reverse] at this
    omega
  rw [hlen]
  conv => rhs; arg 2; rw [← h]
  exact List.take_left.symm

/-- The lines that `minimize` takes are the block. -/
theorem take_drop_eq_block {o : List Str} (h : ¬ ∀ l ∈ o, isWhitespaceLine l = true) :
    (o.drop (findFirstNonWSLine o)).take
      (findLastNonWSLine o - findFirstNonWSLine o + 1).toNat = block o := by
  have hadd := findFirst_add_length o
  have hsize : (findLastNonWSLine o - findFirstNonWSLine o + 1).toNat =
      (o.dropWhile isWhitespaceLine).length -
        ((o.dropWhile isWhitespaceLine).reverse.takeWhile isWhitespaceLine).length := by
    rw [findLastNonWSLine, reverse_takeWhile_eq h]
    omega
  rw [drop_findFirst, hsize, block, rdropWhile_eq_take]

theorem findFirst_ne_length {o : List Str} (h : ¬ ∀ l ∈ o, isWhitespaceLine l = true) :
    o.length ≠ findFirstNonWSLine o := by
  have hadd := findFirst_add_length o
  have hpos := List.length_pos_iff.mpr (dropWhile_ne_nil h)
  omega

/-- The indentation that `minimize` removes. -/
def indent (o : List Str) : Nat := minFrom ((block o).headD []).length (block o)

theorem minimize_of_not_blank {o : List Str} (h : ¬ ∀ l ∈ o, isWhitespaceLine l = true) :
    minimize o = (block o).map (shift (indent o)) := by
  have hne : o ≠ [] := by
    rintro rfl
    exact h (by simp)
  unfold minimize
  rw [if_pos hne]
  dsimp only
  rw [if_neg (findFirst_ne_length h), take_drop_eq_block h]
  rfl

theorem isBlock_block {o : List Str} (h : ¬ ∀ l ∈ o, isWhitespaceLine l = true) :
    IsBlock o (block o) := by
  let d := o.dropWhile isWhitespaceLine
  have hd : d ≠ [] := dropWhile_ne_nil h
  have hhead : isWhitespaceLine (d.head hd) = false := List.head_dropWhile_not _ hd
  have hb : block o ≠ [] := by
    intro hnil
    rw [List.rdropWhile_eq_nil_iff.mp hnil _ (List.head_mem hd)] at hhead
    cases hhead
  obtain ⟨post, hpost⟩ : block o <+: d := List.rdropWhile_prefix isWhitespaceLine d
  constructor
  · refine ⟨o.takeWhile isWhitespaceLine, d.rtakeWhile isWhitespaceLine, ?_, ?_, ?_⟩
    · rw [List.append_assoc, block, List.rdropWhile_append_rtakeWhile,
        List.takeWhile_append_dropWhile]
    · intro l hl
      exact List.mem_takeWhile_imp hl
    · intro l hl
      exact List.mem_rtakeWhile_imp hl
  · refine ⟨d.head hd, ?_, hhead⟩
    rw [List.head?_eq_some_head hb, Option.some.injEq]
    simp only [← hpost, List.head_append_of_ne_nil hb]
  · refine ⟨(block o).getLast hb, List.getLast?_eq_some_getLast hb, Bool.eq_false_iff.mpr ?_⟩
    exact List.rdropWhile_last_not isWhitespaceLine d hb

/-! ## The indentation -/

theorem leadingBlanks_lt {l : Str} (h : isWhitespaceLine l = false) :
    leadingBlanks l < l.length := by
  have hle : leadingBlanks l ≤ l.length := (List.takeWhile_prefix isspace).length_le
  apply Nat.lt_of_le_of_ne hle
  intro heq
  have hself : l.takeWhile isspace = l := (List.takeWhile_prefix isspace).eq_of_length heq
  rw [isWhitespaceLine, List.all_eq_true.mpr (List.takeWhile_eq_self_iff.mp hself)] at h
  cases h

/-- The minimum is the start value or the indentation of a line. -/
theorem minFrom_attained (m : Nat) (block : List Str) :
    minFrom m block = m ∨ minFrom m block ∈ indents block := by
  induction block generalizing m with
  | nil => exact Or.inl rfl
  | cons l block ih =>
      have hmore : ∀ n, n ∈ indents block → n ∈ indents (l :: block) := by
        rintro n ⟨k, hk, hw, hn⟩
        exact ⟨k, List.mem_cons_of_mem l hk, hw, hn⟩
      rw [minFrom]
      split
      · next hw =>
        split
        · right
          rcases ih (leadingBlanks l) with heq | hmem
          · exact ⟨l, List.mem_cons_self, by simpa using hw, heq.symm⟩
          · exact hmore _ hmem
        · exact (ih m).imp_right (hmore _)
      · exact (ih m).imp_right (hmore _)

/-- The removed indentation is the smallest one of the block. -/
theorem isLeast_indent {o : List Str} (h : ¬ ∀ l ∈ o, isWhitespaceLine l = true) :
    IsLeast (indents (block o)) (indent o) := by
  obtain ⟨-, ⟨l, hhead, hw⟩, -⟩ := isBlock_block h
  have hmem : l ∈ block o := List.mem_of_head? hhead
  have hstart : ((block o).headD []).length = l.length := by
    rw [List.headD_eq_head?_getD, hhead, Option.getD_some]
  constructor
  · apply (minFrom_attained _ (block o)).resolve_left
    intro heq
    have hle := minFrom_le_leadingBlanks (m := ((block o).headD []).length) hmem hw
    have hlt := leadingBlanks_lt hw
    omega
  · rintro n ⟨k, hk, hwk, rfl⟩
    exact minFrom_le_leadingBlanks hk hwk

/-! ## No index runs past an end -/

theorem firstFrom_eq {o : List Str} {r : Nat} (h : r ≤ o.length) :
    firstFrom o r = some (r + findFirstNonWSLine (o.drop r)) := by
  induction hn : o.length - r generalizing r with
  | zero =>
      have hr : ¬ r < o.length := by omega
      have hnil : o.drop r = [] := List.drop_eq_nil_iff.mpr (Nat.le_of_not_lt hr)
      rw [firstFrom, if_neg hr, hnil]
      rfl
  | succ n ih =>
      have hr : r < o.length := by omega
      have hdrop : o.drop r = o[r] :: o.drop (r + 1) := List.drop_eq_getElem_cons hr
      rw [firstFrom, if_pos hr, List.getElem?_eq_getElem hr, Option.bind_some, hdrop,
        findFirstNonWSLine]
      split
      · next hw =>
        rw [List.takeWhile_cons_of_pos hw, ih hr (by omega), List.length_cons,
          findFirstNonWSLine, Nat.succ_eq_add_one, Nat.add_assoc, Nat.add_comm 1]
      · next hw => rw [List.takeWhile_cons_of_neg hw, List.length_nil, Nat.add_zero]

theorem lastFrom_eq {o : List Str} {r : Nat} (h : r ≤ o.length) :
    lastFrom o r = some (findLastNonWSLine (o.take r)) := by
  induction r with
  | zero => rfl
  | succ r ih =>
      have hr : r < o.length := h
      have htake : o.take (r + 1) = o.take r ++ [o[r]] := List.take_succ_eq_append_getElem hr
      have hlen : (o.take r).length = r := List.length_take_of_le (Nat.le_of_lt hr)
      rw [lastFrom, List.getElem?_eq_getElem hr, Option.bind_some, htake, findLastNonWSLine,
        List.reverse_concat, List.length_append, hlen, List.length_singleton]
      split
      · next hw =>
        rw [List.takeWhile_cons_of_pos hw, ih (Nat.le_of_lt hr), findLastNonWSLine, hlen,
          List.length_cons]
        congr 1
        omega
      · next hw =>
        rw [List.takeWhile_cons_of_neg hw, List.length_nil]
        congr 1
        omega

theorem skipBlanks_eq {l : Str} {pos : Nat} (h : isWhitespaceLine (l.drop pos) = false) :
    skipBlanks l pos = some (pos + leadingBlanks (l.drop pos)) := by
  induction hn : l.length - pos generalizing pos with
  | zero =>
      rw [List.drop_eq_nil_iff.mpr (by omega)] at h
      cases h
  | succ n ih =>
      have hpos : pos < l.length := by omega
      have hdrop : l.drop pos = l[pos] :: l.drop (pos + 1) := List.drop_eq_getElem_cons hpos
      rw [skipBlanks, dif_pos hpos, hdrop, leadingBlanks]
      split
      · next hc =>
        rw [hdrop, isWhitespaceLine, List.all_cons, hc, Bool.true_and] at h
        rw [List.takeWhile_cons_of_pos hc, ih h (by omega), List.length_cons, leadingBlanks]
        congr 1
        omega
      · next hc => rw [List.takeWhile_cons_of_neg hc, List.length_nil, Nat.add_zero]

theorem minLoop_eq (m : Nat) (block : List Str) : minLoop m block = some (minFrom m block) := by
  induction block generalizing m with
  | nil => rfl
  | cons l block ih =>
      rw [minLoop, minFrom]
      split
      · next hw =>
        have hl : isWhitespaceLine (l.drop 0) = false := by simpa using hw
        rw [skipBlanks_eq hl, Option.bind_some, Nat.zero_add, List.drop_zero]
        split
        · exact ih _
        · exact ih _
      · exact ih _

theorem shiftLoop_eq (min : Nat) (block : List Str) :
    shiftLoop min block = some (block.map (shift min)) := by
  induction block with
  | nil => rfl
  | cons l block ih =>
      have hline : (if l.length ≥ min then substr l min else some []) = some (shift min l) := by
        by_cases h : l.length ≥ min
        · rw [if_pos h, substr, if_pos h, shift, if_pos h]
        · rw [if_neg h, shift, if_neg h]
      rw [shiftLoop, hline, Option.bind_some, ih, Option.map_some, List.map_cons]

/-- `minimize` reads no line of the vector and no character of a line that is not there. -/
theorem minimizeIndexed_eq (o : List Str) : minimizeIndexed o = some (minimize o) := by
  unfold minimizeIndexed
  by_cases hne : o ≠ []
  · rw [if_pos hne, firstFrom_eq (Nat.zero_le _), Option.bind_some, Nat.zero_add, List.drop_zero]
    by_cases hall : ∀ l ∈ o, isWhitespaceLine l = true
    · have hlen : o.length = findFirstNonWSLine o :=
        congrArg List.length (List.takeWhile_eq_self_iff.mpr hall).symm
      rw [if_pos hlen, (minimize_eq_nil_iff o).mpr hall]
    · have hfirst := findFirst_add_length o
      have hspan : findFirstNonWSLine o +
          (findLastNonWSLine o - findFirstNonWSLine o + 1).toNat ≤ o.length := by
        unfold findLastNonWSLine
        omega
      obtain ⟨-, ⟨l, hhead, -⟩, -⟩ := isBlock_block hall
      have hindent : indent o = minFrom l.length (block o) := by
        rw [indent, List.headD_eq_head?_getD, hhead, Option.getD_some]
      rw [if_neg (findFirst_ne_length hall), lastFrom_eq (Nat.le_refl _), List.take_length,
        Option.bind_some, span, if_pos hspan, Option.bind_some, take_drop_eq_block hall, hhead,
        Option.bind_some, minLoop_eq, Option.bind_some, shiftLoop_eq,
        minimize_of_not_blank hall, hindent]
  · obtain rfl : o = [] := Decidable.of_not_not hne
    rfl

/-! ## The minimal form -/

/-- A line starts in the first column. -/
def StartsInFirstColumn (l : Str) : Prop := ∃ c, l.head? = some c ∧ isspace c = false

/-- How a line of a block is moved left by `m` characters. -/
structure Moved (m : Nat) (l l' : Str) : Prop where
  text : isWhitespaceLine l = false →
    ∃ bs, l = bs ++ l' ∧ bs.length = m ∧ ∀ c ∈ bs, isspace c = true
  indentation : isWhitespaceLine l = false → leadingBlanks l = m + leadingBlanks l'
  blank : isWhitespaceLine l = true → l' = if m ≤ l.length then l.drop m else []

theorem take_prefix_leading {m : Nat} {l : Str} (h : m ≤ leadingBlanks l) :
    l.take m <+: l.takeWhile isspace :=
  List.prefix_of_prefix_length_le (List.take_prefix _ l) (List.takeWhile_prefix isspace)
    (Nat.le_trans (List.length_take_le _ l) h)

theorem isspace_of_mem_take {m : Nat} {l : Str} (h : m ≤ leadingBlanks l) {c : Char}
    (hc : c ∈ l.take m) : isspace c = true :=
  List.mem_takeWhile_imp ((take_prefix_leading h).subset hc)

theorem shift_of_le {m : Nat} {l : Str} (h : m ≤ leadingBlanks l) : shift m l = l.drop m :=
  if_pos (Nat.le_trans h (List.takeWhile_prefix isspace).length_le)

theorem leadingBlanks_drop {m : Nat} {l : Str} (h : m ≤ leadingBlanks l) :
    leadingBlanks l = m + leadingBlanks (l.drop m) := by
  have hlen : (l.take m).length = m := by
    have hle := (List.takeWhile_prefix isspace (l := l)).length_le
    exact List.length_take_of_le (Nat.le_trans h hle)
  have hpos : ∀ c ∈ l.take m, isspace c = true := fun c hc => isspace_of_mem_take h hc
  calc leadingBlanks l
      = ((l.take m ++ l.drop m).takeWhile isspace).length := by
        rw [List.take_append_drop, leadingBlanks]
    _ = (l.take m).length + leadingBlanks (l.drop m) := by
        rw [List.takeWhile_append_of_pos hpos, List.length_append, leadingBlanks]
    _ = m + leadingBlanks (l.drop m) := by rw [hlen]

theorem moved_shift {m : Nat} {l : Str}
    (h : isWhitespaceLine l = false → m ≤ leadingBlanks l) : Moved m l (shift m l) := by
  constructor
  · intro hw
    have hlen : (l.take m).length = m :=
      List.length_take_of_le (Nat.le_trans (h hw) (Nat.le_of_lt (leadingBlanks_lt hw)))
    refine ⟨l.take m, ?_, hlen, fun c hc => isspace_of_mem_take (h hw) hc⟩
    rw [shift_of_le (h hw), List.take_append_drop]
  · intro hw
    rw [shift_of_le (h hw)]
    exact leadingBlanks_drop (h hw)
  · intro _
    rfl

theorem startsInFirstColumn_iff {l : Str} :
    StartsInFirstColumn l ↔ isWhitespaceLine l = false ∧ leadingBlanks l = 0 := by
  cases l with
  | nil => simp [StartsInFirstColumn, isWhitespaceLine]
  | cons c l =>
      cases hc : isspace c with
      | true => simp [StartsInFirstColumn, isWhitespaceLine, leadingBlanks, hc]
      | false => simp [StartsInFirstColumn, isWhitespaceLine, leadingBlanks, hc]

/-- A line keeps what makes it not blank when blanks in front of it go. -/
theorem isWhitespaceLine_drop {m : Nat} {l : Str} (h : m ≤ leadingBlanks l) :
    isWhitespaceLine (l.drop m) = isWhitespaceLine l := by
  have hpos : (l.take m).all isspace = true :=
    List.all_eq_true.mpr fun c hc => isspace_of_mem_take h hc
  calc isWhitespaceLine (l.drop m)
      = ((l.take m).all isspace && (l.drop m).all isspace) := by
        rw [hpos, Bool.true_and, isWhitespaceLine]
    _ = isWhitespaceLine l := by rw [← List.all_append, List.take_append_drop, isWhitespaceLine]

theorem exists_startsInFirstColumn {o : List Str}
    (h : ¬ ∀ l ∈ o, isWhitespaceLine l = true) :
    ∃ l ∈ minimize o, StartsInFirstColumn l := by
  obtain ⟨l, hl, hw, hmin⟩ := (isLeast_indent h).1
  have hle : indent o ≤ leadingBlanks l := Nat.le_of_eq hmin.symm
  have hdrop := leadingBlanks_drop hle
  refine ⟨shift (indent o) l, ?_, ?_⟩
  · rw [minimize_of_not_blank h]
    exact List.mem_map_of_mem hl
  · rw [shift_of_le hle, startsInFirstColumn_iff, isWhitespaceLine_drop hle]
    exact ⟨hw, by omega⟩

/-- `minimize` keeps the block of its text, moved left by the smallest indentation, and
reads nothing that is not there. -/
theorem minimize_block (o : List Str) :
    minimizeIndexed o = some (minimize o) ∧
      if ∀ l ∈ o, isWhitespaceLine l = true then minimize o = []
      else ∃ block m, IsBlock o block ∧ IsLeast (indents block) m ∧
        List.Forall₂ (Moved m) block (minimize o) ∧
        ∃ l ∈ minimize o, StartsInFirstColumn l := by
  refine ⟨minimizeIndexed_eq o, ?_⟩
  split
  · next h => exact (minimize_eq_nil_iff o).mpr h
  · next h =>
    have hleast := isLeast_indent h
    refine ⟨block o, indent o, isBlock_block h, hleast, ?_, exists_startsInFirstColumn h⟩
    rw [minimize_of_not_blank h, List.forall₂_map_right_iff, List.forall₂_same]
    intro l hl
    exact moved_shift fun hw => hleast.2 ⟨l, hl, hw, rfl⟩

/-! ## Fixed points -/

/-- Lines in minimal form: no blank lines around them, and one that is not indented. -/
structure IsMinimal (o : List Str) : Prop where
  block : IsBlock o o
  flush : ∃ l ∈ o, StartsInFirstColumn l

theorem block_eq_self {o : List Str} (h : IsBlock o o) : block o = o := by
  obtain ⟨-, ⟨first, hfirst, hfw⟩, last, hlast, hlw⟩ := h
  have hdrop : o.dropWhile isWhitespaceLine = o := by
    obtain ⟨rest, rfl⟩ := List.head?_eq_some_iff.mp hfirst
    exact List.dropWhile_cons_of_neg (by rw [hfw]; exact Bool.false_ne_true)
  have hrdrop : o.rdropWhile isWhitespaceLine = o := by
    apply List.rdropWhile_eq_self_iff.mpr
    intro hne
    rw [List.getLast?_eq_some_getLast hne, Option.some.injEq] at hlast
    rw [hlast, hlw]
    exact Bool.false_ne_true
  rw [block, hdrop, hrdrop]

theorem minimize_of_isMinimal {o : List Str} (h : IsMinimal o) : minimize o = o := by
  obtain ⟨hblock, l, hl, hflush⟩ := h
  obtain ⟨hw, hzero⟩ := startsInFirstColumn_iff.mp hflush
  have hnot : ¬ ∀ k ∈ o, isWhitespaceLine k = true := by
    intro hall
    rw [hall l hl] at hw
    cases hw
  have hindent : indent o = 0 := by
    have hmem : l ∈ block o := (block_eq_self hblock).symm ▸ hl
    have hle := (isLeast_indent hnot).2 ⟨l, hmem, hw, rfl⟩
    omega
  rw [minimize_of_not_blank hnot, block_eq_self hblock, hindent]
  exact List.map_id'' (fun k => if_pos (Nat.zero_le _)) o

theorem isMinimal_minimize {o : List Str} (h : ¬ ∀ l ∈ o, isWhitespaceLine l = true) :
    IsMinimal (minimize o) := by
  have hmin := minimize_of_not_blank h
  obtain ⟨-, ⟨first, hfirst, hfw⟩, last, hlast, hlw⟩ := isBlock_block h
  have hkeep : ∀ l ∈ block o, isWhitespaceLine l = false →
      isWhitespaceLine (shift (indent o) l) = false := by
    intro l hl hw
    have hle : indent o ≤ leadingBlanks l := (isLeast_indent h).2 ⟨l, hl, hw, rfl⟩
    rw [shift_of_le hle, isWhitespaceLine_drop hle, hw]
  refine ⟨⟨⟨[], [], by simp, by simp, by simp⟩, ?_, ?_⟩, exists_startsInFirstColumn h⟩
  · refine ⟨shift (indent o) first, ?_, hkeep first (List.mem_of_head? hfirst) hfw⟩
    rw [hmin, List.head?_map, hfirst, Option.map_some]
  · refine ⟨shift (indent o) last, ?_, hkeep last (List.mem_of_getLast? hlast) hlw⟩
    rw [hmin, List.getLast?_map, hlast, Option.map_some]

/-- The minimal form of a text is its own minimal form. -/
theorem minimize_minimize (o : List Str) : minimize (minimize o) = minimize o := by
  by_cases h : ∀ l ∈ o, isWhitespaceLine l = true
  · rw [(minimize_eq_nil_iff o).mpr h]
    rfl
  · exact minimize_of_isMinimal (isMinimal_minimize h)

/-! ## Written out and read back -/

theorem getlines_linesToStr {delim : Char} {v : List Str} (h : ∀ l ∈ v, delim ∉ l) :
    getlines delim (linesToStr v delim) = v := by
  induction v with
  | nil => rfl
  | cons l v ih =>
      obtain ⟨hl, hv⟩ := List.forall_mem_cons.mp h
      have hcons : linesToStr (l :: v) delim = l ++ delim :: linesToStr v delim := by
        rw [linesToStr, List.flatMap_cons, List.append_assoc, List.singleton_append, linesToStr]
      rw [hcons, getlines_append hl, ih hv]

theorem null_notMem_cStr (v : View) : '\x00' ∉ v.cStr := by
  intro h
  have := List.mem_takeWhile_imp h
  simp at this

theorem null_notMem_linesToStr_toVec (str : View) :
    '\x00' ∉ linesToStr (toVec str) '\n' := by
  intro h
  obtain ⟨l, hl, hc⟩ := List.mem_flatMap.mp h
  rcases List.mem_append.mp hc with hc | hc
  · obtain ⟨k, hk, hkeep⟩ := mem_of_mem_minimize hl
    have hall := (@forall_getlines '\n' (fun c => c ≠ '\x00') (rtrim str).cStr).mpr
      fun c hmem _ hnull => null_notMem_cStr (rtrim str) (hnull ▸ hmem)
    exact hall k hk _ (hkeep _ hc) rfl
  · simp at hc

/-- Writing the lines of a text out and reading them back changes nothing, and neither does
taking their minimal form again. -/
theorem toVec_linesToStr_toVec (str : View) :
    toVec (View.ofStr (linesToStr (toVec str) '\n')) = toVec str ∧
      minimize (toVec str) = toVec str := by
  have hfixed : minimize (toVec str) = toVec str := minimize_minimize _
  have hn : ∀ l ∈ toVec str, '\n' ∉ l := by
    intro l hl hmem
    obtain ⟨k, hk, hkeep⟩ := mem_of_mem_minimize hl
    exact notMem_of_mem_getlines hk (hkeep _ hmem)
  refine ⟨?_, hfixed⟩
  calc toVec (View.ofStr (linesToStr (toVec str) '\n'))
      = minimize (getlines '\n' (View.ofStr (linesToStr (toVec str) '\n')).cStr) := rfl
    _ = minimize (getlines '\n' (linesToStr (toVec str) '\n')) := by
        rw [cStr_ofStr (null_notMem_linesToStr_toVec str)]
    _ = minimize (toVec str) := by rw [getlines_linesToStr hn]
    _ = toVec str := hfixed

end MultiLine

end Dbgen3.Generator
