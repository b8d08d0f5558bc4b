import Dbgen3.Exceptions

/-!
# Text utilities of the generator

A `std::string` is the list of its bytes, each as one character. A `cstr_t` is
a pointer and a length: shortening it leaves the characters behind its end in
place, and what is built from its pointer alone sees them again.
-/

namespace Dbgen3.Generator

open Text

/-- `std::isspace` in the C locale. -/
def isspace (c : Char) : Bool :=
  c == ' ' || c == '\t' || c == '\n' || c == '\x0b' || c == '\x0c' || c == '\r'

/-- `std::tolower` in the C locale. -/
def tolower (c : Char) : Char := if 'A' ≤ c ∧ c ≤ 'Z' then Char.ofNat (c.toNat + 32) else c

/-- `cstr_t`: the characters from its pointer on, and its length. -/
structure View where
  data : Str
  len : Nat

/-- The view of a whole string. -/
def View.ofStr (s : Str) : View := ⟨s, s.length⟩

/-- The string made of a view. -/
def View.toStr (v : View) : Str := v.data.take v.len

/-- The string made of the pointer of a view: it ends at the first null character. -/
def View.cStr (v : View) : Str := v.data.takeWhile (· ≠ '\x00')

@[simp] theorem View.toStr_ofStr (s : Str) : (View.ofStr s).toStr = s := List.take_length

/-- `rtrim`. -/
def rtrim (o : View) : View := { o with len := (o.toStr.reverse.dropWhile isspace).length }

/-- `ltrim`. -/
def ltrim (o : View) : View :=
  let n := (o.toStr.takeWhile isspace).length
  ⟨o.data.drop n, o.len - n⟩

/-- `trim`. -/
def trim (o : View) : View := ltrim (rtrim o)

/-- The pieces that repeated `std::getline` calls extract. What stands after the last
delimiter is a piece only when it is not empty. -/
def getlines (delim : Char) : Str → List Str
  | [] => []
  | c :: cs =>
      if c = delim then [] :: getlines delim cs
      else
        match getlines delim cs with
        | [] => [[c]]
        | item :: items => (c :: item) :: items

/-- `split`: the stream is built from the pointer. -/
def split (s : View) (delim : Char) : List Str := getlines delim s.cStr

/-- `snake_case`. -/
def snakeCase (name : Str) : Str := name.map fun ch => if ch = '-' then '_' else ch

/-- `string_format::s`: the offset is a `uint8_t`. -/
def s (msg : Str) (offs : Nat) : Str := blanks (offs % 256) ++ msg

/-- `string_format::sl`. -/
def sl (msg : Str) (offs : Nat := 0) : Str := s msg offs ++ ['\n']

/-- `fmt::format(fg(fmt::color::crimson), …)`. -/
def crimson (msg : Str) : Str :=
  '\x1b' :: ("[38;2;220;020;060m" ++ msg ++ ['\x1b'] ++ "[0m")

/-! ## Lines -/

theorem notMem_of_mem_getlines {delim : Char} {t l : Str} (h : l ∈ getlines delim t) :
    delim ∉ l := by
  induction t generalizing l with
  | nil => cases h
  | cons c t ih =>
      rw [getlines] at h
      split at h
      · rcases List.mem_cons.mp h with rfl | h
        · simp
        · exact ih h
      · next hc =>
          cases hg : getlines delim t with
          | nil =>
              rw [hg] at h
              obtain rfl := List.mem_singleton.mp h
              simpa using Ne.symm hc
          | cons item items =>
              rw [hg] at h ih
              rcases List.mem_cons.mp h with rfl | h
              · have := ih List.mem_cons_self
                simpa [Ne.symm hc] using this
              · exact ih (List.mem_cons_of_mem _ h)

/-- The lines have the characters of the text that are not delimiters. -/
theorem forall_getlines {delim : Char} {p : Char → Prop} (t : Str) :
    (∀ l ∈ getlines delim t, ∀ c ∈ l, p c) ↔ ∀ c ∈ t, c ≠ delim → p c := by
  induction t with
  | nil => simp [getlines]
  | cons c t ih =>
      rw [getlines, List.forall_mem_cons, ← ih]
      split
      · next hc => simp [hc]
      · next hc =>
        cases getlines delim t with
        | nil => simp [hc]
        | cons item items => simp [hc, and_assoc]

theorem getlines_of_notMem {delim : Char} {item : Str} (hne : item ≠ []) (h : delim ∉ item) :
    getlines delim item = [item] := by
  induction item with
  | nil => exact absurd rfl hne
  | cons c cs ih =>
      obtain ⟨hc, hcs⟩ := not_or.mp (mt List.mem_cons.mpr h)
      rw [getlines, if_neg (Ne.symm hc)]
      by_cases hnil : cs = []
      · subst hnil
        rfl
      · rw [ih hnil hcs]

theorem getlines_append {delim : Char} {item : Str} (h : delim ∉ item) (rest : Str) :
    getlines delim (item ++ delim :: rest) = item :: getlines delim rest := by
  induction item with
  | nil => exact if_pos rfl
  | cons c cs ih =>
      obtain ⟨hc, hcs⟩ := not_or.mp (mt List.mem_cons.mpr h)
      rw [List.cons_append, getlines, if_neg (Ne.symm hc), ih hcs]

/-- Items that are not empty are the pieces of the text they make. -/
theorem getlines_joinWith {delim : Char} {items : List Str}
    (h : ∀ item ∈ items, item ≠ [] ∧ delim ∉ item) :
    getlines delim (joinWith [delim] items) = items := by
  induction items with
  | nil => rfl
  | cons item rest ih =>
      obtain ⟨⟨hne, hitem⟩, hrest⟩ := List.forall_mem_cons.mp h
      cases rest with
      | nil => exact getlines_of_notMem hne hitem
      | cons item' rest =>
          rw [joinWith, List.append_assoc, List.singleton_append, getlines_append hitem, ih hrest]

/-! ## Trimming -/

private theorem isspace_of_mem_takeWhile {t : Str} {c : Char} (h : c ∈ t.takeWhile isspace) :
    isspace c = true :=
  List.all_eq_true.mp List.all_takeWhile c h

/-- Trimming takes only blanks away, on the left and on the right. -/
theorem trim_spec (t : Str) :
    ∃ left right, t = left ++ (trim (View.ofStr t)).toStr ++ right ∧
      (∀ c ∈ left, isspace c = true) ∧ ∀ c ∈ right, isspace c = true := by
  have hr : t = (rtrim (View.ofStr t)).toStr ++ (t.reverse.takeWhile isspace).reverse := by
    have h := congrArg List.reverse (List.takeWhile_append_dropWhile (p := isspace) (l := t.reverse))
    rw [List.reverse_append, List.reverse_reverse] at h
    have hlen : (rtrim (View.ofStr t)).toStr = (t.reverse.dropWhile isspace).reverse := by
      change t.take ((View.ofStr t).toStr.reverse.dropWhile isspace).length = _
      rw [View.toStr_ofStr, ← List.length_reverse]
      conv => lhs; arg 2; rw [← h]
      exact List.take_left
    rw [hlen, h]
  have hl : (rtrim (View.ofStr t)).toStr =
      (rtrim (View.ofStr t)).toStr.takeWhile isspace ++ (trim (View.ofStr t)).toStr := by
    have h := List.takeWhile_append_dropWhile (p := isspace) (l := (rtrim (View.ofStr t)).toStr)
    have hdrop : (trim (View.ofStr t)).toStr = (rtrim (View.ofStr t)).toStr.dropWhile isspace := by
      unfold trim ltrim View.toStr
      rw [← List.drop_take]
      change List.drop _ (rtrim (View.ofStr t)).toStr = _
      conv => lhs; arg 2; rw [← h]
      exact List.drop_left
    rw [hdrop, h]
  refine ⟨(rtrim (View.ofStr t)).toStr.takeWhile isspace,
    (t.reverse.takeWhile isspace).reverse, ?_, ?_, ?_⟩
  · rw [← hl]
    exact hr
  · intro c hc
    exact isspace_of_mem_takeWhile hc
  · intro c hc
    exact isspace_of_mem_takeWhile (List.mem_reverse.mp hc)

end Dbgen3.Generator
