/-!
# Text as lists of characters

Padding and decimal rendering as the usual string formatters do them. Lists
keep every definition computable and every proof an induction.
-/

/-- A text is the list of its characters. -/
abbrev Str := List Char

instance : Coe String Str := ⟨String.toList⟩

instance : HAppend Str String Str := ⟨fun s lit => s ++ lit.toList⟩

instance : HAppend String Str Str := ⟨fun lit s => lit.toList ++ s⟩

namespace Text

@[simp] theorem append_literal (s : Str) (lit : String) :
    (HAppend.hAppend s lit : Str) = s ++ lit.toList := rfl

@[simp] theorem literal_append (lit : String) (s : Str) :
    (HAppend.hAppend lit s : Str) = lit.toList ++ s := rfl

/-- `n` blanks. -/
def blanks (n : Nat) : Str := List.replicate n ' '

/-- The decimal digits of a natural number. -/
def decimal (n : Nat) : Str := Nat.toDigits 10 n

/-- The decimal rendering of an integer, with a leading minus sign below zero. -/
def intDecimal : Int → Str
  | .ofNat n => decimal n
  | .negSucc n => '-' :: decimal (n + 1)

/-- Left aligned in a field of `width` characters; longer texts are kept whole. -/
def padRight (width : Nat) (s : Str) : Str := s ++ blanks (width - s.length)

/-- Right aligned in a field of `width` characters. -/
def padLeft (width : Nat) (s : Str) : Str := blanks (width - s.length) ++ s

/-- Decimal digits, filled with zeros on the left up to `width`. -/
def zeroPadded (width n : Nat) : Str :=
  List.replicate (width - (decimal n).length) '0' ++ decimal n

/-- The texts in order with a separator between neighbours. -/
def joinWith (sep : Str) : List Str → Str
  | [] => []
  | [s] => s
  | s :: t :: rest => s ++ sep ++ joinWith sep (t :: rest)

/-- Replace the fields of a format text by the arguments, in order. -/
def format : Str → List Str → Str
  | '\x7b' :: '\x7d' :: rest, arg :: args => arg ++ format rest args
  | c :: rest, args => c :: format rest args
  | [], _ => []

private theorem ofDigitChars_zeros (k : Nat) (ds : Str) :
    Nat.ofDigitChars 10 (List.replicate k '0' ++ ds) 0 = Nat.ofDigitChars 10 ds 0 := by
  induction k with
  | zero => rfl
  | succ k ih => simpa [List.replicate_succ, Nat.ofDigitChars] using ih

/-- Zero padding never makes two numbers look alike. -/
theorem zeroPadded_injective {w m n : Nat} (h : zeroPadded w m = zeroPadded w n) : m = n := by
  have hm : Nat.ofDigitChars 10 (zeroPadded w m) 0 = m := by
    simp only [zeroPadded, ofDigitChars_zeros, decimal, Nat.ofDigitChars_ten_toDigits]
  have hn : Nat.ofDigitChars 10 (zeroPadded w n) 0 = n := by
    simp only [zeroPadded, ofDigitChars_zeros, decimal, Nat.ofDigitChars_ten_toDigits]
  rw [← hm, h, hn]

theorem isDigit_of_mem_zeroPadded {w n : Nat} {c : Char} (h : c ∈ zeroPadded w n) :
    c.isDigit := by
  rcases List.mem_append.mp h with h | h
  · obtain rfl := List.eq_of_mem_replicate h
    decide
  · exact Nat.isDigit_of_mem_toDigits (by omega) (by omega) h

theorem notMem_blanks {c : Char} (hc : c ≠ ' ') (n : Nat) : c ∉ blanks n := by
  intro h
  exact hc (List.eq_of_mem_replicate h)

theorem mem_joinWith {sep : Str} {items : List Str} {c : Char} (h : c ∈ joinWith sep items) :
    c ∈ sep ∨ ∃ item ∈ items, c ∈ item := by
  induction items with
  | nil => cases h
  | cons item rest ih =>
      cases rest with
      | nil => exact .inr ⟨item, List.mem_cons_self, h⟩
      | cons item' rest =>
          rw [joinWith, List.append_assoc] at h
          rcases List.mem_append.mp h with h | h
          · exact .inr ⟨item, List.mem_cons_self, h⟩
          · rcases List.mem_append.mp h with h | h
            · exact .inl h
            · refine (ih h).imp_right fun hitem => ?_
              obtain ⟨i, hi, hc⟩ := hitem
              exact ⟨i, List.mem_cons_of_mem _ hi, hc⟩

/-- Where the separator stands behind every item, one too many stands at the end. -/
theorem flatMap_append_sep (sep : Str) {items : List Str} (hne : items ≠ []) :
    (items.flatMap fun item => item ++ sep) = joinWith sep items ++ sep := by
  induction items with
  | nil => exact absurd rfl hne
  | cons item rest ih =>
      cases rest with
      | nil => simp [joinWith]
      | cons item' rest =>
          rw [List.flatMap_cons, ih (List.cons_ne_nil _ _), joinWith, List.append_assoc,
            List.append_assoc, List.append_assoc]

/-- A property of characters, checked one by one. -/
theorem forall_mem_of_all {p : Char → Prop} [DecidablePred p] {t : Str}
    (h : (t.all fun c => decide (p c)) = true) : ∀ c ∈ t, p c :=
  fun c hc => of_decide_eq_true (List.all_eq_true.mp h c hc)

theorem takeWhile_stop {p : Char → Bool} {l : Str} (hl : ∀ c ∈ l, p c = true) {c : Char}
    (hc : p c = false) (r : Str) : (l ++ c :: r).takeWhile p = l := by
  rw [List.takeWhile_append_of_pos hl, List.takeWhile_cons_of_neg (by simp [hc]), List.append_nil]

theorem dropWhile_stop {p : Char → Bool} {l : Str} (hl : ∀ c ∈ l, p c = true) {c : Char}
    (hc : p c = false) (r : Str) : (l ++ c :: r).dropWhile p = c :: r := by
  rw [List.dropWhile_append_of_pos hl, List.dropWhile_cons_of_neg (by simp [hc])]

end Text
