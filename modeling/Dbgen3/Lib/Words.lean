import Dbgen3.Lib.Text

/-!
# Words of a text

The longest pieces of a list whose elements satisfy a predicate, in order. An
element outside the predicate is a break: it separates words and is in none.
-/

namespace Words

variable {α : Type} (p : α → Bool)

/-- The words of a list. -/
def words (t : List α) : List (List α) :=
  (t.splitOnP fun c => ! p c).filter fun w => ! w.isEmpty

theorem words_nil : words p [] = [] := rfl

variable {p}

/-- A break separates the words in front of it from those behind it. -/
theorem words_append_cons {c : α} (hc : p c = false) (t rest : List α) :
    words p (t ++ c :: rest) = words p t ++ words p rest := by
  unfold words
  rw [List.splitOnP_append_cons t rest (by simp [hc]), List.filter_append]

theorem words_cons {c : α} (hc : p c = false) (rest : List α) :
    words p (c :: rest) = words p rest := words_append_cons hc [] rest

/-- A list that is one word. -/
theorem words_eq_singleton {w : List α} (hne : w ≠ []) (hw : ∀ c ∈ w, p c = true) :
    words p w = [w] := by
  unfold words
  rw [List.splitOnP_eq_singleton fun c hc => by simp [hw c hc]]
  simp [hne]

/-- Breaks in front have no words. -/
theorem words_breaks_append {sep : List α} (hsep : ∀ c ∈ sep, p c = false) (t : List α) :
    words p (sep ++ t) = words p t := by
  induction sep with
  | nil => rfl
  | cons c sep ih =>
      obtain ⟨hc, hsep⟩ := List.forall_mem_cons.mp hsep
      exact (words_cons hc _).trans (ih hsep)

/-- Breaks behind have none either. -/
theorem words_append_breaks {sep : List α} (hsep : ∀ c ∈ sep, p c = false) (t : List α) :
    words p (t ++ sep) = words p t := by
  cases sep with
  | nil => rw [List.append_nil]
  | cons c sep =>
      obtain ⟨hc, hsep⟩ := List.forall_mem_cons.mp hsep
      have hnone := words_breaks_append hsep []
      rw [List.append_nil, words_nil] at hnone
      rw [words_append_cons hc, hnone, List.append_nil]

/-- Texts joined by breaks have their words in order. -/
theorem words_joinWith {p : Char → Bool} {c : Char} {sep : Str}
    (hsep : ∀ x ∈ c :: sep, p x = false) (items : List Str) :
    words p (Text.joinWith (c :: sep) items) = items.flatMap (words p) := by
  obtain ⟨hc, htail⟩ := List.forall_mem_cons.mp hsep
  induction items with
  | nil => rfl
  | cons item items ih =>
      cases items with
      | nil => simp [Text.joinWith]
      | cons item' items =>
          have hcut : Text.joinWith (c :: sep) (item :: item' :: items) =
              item ++ c :: (sep ++ Text.joinWith (c :: sep) (item' :: items)) := by
            simp [Text.joinWith]
          rw [hcut, words_append_cons hc, words_breaks_append htail, ih]
          rfl

end Words
