import Mathlib.Data.List.Basic

/-!
# Hexadecimal texts

A byte is written as two lower-case digits, high half first, and a sequence of
bytes with a separator between them. Reading the digits back gives the bytes, so
no two sequences have the same text.
-/

namespace Hex

section Separated

variable {α : Type} (sep : α)

/-- Words with a separator between them. -/
def separated : List (List α) → List α
  | [] => []
  | [w] => w
  | w :: w' :: ws => w ++ sep :: separated (w' :: ws)

/-- Words that each end in the separator, without the last one. -/
theorem dropLast_flatMap {ws : List (List α)} (hws : ws ≠ []) :
    (ws.flatMap fun w => w ++ [sep]).dropLast = separated sep ws := by
  induction ws with
  | nil => exact absurd rfl hws
  | cons w ws ih =>
      cases ws with
      | nil => simp [separated]
      | cons w' ws =>
          have hne : ((w' :: ws).flatMap fun w => w ++ [sep]) ≠ [] := by simp
          rw [List.flatMap_cons, List.dropLast_append_of_ne_nil hne, ih (by simp), separated,
            List.append_assoc, List.singleton_append]

theorem mem_separated {ws : List (List α)} {w : List α} (hw : w ∈ ws) {x : α} (hx : x ∈ w) :
    x ∈ separated sep ws := by
  induction ws with
  | nil => cases hw
  | cons v ws ih =>
      cases ws with
      | nil =>
          obtain rfl := List.mem_singleton.mp hw
          exact hx
      | cons v' ws =>
          rw [separated, List.mem_append, List.mem_cons]
          rcases List.mem_cons.mp hw with rfl | hrest
          · exact .inl hx
          · exact .inr (.inr (ih hrest))

/-- Nothing else stands in the text. -/
theorem eq_or_mem_of_mem_separated {ws : List (List α)} {x : α} (hx : x ∈ separated sep ws) :
    x = sep ∨ ∃ w ∈ ws, x ∈ w := by
  by_cases hws : ws = []
  · subst hws
    cases hx
  · rw [← dropLast_flatMap sep hws] at hx
    obtain ⟨w, hw, hx⟩ := List.mem_flatMap.mp ((List.dropLast_sublist _).subset hx)
    rcases List.mem_append.mp hx with h | h
    · exact .inr ⟨w, hw, h⟩
    · exact .inl (List.mem_singleton.mp h)

end Separated

/-- The sixteen digits. -/
def digits : List Char := "0123456789abcdef".toList

/-- The digit of a value below sixteen. -/
def digit (n : Nat) : Char := digits.getD n '0'

/-- The value of a digit. -/
def value (c : Char) : Option Nat := digits.idxOf? c

theorem value_digit {n : Nat} (h : n < 16) : value (digit n) = some n := by
  have hall : ∀ n : Fin 16, value (digit n) = some (n : Nat) := by decide
  exact hall ⟨n, h⟩

/-- The two digits of a byte. -/
def pair (b : UInt8) : List Char := [digit (b.toNat / 16), digit (b.toNat % 16)]

/-- The byte of two digits. -/
def byte (high low : Char) : Option UInt8 := do
  let h ← value high
  let l ← value low
  pure (UInt8.ofNat (16 * h + l))

theorem byte_pair (b : UInt8) :
    byte (digit (b.toNat / 16)) (digit (b.toNat % 16)) = some b := by
  have hlt := b.toNat_lt
  unfold byte
  rw [value_digit (by omega), value_digit (by omega)]
  have hsum : 16 * (b.toNat / 16) + b.toNat % 16 = b.toNat := by omega
  change some (UInt8.ofNat (16 * (b.toNat / 16) + b.toNat % 16)) = some b
  rw [hsum, UInt8.ofNat_toNat]

variable (sep : Char)

/-- The text of a sequence of bytes. -/
def text (bytes : List UInt8) : List Char := separated sep (bytes.map pair)

/-- The bytes of a text. -/
def decode : List Char → Option (List UInt8)
  | [] => some []
  | [high, low] => (byte high low).map fun b => [b]
  | high :: low :: c :: rest =>
      if c = sep then (byte high low).bind fun b => (decode rest).map (b :: ·) else none
  | _ => none

theorem decode_pair_append (b : UInt8) (rest : List Char) :
    decode sep (pair b ++ sep :: rest) = (decode sep rest).map (b :: ·) := by
  change (if sep = sep then (byte _ _).bind _ else none) = _
  rw [if_pos rfl, byte_pair, Option.bind_some]

theorem decode_text (bytes : List UInt8) : decode sep (text sep bytes) = some bytes := by
  induction bytes with
  | nil => rfl
  | cons b bytes ih =>
      cases bytes with
      | nil =>
          change (byte _ _).map _ = some [b]
          rw [byte_pair]
          rfl
      | cons b' bytes =>
          change decode sep (pair b ++ sep :: text sep (b' :: bytes)) = _
          rw [decode_pair_append, ih, Option.map_some]

theorem text_injective {bytes bytes' : List UInt8} (h : text sep bytes = text sep bytes') :
    bytes = bytes' := by
  have hdecode := decode_text sep bytes
  rw [h, decode_text] at hdecode
  exact (Option.some.inj hdecode).symm

theorem digit_mem_digits {n : Nat} (h : n < 16) : digit n ∈ digits := by
  have hall : ∀ n : Fin 16, digit n ∈ digits := by decide
  exact hall ⟨n, h⟩

theorem eq_or_mem_digits_of_mem_text {bytes : List UInt8} {c : Char} (h : c ∈ text sep bytes) :
    c = sep ∨ c ∈ digits := by
  rcases eq_or_mem_of_mem_separated sep h with rfl | ⟨w, hw, hc⟩
  · exact .inl rfl
  · obtain ⟨b, -, rfl⟩ := List.mem_map.mp hw
    have hlt := b.toNat_lt
    refine .inr ?_
    rcases List.mem_pair.mp hc with rfl | rfl
    · exact digit_mem_digits (by omega)
    · exact digit_mem_digits (by omega)

end Hex
