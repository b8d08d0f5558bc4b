import Dbgen3.Exceptions
import Dbgen3.Lib.Hex

/-!
# Byte sequences as text

`serialize<cbstr_t>` takes the high half of a byte as an index without shifting
it. For bytes below sixteen it is zero; for every other byte it is past the
digits. The last blank is removed also where there is none.
-/

namespace Dbgen3.Runtime

open Text

/-- `tbl`: `std::to_array` keeps the terminator of the literal. -/
def tbl : List Char := Hex.digits ++ ['\x00']

/-- `high`. -/
def highIndex (el : UInt8) : UInt8 := 0xf0 &&& el

/-- `low`. -/
def lowIndex (el : UInt8) : UInt8 := 0x0f &&& el

/-- The two characters of a byte; reading past the table is undefined. -/
def encodeByte (el : UInt8) : Option Str := do
  let high ← tbl[(highIndex el).toNat]?
  let low ← tbl[(lowIndex el).toNat]?
  pure [high, low]

/-- The loop of `serialize<cbstr_t>` on the text `s`. -/
def serializeFrom (s : Str) : List UInt8 → Option Str
  | [] => some s
  | el :: rest => do
      let word ← encodeByte el
      serializeFrom (s ++ (word ++ [' '])) rest

/-- `serialize<cbstr_t>`. -/
def serializeBstr (val : List UInt8) : Option Str := do
  let s ← serializeFrom ['\x27'] val
  pure (s.take (s.length - 1) ++ ['\x27'])

/-! ## One byte -/

theorem highIndex_toNat (el : UInt8) : (highIndex el).toNat = 16 * (el.toNat / 16) := by
  have hall : ∀ n : Fin 256, (highIndex (UInt8.ofNat n)).toNat = 16 * (n / 16 : Nat) := by
    decide +kernel
  have h := hall ⟨el.toNat, el.toNat_lt⟩
  rwa [UInt8.ofNat_toNat] at h

theorem lowIndex_toNat (el : UInt8) : (lowIndex el).toNat = el.toNat % 16 := by
  have hall : ∀ n : Fin 256, (lowIndex (UInt8.ofNat n)).toNat = (n % 16 : Nat) := by
    decide +kernel
  have h := hall ⟨el.toNat, el.toNat_lt⟩
  rwa [UInt8.ofNat_toNat] at h

theorem tbl_getElem? {n : Nat} (h : n < 16) : tbl[n]? = some (Hex.digit n) := by
  have hall : ∀ n : Fin 16, tbl[(n : Nat)]? = some (Hex.digit n) := by decide
  exact hall ⟨n, h⟩

/-- A byte whose high half is zero gets its digits. -/
theorem encodeByte_of_lt {el : UInt8} (h : el.toNat < 16) : encodeByte el = some (Hex.pair el) := by
  have hdiv : el.toNat / 16 = 0 := by omega
  unfold encodeByte Hex.pair
  rw [highIndex_toNat, lowIndex_toNat, hdiv, tbl_getElem? (by omega), tbl_getElem? (by omega)]
  rfl

/-- Any other gets the terminator, or nothing. -/
theorem nul_mem_of_encodeByte {el : UInt8} (h : ¬ el.toNat < 16) {word : Str}
    (hword : encodeByte el = some word) : '\x00' ∈ word := by
  unfold encodeByte at hword
  rw [highIndex_toNat, lowIndex_toNat, tbl_getElem? (Nat.mod_lt _ (by decide))] at hword
  by_cases hhigh : el.toNat / 16 = 1
  · rw [hhigh] at hword
    obtain rfl : ['\x00', Hex.digit (el.toNat % 16)] = word := Option.some.inj hword
    exact List.mem_cons_self
  · have hnone : tbl[16 * (el.toNat / 16)]? = none := by
      refine List.getElem?_eq_none ?_
      have hlength : tbl.length = 17 := rfl
      omega
    rw [hnone] at hword
    cases hword

/-! ## A sequence -/

theorem serializeFrom_eq (s : Str) (val : List UInt8) :
    serializeFrom s val =
      (val.mapM encodeByte).map fun words => s ++ words.flatMap fun w => w ++ [' '] := by
  induction val generalizing s with
  | nil => simp [serializeFrom]
  | cons el rest ih =>
      rw [serializeFrom, List.mapM_cons]
      cases hel : encodeByte el with
      | none => rfl
      | some word =>
          cases hrest : rest.mapM encodeByte with
          | none => simp [ih, hrest]
          | some words => simp [ih, hrest]

theorem serializeBstr_nil : serializeBstr [] = some ['\x27'] := rfl

theorem serializeBstr_cons (el : UInt8) (rest : List UInt8) :
    serializeBstr (el :: rest) =
      ((el :: rest).mapM encodeByte).map fun words =>
        "\x27" ++ Hex.separated ' ' words ++ "\x27" := by
  unfold serializeBstr
  rw [serializeFrom_eq, List.mapM_cons]
  cases hel : encodeByte el with
  | none => rfl
  | some word =>
      cases hrest : rest.mapM encodeByte with
      | none => rfl
      | some words =>
          have hne : (word :: words) ≠ [] := List.cons_ne_nil word words
          have htext : ((word :: words).flatMap fun w => w ++ [' ']) ≠ [] := by simp
          change some (List.take _ (['\x27'] ++ (word :: words).flatMap fun w => w ++ [' ']) ++ _) = _
          rw [← List.dropLast_eq_take, List.dropLast_append_of_ne_nil htext,
            Hex.dropLast_flatMap ' ' hne]
          rfl

/-- Past the terminator there is no character for the high half. -/
theorem encodeByte_isSome_iff (el : UInt8) : (encodeByte el).isSome = true ↔ el.toNat < 32 := by
  have hlength : tbl.length = 17 := rfl
  unfold encodeByte
  rw [highIndex_toNat, lowIndex_toNat, tbl_getElem? (Nat.mod_lt _ (by decide))]
  by_cases hlt : el.toNat < 32
  · have hhigh : 16 * (el.toNat / 16) < tbl.length := by omega
    rw [List.getElem?_eq_getElem hhigh]
    exact iff_of_true rfl hlt
  · have hhigh : tbl.length ≤ 16 * (el.toNat / 16) := by omega
    rw [List.getElem?_eq_none hhigh]
    exact iff_of_false (fun h => by cases h) hlt

theorem mapM_encodeByte_isSome_iff (val : List UInt8) :
    (val.mapM encodeByte).isSome = true ↔ ∀ el ∈ val, el.toNat < 32 := by
  induction val with
  | nil => exact iff_of_true rfl (List.forall_mem_nil _)
  | cons el rest ih =>
      rw [List.mapM_cons, List.forall_mem_cons, ← encodeByte_isSome_iff, ← ih]
      cases encodeByte el with
      | none => exact iff_of_false (fun h => by cases h) (fun h => by cases h.1)
      | some word =>
          cases rest.mapM encodeByte with
          | none => exact iff_of_false (fun h => by cases h) (fun h => by cases h.2)
          | some words => exact iff_of_true rfl ⟨rfl, rfl⟩

/-- A text there is exactly where no byte leads past the table. -/
theorem serializeBstr_isSome_iff (val : List UInt8) :
    (serializeBstr val).isSome = true ↔ ∀ el ∈ val, el.toNat < 32 := by
  unfold serializeBstr
  rw [serializeFrom_eq, ← mapM_encodeByte_isSome_iff]
  cases val.mapM encodeByte with
  | none => exact Iff.rfl
  | some words => exact iff_of_true rfl rfl

/-- Every text starts with a quote. -/
theorem head_serializeBstr {val : List UInt8} {text : Str} (h : serializeBstr val = some text) :
    ∃ rest, text = '\x27' :: rest := by
  cases val with
  | nil =>
      obtain rfl := Option.some.inj h
      exact ⟨[], rfl⟩
  | cons el rest =>
      rw [serializeBstr_cons] at h
      obtain ⟨words, -, rfl⟩ := Option.map_eq_some_iff.mp h
      exact ⟨_, rfl⟩

theorem mapM_encodeByte {val : List UInt8} (h : ∀ el ∈ val, el.toNat < 16) :
    val.mapM encodeByte = some (val.map Hex.pair) := by
  induction val with
  | nil => rfl
  | cons el rest ih =>
      obtain ⟨hel, hrest⟩ := List.forall_mem_cons.mp h
      rw [List.mapM_cons, encodeByte_of_lt hel, ih hrest]
      rfl

theorem exists_nul_of_mapM {val : List UInt8} {words : List Str}
    (hwords : val.mapM encodeByte = some words) {el : UInt8} (hel : el ∈ val)
    (h : ¬ el.toNat < 16) : ∃ w ∈ words, '\x00' ∈ w := by
  induction val generalizing words with
  | nil => cases hel
  | cons el' rest ih =>
      rw [List.mapM_cons] at hwords
      obtain ⟨word, hword, hwords⟩ := Option.bind_eq_some_iff.mp hwords
      obtain ⟨words', hrest, hwords⟩ := Option.bind_eq_some_iff.mp hwords
      obtain rfl : word :: words' = words := Option.some.inj hwords
      rcases List.mem_cons.mp hel with rfl | hmem
      · exact ⟨word, List.mem_cons_self, nul_mem_of_encodeByte h hword⟩
      · obtain ⟨w, hw, hnul⟩ := ih hrest hmem
        exact ⟨w, List.mem_cons_of_mem word hw, hnul⟩

/-- The text of a byte sequence between quotes. -/
def quoted (val : List UInt8) : Str := "\x27" ++ Hex.text ' ' val ++ "\x27"

/-- The bytes of a text between quotes. -/
def unquoted (t : Str) : Option (List UInt8) := Hex.decode ' ' (t.drop 1).dropLast

theorem unquoted_quoted (val : List UInt8) : unquoted (quoted val) = some val := by
  have hinner : ((quoted val).drop 1).dropLast = Hex.text ' ' val :=
    List.dropLast_concat
  unfold unquoted
  rw [hinner, Hex.decode_text]

theorem serializeBstr_of_lt {val : List UInt8} (hne : val ≠ []) (h : ∀ el ∈ val, el.toNat < 16) :
    serializeBstr val = some (quoted val) := by
  cases val with
  | nil => exact absurd rfl hne
  | cons el rest =>
      rw [serializeBstr_cons, mapM_encodeByte h]
      rfl

/-- Only the sequence itself has its digits between quotes as its text. -/
theorem eq_of_serializeBstr_eq {val val' : List UInt8}
    (h : serializeBstr val' = some (quoted val)) : val' = val := by
  cases val' with
  | nil =>
      rw [serializeBstr_nil] at h
      have hlength := congrArg List.length (Option.some.inj h)
      simp [quoted] at hlength
  | cons el rest =>
      rw [serializeBstr_cons] at h
      obtain ⟨words, hwords, htext⟩ := Option.map_eq_some_iff.mp h
      have hinner : Hex.separated ' ' words = Hex.text ' ' val := by
        simpa [quoted] using htext
      have hlt : ∀ el' ∈ el :: rest, el'.toNat < 16 := by
        intro el' hel'
        by_contra hge
        obtain ⟨w, hw, hnul⟩ := exists_nul_of_mapM hwords hel' hge
        have hmem := Hex.mem_separated ' ' hw hnul
        rw [hinner] at hmem
        rcases Hex.eq_or_mem_digits_of_mem_text ' ' hmem with heq | hdigit
        · exact absurd heq (by decide)
        · exact absurd hdigit (by decide)
      rw [mapM_encodeByte hlt] at hwords
      obtain rfl := Option.some.inj hwords
      exact Hex.text_injective ' ' hinner

/-! ## The encoding -/

/-- The text of `val` is its digits between quotes, from which `val` is read back, every
index is that of a digit, and no other sequence has the same text. -/
structure EncodesBytes (val : List UInt8) : Prop where
  indices : ∀ el ∈ val, (highIndex el).toNat < 16 ∧ (lowIndex el).toNat < 16
  text_eq : serializeBstr val = some (quoted val)
  decodes : (serializeBstr val).bind unquoted = some val
  distinct : ∀ val', serializeBstr val' = serializeBstr val → val' = val

/-- A sequence is encoded exactly when it is not empty and has only bytes below sixteen. -/
theorem encodesBytes_iff (val : List UInt8) :
    EncodesBytes val ↔ val ≠ [] ∧ ∀ el ∈ val, el.toNat < 16 := by
  constructor
  · intro h
    constructor
    · rintro rfl
      have htext := h.text_eq
      rw [serializeBstr_nil] at htext
      exact absurd (Option.some.inj htext) (by decide)
    · intro el hel
      obtain ⟨hhigh, -⟩ := h.indices el hel
      rw [highIndex_toNat] at hhigh
      omega
  · rintro ⟨hne, hlt⟩
    have htext := serializeBstr_of_lt hne hlt
    refine ⟨?_, htext, ?_, ?_⟩
    · intro el hel
      have hel := hlt el hel
      rw [highIndex_toNat, lowIndex_toNat]
      omega
    · rw [htext]
      exact unquoted_quoted val
    · intro val' heq
      exact eq_of_serializeBstr_eq (heq.trans htext)

/-- Sixteen gets the terminator of the table in the place of its high digit. -/
theorem not_encodesBytes_sixteen : ¬ EncodesBytes [16] := by
  intro h
  obtain ⟨hhigh, -⟩ := h.indices 16 List.mem_cons_self
  exact absurd hhigh (by decide)

end Dbgen3.Runtime
