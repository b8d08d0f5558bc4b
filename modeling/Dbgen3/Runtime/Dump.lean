import Dbgen3.Runtime.Bounds
import Dbgen3.Runtime.Elements
import Dbgen3.Runtime.Serialize
import Mathlib.Data.List.Forall2

/-!
# The text of a buffer

`dump` prints one line for every attribute and hands the number of occupied rows
to `dump_all` as the number of values. There zero means all of them, so that
after a fetch without rows the values of an earlier fetch are printed.
-/

namespace Dbgen3.Runtime

open Text

/-! ## Calls with undefined behaviour -/

/-- What a call gives: a result or an exception, and nothing where its behaviour is undefined. -/
abbrev Outcome := ExceptT Exc Option

/-- A call that may throw. -/
def ofExcept {α : Type} (x : Except Exc α) : Outcome α := ExceptT.mk (some x)

/-- A call that may be undefined. -/
def ofOption {α : Type} (x : Option α) : Outcome α := ExceptT.mk (x.map .ok)

section Outcome

variable {α β : Type}

theorem outcome_pure_eq_iff {a b : α} : (pure a : Outcome α) = pure b ↔ a = b := by
  constructor
  · intro h
    exact Except.ok.inj (Option.some.inj h)
  · rintro rfl
    rfl

theorem outcome_bind_eq_pure_iff {x : Outcome α} {f : α → Outcome β} {b : β} :
    x >>= f = pure b ↔ ∃ a, x = pure a ∧ f a = pure b := by
  constructor
  · intro h
    match x, h with
    | some (.ok a), h => exact ⟨a, rfl, h⟩
    | some (.error e), h => cases h
    | none, h => cases h
  · rintro ⟨a, rfl, hb⟩
    exact hb

theorem ofExcept_eq_pure_iff {x : Except Exc α} {a : α} : ofExcept x = pure a ↔ x = .ok a :=
  ⟨fun h => Option.some.inj h, fun h => congrArg some h⟩

theorem ofOption_eq_pure_iff {x : Option α} {a : α} : ofOption x = pure a ↔ x = some a := by
  cases x with
  | none => exact iff_of_false (fun h => by cases h) (fun h => by cases h)
  | some b => exact outcome_pure_eq_iff.trans (Option.some_inj (a := b) (b := a)).symm

end Outcome

/-! ## The text of a value -/

/-- An object of an atomic type, as `serialize` sees it. `real` is a floating point number by
the text that `std::to_string` gives it, `otherClass` a class without a specialisation. -/
inductive AtomicObject
  | integer (v : Int)
  | real (text : Str)
  | date (year : Int) (month day : Nat)
  | time (hour minute second : Nat)
  | timestamp (year : Int) (month day hour minute second fraction : Nat)
  | otherClass
  deriving DecidableEq, Repr

/-- A text between single quotes. -/
def inQuotes (s : Str) : Str := "\x27" ++ s ++ "\x27"

/-- `serialize` of an object of an atomic type. -/
def serializeObject : AtomicObject → Except Exc Str
  | .integer v => .ok (inQuotes (intDecimal v))
  | .real text => .ok (inQuotes text)
  | .date year month day =>
      .ok (inQuotes (intDecimal year ++ "-" ++ decimal month ++ "-" ++ decimal day))
  | .time hour minute second =>
      .ok (inQuotes (decimal hour ++ ":" ++ decimal minute ++ ":" ++ decimal second))
  | .timestamp year month day hour minute second fraction =>
      .ok (inQuotes (intDecimal year ++ "-" ++ decimal month ++ "-" ++ decimal day ++ " " ++
        decimal hour ++ ":" ++ decimal minute ++ ":" ++ decimal second ++ "." ++
        decimal fraction))
  | .otherClass => .error (.runtimeError "fishy")

/-- `serialize<cstr_t>`. -/
def serializeCstr (val : List UInt8) : Str := inQuotes (val.map fun el => Char.ofNat el.toNat)

namespace AttrRoot

variable {n : Nat}

/-- `v_T`, `v_cstr` and `v_bstr`: the bytes of the value; a view beyond the element is
undefined. -/
def readValue (a : AttrRoot n) (ndx : Nat) : Outcome (List UInt8) := do
  let val ← ofExcept (a.value ndx)
  ofOption val

/-- The switch of `dump_all`. `objectOf` reads an object of a database type from its bytes. -/
def valueText (objectOf : Int → List UInt8 → AtomicObject) (a : AttrRoot n) (ndx : Nat) :
    Outcome Str :=
  match attrType a.dbType with
  | .atomic => do
      let bytes ← a.readValue ndx
      ofExcept (serializeObject (objectOf a.dbType bytes))
  | .string => do
      let bytes ← a.readValue ndx
      pure (serializeCstr bytes)
  | .bstring => do
      let bytes ← a.readValue ndx
      ofOption (serializeBstr bytes)
  | .unknown => throw (.runtimeError "switch error: ")

/-- The loop of `dump_all` with `k` rounds left, at index `cnt`. -/
def dumpLoop (objectOf : Int → List UInt8 → AtomicObject) (a : AttrRoot n) (cnt : Nat) (s : Str) :
    Nat → Outcome Str
  | 0 => pure s
  | k + 1 => do
      let null ← ofExcept (a.isNull cnt)
      if null then a.dumpLoop objectOf (cnt + 1) (s ++ "NULL, ") k
      else do
        let text ← a.valueText objectOf cnt
        a.dumpLoop objectOf (cnt + 1) (s ++ text ++ ", ") k

/-- `attr_root::dump_all`. -/
def dumpAll (objectOf : Int → List UInt8 → AtomicObject) (a : AttrRoot n) (msg : Str)
    (maxEl offs : Nat) : Outcome Str := do
  let maxEl := if maxEl = 0 then n else maxEl
  let s ← a.dumpLoop objectOf 0 (blanks offs ++ msg ++ "[") (min n maxEl)
  -- `s.size() - 2` is unsigned
  if s.length < 2 then throw (.stdExc .lengthError)
  else pure (s.take (s.length - 2) ++ "]")

end AttrRoot

/-! ## The text of a buffer -/

/-- A buffer with the names of its attributes, as `attr_names` gives them. -/
structure NamedBuffer extends Buffer where
  names : List Str
  names_length : names.length = attributes.length

/-- What `dump` prints in front of the attributes. -/
def Buffer.dumpHeader (b : Buffer) (msg : Str) : Outcome Str := do
  let r := msg ++ "\n" ++ "# attr:   " ++ decimal b.attributes.length ++ "\n" ++
    "# lines:  " ++ decimal b.arrSize ++ "\n" ++ "#occupied:" ++ decimal b.occupied ++ "\n"
  let r ← if b.bt = .par then do
      let tmp ← ofOption b.statusSpan
      pure (r ++ "#processed:" ++ decimal b.processed ++ "\n" ++ "status vec: " ++
        tmp.flatMap fun el => decimal el.toNat ++ " ")
    else pure r
  pure (r ++ "\n" ++ "buffer values:\n")

/-- `max_len`: the length of the longest name. -/
def maxLen (names : List Str) : Nat :=
  names.foldl (fun len el => if len < el.length then el.length else len) 0

/-- The loop of `dump` over the attributes from number `cnt` on. -/
def dumpAttributes (objectOf : Int → List UInt8 → AtomicObject) {n : Nat} (names : List Str)
    (occupied cnt : Nat) (r : Str) : List (AttrRoot n) → Outcome Str
  | [] => pure r
  | el :: rest => do
      let name ← ofOption names[cnt]?
      let line ← el.dumpAll objectOf (name ++ blanks (maxLen names - name.length)) occupied 0
      dumpAttributes objectOf names occupied (cnt + 1) (r ++ line ++ "\n") rest

/-- `buffer_root::dump`. -/
def NamedBuffer.dump (objectOf : Int → List UInt8 → AtomicObject) (b : NamedBuffer) (msg : Str) :
    Outcome Str := do
  let r ← b.dumpHeader msg
  dumpAttributes objectOf b.names b.occupied 0 r b.attributes

/-- Partners for all members of a list. -/
theorem exists_forall₂_iff {α β : Type} {R : α → β → Prop} (l : List α) :
    (∃ l', List.Forall₂ R l l') ↔ ∀ x ∈ l, ∃ y, R x y := by
  induction l with
  | nil => exact iff_of_true ⟨[], .nil⟩ (List.forall_mem_nil _)
  | cons x rest ih =>
      rw [List.forall_mem_cons, ← ih]
      constructor
      · rintro ⟨l', h⟩
        cases h with
        | cons hy hrest => exact ⟨⟨_, hy⟩, _, hrest⟩
      · rintro ⟨⟨y, hy⟩, l', hrest⟩
        exact ⟨y :: l', .cons hy hrest⟩

/-! ## One value -/

section

variable {objectOf : Int → List UInt8 → AtomicObject}

theorem head_serializeObject {v : AtomicObject} {text : Str} (h : serializeObject v = .ok text) :
    ∃ rest, text = '\x27' :: rest := by
  cases v with
  | otherClass => cases h
  | _ =>
      obtain rfl := Except.ok.inj h
      exact ⟨_, rfl⟩

theorem exists_serializeObject_iff (v : AtomicObject) :
    (∃ text, serializeObject v = .ok text) ↔ v ≠ .otherClass := by
  cases v with
  | otherClass => exact iff_of_false (fun ⟨text, h⟩ => by cases h) (fun h => h rfl)
  | _ => exact iff_of_true ⟨_, rfl⟩ (fun h => by cases h)

/-- `serialize` gives the value of an element a text: the type is known, a view stays in the
element, and no byte of a byte sequence leads past the table of digits. -/
def ValueHasText (objectOf : Int → List UInt8 → AtomicObject) (dbType len : Int)
    (bytes : List UInt8) : Prop :=
  let size := (len % 2 ^ 64).toNat
  match attrType dbType with
  | .atomic => objectOf dbType bytes ≠ .otherClass
  | .string => size ≤ bytes.length
  | .bstring => size ≤ bytes.length ∧ ∀ el ∈ bytes.take size, el.toNat < 32
  | .unknown => False

namespace AttrRoot

variable {n : Nat} {a : AttrRoot n} {i : Nat} {len : Int} {bytes : List UInt8}

/-- The text stands for element `i`. -/
inductive Shows (objectOf : Int → List UInt8 → AtomicObject) (a : AttrRoot n) (i : Nat) :
    Str → Prop
  | null (h : a.isNull i = .ok true) : Shows objectOf a i "NULL"
  | value {text : Str} (hnull : a.isNull i = .ok false)
      (h : a.valueText objectOf i = pure text) : Shows objectOf a i text

/-- Element `i` is null or has a value with a text. -/
def HasText (objectOf : Int → List UInt8 → AtomicObject) (a : AttrRoot n) (i : Nat) : Prop :=
  ∃ len bytes, a.element i = some (len, bytes) ∧
    (len ≠ sqlNullData → ValueHasText objectOf a.dbType len bytes)

theorem readValue_eq_pure_iff {val : List UInt8} :
    a.readValue i = pure val ↔ a.value i = .ok (some val) := by
  unfold readValue
  rw [outcome_bind_eq_pure_iff]
  constructor
  · rintro ⟨v, hv, hval⟩
    rw [ofExcept_eq_pure_iff.mp hv, ofOption_eq_pure_iff.mp hval]
  · intro h
    exact ⟨some val, ofExcept_eq_pure_iff.mpr h, rfl⟩

theorem readValue_of_atomic (hkind : attrType a.dbType = .atomic)
    (h : a.element i = some (len, bytes)) : a.readValue i = pure bytes :=
  readValue_eq_pure_iff.mpr (value_of_atomic hkind h)

theorem readValue_of_view_iff (hkind : attrType a.dbType ≠ .atomic)
    (h : a.element i = some (len, bytes)) (val : List UInt8) :
    a.readValue i = pure val ↔
      (len % 2 ^ 64).toNat ≤ bytes.length ∧ bytes.take (len % 2 ^ 64).toNat = val := by
  rw [readValue_eq_pure_iff, value_of_view hkind h, length_of_element h]
  split
  · next hle =>
    constructor
    · intro heq
      exact ⟨hle, Option.some.inj (Except.ok.inj heq)⟩
    · rintro ⟨-, rfl⟩
      rfl
  · next hle => exact iff_of_false (fun heq => by cases heq) (fun h => hle h.1)

/-- The switch of `dump_all` ends with a text exactly where the value has one. -/
theorem exists_valueText_iff (h : a.element i = some (len, bytes)) :
    (∃ text, a.valueText objectOf i = pure text) ↔ ValueHasText objectOf a.dbType len bytes := by
  unfold valueText ValueHasText
  cases hkind : attrType a.dbType with
  | unknown => exact iff_of_false (fun ⟨text, htext⟩ => by cases htext) (fun hf => hf)
  | atomic =>
      rw [readValue_of_atomic hkind h]
      exact (exists_congr fun _ => ofExcept_eq_pure_iff).trans (exists_serializeObject_iff _)
  | string =>
      have hview := readValue_of_view_iff (by simp [hkind]) h
      simp only [outcome_bind_eq_pure_iff, hview]
      constructor
      · rintro ⟨-, -, ⟨hle, -⟩, -⟩
        exact hle
      · intro hle
        exact ⟨_, _, ⟨hle, rfl⟩, rfl⟩
  | bstring =>
      have hview := readValue_of_view_iff (by simp [hkind]) h
      simp only [outcome_bind_eq_pure_iff, hview, ofOption_eq_pure_iff]
      rw [← serializeBstr_isSome_iff, Option.isSome_iff_exists]
      constructor
      · rintro ⟨text, -, ⟨hle, rfl⟩, htext⟩
        exact ⟨hle, text, htext⟩
      · rintro ⟨hle, text, htext⟩
        exact ⟨text, _, ⟨hle, rfl⟩, htext⟩

/-- An element is shown exactly where it has a text. -/
theorem exists_shows_iff : (∃ text, a.Shows objectOf i text) ↔ a.HasText objectOf i := by
  constructor
  · rintro ⟨text, hshows⟩
    have hi : ∃ len bytes, a.element i = some (len, bytes) := by
      unfold element
      by_cases hi : i < n
      · exact ⟨_, _, dif_pos hi⟩
      · have hnone := @atIndex_of_le Bool n i (Nat.le_of_not_lt hi) fun h => a.len[i] == sqlNullData
        cases hshows with
        | null h => exact absurd (h.symm.trans hnone) (fun h => by cases h)
        | value hnull _ => exact absurd (hnull.symm.trans hnone) (fun h => by cases h)
    obtain ⟨len, bytes, hel⟩ := hi
    refine ⟨len, bytes, hel, fun hlen => ?_⟩
    cases hshows with
    | null h =>
        rw [isNull_of_element hel] at h
        exact absurd (eq_of_beq (Except.ok.inj h)) hlen
    | value _ h => exact (exists_valueText_iff hel).mp ⟨text, h⟩
  · rintro ⟨len, bytes, hel, hvalue⟩
    have hisNull := isNull_of_element hel
    by_cases hlen : len = sqlNullData
    · exact ⟨_, .null (by rw [hisNull, hlen]; rfl)⟩
    · obtain ⟨text, htext⟩ := (exists_valueText_iff hel).mpr (hvalue hlen)
      exact ⟨text, .value (by rw [hisNull, beq_false_of_ne hlen]) htext⟩

/-- No text starts with the bracket behind the last value. -/
theorem Shows.head {text : Str} (h : a.Shows objectOf i text) :
    ∃ c rest, text = c :: rest ∧ c ≠ ']' := by
  have hquote : ∀ rest : Str, text = '\x27' :: rest → ∃ c rest, text = c :: rest ∧ c ≠ ']' :=
    fun rest heq => ⟨'\x27', rest, heq, by decide⟩
  cases h with
  | null => exact ⟨'N', _, rfl, by decide⟩
  | value _ h =>
      unfold valueText at h
      cases hkind : attrType a.dbType with
      | unknown =>
          rw [hkind] at h
          cases h
      | atomic =>
          rw [hkind] at h
          obtain ⟨val, -, htext⟩ := outcome_bind_eq_pure_iff.mp h
          obtain ⟨rest, heq⟩ := head_serializeObject (ofExcept_eq_pure_iff.mp htext)
          exact hquote rest heq
      | string =>
          rw [hkind] at h
          obtain ⟨val, -, htext⟩ := outcome_bind_eq_pure_iff.mp h
          exact hquote _ (outcome_pure_eq_iff.mp htext).symm
      | bstring =>
          rw [hkind] at h
          obtain ⟨val, -, htext⟩ := outcome_bind_eq_pure_iff.mp h
          obtain ⟨rest, heq⟩ := head_serializeBstr (ofOption_eq_pure_iff.mp htext)
          exact hquote rest heq

/-! ## One attribute -/

/-- The line has the first `k` values behind the label, with a separator between any two. -/
def ShowsFirst (objectOf : Int → List UInt8 → AtomicObject) (k : Nat) (label : Str)
    (a : AttrRoot n) (line : Str) : Prop :=
  ∃ texts, List.Forall₂ (a.Shows objectOf) (List.range k) texts ∧
    line = label ++ "[" ++ joinWith ", " texts ++ "]"

/-- The number of values `dump_all` prints of `n`: zero stands for all of them. -/
def shownCount (n maxEl : Nat) : Nat := min n (if maxEl = 0 then n else maxEl)

/-- The loop puts a separator behind every text. -/
theorem dumpLoop_eq_pure_iff (cnt k : Nat) (s r : Str) :
    a.dumpLoop objectOf cnt s k = pure r ↔
      ∃ texts, List.Forall₂ (a.Shows objectOf) (List.range' cnt k) texts ∧
        r = s ++ texts.flatMap fun text => text ++ ", " := by
  induction k generalizing cnt s with
  | zero =>
      rw [dumpLoop, outcome_pure_eq_iff]
      constructor
      · rintro rfl
        exact ⟨[], .nil, (List.append_nil s).symm⟩
      · rintro ⟨texts, hall, rfl⟩
        cases hall
        exact (List.append_nil s).symm
  | succ k ih =>
      rw [dumpLoop, outcome_bind_eq_pure_iff, List.range'_succ]
      constructor
      · rintro ⟨null, hnull, hrun⟩
        rw [ofExcept_eq_pure_iff] at hnull
        cases null with
        | true =>
            obtain ⟨texts, hall, rfl⟩ := (ih _ _).mp hrun
            exact ⟨_, .cons (.null hnull) hall, by simp⟩
        | false =>
            obtain ⟨text, htext, hrun⟩ := outcome_bind_eq_pure_iff.mp hrun
            obtain ⟨texts, hall, rfl⟩ := (ih _ _).mp hrun
            exact ⟨_, .cons (.value hnull htext) hall, by simp⟩
      · rintro ⟨texts, hall, rfl⟩
        cases hall with
        | cons hshows hall =>
            cases hshows with
            | null hnull =>
                refine ⟨true, ofExcept_eq_pure_iff.mpr hnull, ?_⟩
                exact (ih _ _).mpr ⟨_, hall, by simp⟩
            | value hnull htext =>
                refine ⟨false, ofExcept_eq_pure_iff.mpr hnull, ?_⟩
                refine outcome_bind_eq_pure_iff.mpr ⟨_, htext, ?_⟩
                exact (ih _ _).mpr ⟨_, hall, by simp⟩

/-- Behind the last value the separator is taken away again. -/
theorem trimmed_eq (label : Str) {texts : List Str} (hne : texts ≠ []) {s : Str}
    (hs : s = label ++ "[" ++ texts.flatMap fun text => text ++ ", ") :
    ¬ s.length < 2 ∧ s.take (s.length - 2) = label ++ "[" ++ joinWith ", " texts := by
  have hsep : s = (label ++ "[" ++ joinWith ", " texts) ++ ", " := by
    have htexts := flatMap_append_sep ", " hne
    rw [hs, List.append_assoc _ (joinWith ", " texts), ← htexts]
    rfl
  have hlength : s.length = (label ++ "[" ++ joinWith ", " texts).length + 2 := by
    rw [hsep]
    exact List.length_append
  constructor
  · omega
  · rw [hlength, Nat.add_sub_cancel, hsep]
    exact List.take_left

/-- What `dump_all` prints of an attribute that has elements. -/
theorem dumpAll_eq_pure_iff (hn : 1 ≤ n) (msg : Str) (maxEl offs : Nat) (line : Str) :
    a.dumpAll objectOf msg maxEl offs = pure line ↔
      a.ShowsFirst objectOf (shownCount n maxEl) (blanks offs ++ msg) line := by
  have hpos : shownCount n maxEl ≠ 0 := by
    unfold shownCount
    split <;> omega
  unfold dumpAll ShowsFirst
  rw [outcome_bind_eq_pure_iff, List.range_eq_range']
  constructor
  · rintro ⟨s, hrun, hline⟩
    obtain ⟨texts, hall, hs⟩ := (dumpLoop_eq_pure_iff _ (shownCount n maxEl) _ _).mp hrun
    have hlength := hall.length_eq
    rw [List.length_range'] at hlength
    have hne : texts ≠ [] := fun hnil => hpos (by rw [hlength, hnil]; rfl)
    obtain ⟨hlt, htake⟩ := trimmed_eq (blanks offs ++ msg) hne hs
    rw [if_neg hlt, htake] at hline
    exact ⟨texts, hall, (outcome_pure_eq_iff.mp hline).symm⟩
  · rintro ⟨texts, hall, rfl⟩
    have hlength := hall.length_eq
    rw [List.length_range'] at hlength
    have hne : texts ≠ [] := fun hnil => hpos (by rw [hlength, hnil]; rfl)
    refine ⟨_, (dumpLoop_eq_pure_iff _ _ _ _).mpr ⟨texts, hall, rfl⟩, ?_⟩
    obtain ⟨hlt, htake⟩ := trimmed_eq (blanks offs ++ msg) hne rfl
    rw [if_neg hlt, htake]

/-- There is such a line exactly where every value has a text. -/
theorem exists_showsFirst_iff (k : Nat) (label : Str) :
    (∃ line, a.ShowsFirst objectOf k label line) ↔ ∀ i < k, a.HasText objectOf i := by
  have htexts : (∃ texts, List.Forall₂ (a.Shows objectOf) (List.range k) texts) ↔
      ∀ i < k, a.HasText objectOf i := by
    rw [exists_forall₂_iff]
    simp only [List.mem_range, exists_shows_iff]
  rw [← htexts]
  constructor
  · rintro ⟨line, texts, hall, -⟩
    exact ⟨texts, hall⟩
  · rintro ⟨texts, hall⟩
    exact ⟨_, texts, hall, rfl⟩

/-- A line without values and one with values differ behind the label. -/
theorem ShowsFirst.ne_of_pos {label line line' : Str} {k : Nat} (hk : k ≠ 0)
    (h : a.ShowsFirst objectOf 0 label line) (h' : a.ShowsFirst objectOf k label line')
    (more more' : Str) : line ++ more ≠ line' ++ more' := by
  obtain ⟨texts, hall, rfl⟩ := h
  obtain ⟨texts', hall', rfl⟩ := h'
  cases hall
  obtain ⟨k, rfl⟩ := Nat.exists_eq_succ_of_ne_zero hk
  rw [List.range_succ_eq_map] at hall'
  cases hall' with
  | @cons _ text _ rest hshows _ =>
      obtain ⟨c, tail, rfl, hc⟩ := hshows.head
      obtain ⟨more'', hjoin⟩ : ∃ more'', joinWith ", " ((c :: tail) :: rest) = c :: more'' := by
        cases rest with
        | nil => exact ⟨tail, rfl⟩
        | cons text rest => exact ⟨_, rfl⟩
      intro heq
      rw [hjoin] at heq
      simp only [List.append_assoc, List.append_cancel_left_eq] at heq
      exact hc (List.cons.inj heq).1.symm

end AttrRoot

/-! ## All attributes -/

/-- A line of `dump` for an attribute with its name. -/
def NamedLine {n : Nat} (objectOf : Int → List UInt8 → AtomicObject) (width k : Nat)
    (named : Str × AttrRoot n) (line : Str) : Prop :=
  named.2.ShowsFirst objectOf k (padRight width named.1) line

/-- What the loop of `dump` prints of the attributes that are left. -/
theorem dumpAttributes_eq_pure_iff {n : Nat} (hn : 1 ≤ n) (names : List Str) (occupied : Nat)
    (attrs : List (AttrRoot n)) (cnt : Nat) (hlength : names.length = cnt + attrs.length)
    (r text : Str) :
    dumpAttributes objectOf names occupied cnt r attrs = pure text ↔
      ∃ lines, List.Forall₂ (NamedLine objectOf (maxLen names) (AttrRoot.shownCount n occupied))
          ((names.drop cnt).zip attrs) lines ∧
        text = r ++ lines.flatMap fun line => line ++ "\n" := by
  induction attrs generalizing cnt r with
  | nil =>
      rw [dumpAttributes, outcome_pure_eq_iff, List.zip_nil_right]
      constructor
      · rintro rfl
        exact ⟨[], .nil, (List.append_nil r).symm⟩
      · rintro ⟨lines, hall, rfl⟩
        cases hall
        exact (List.append_nil r).symm
  | cons el rest ih =>
      have hcnt : cnt < names.length := by
        rw [hlength, List.length_cons]
        omega
      have hrest : names.length = (cnt + 1) + rest.length := by
        rw [hlength, List.length_cons]
        omega
      rw [dumpAttributes, outcome_bind_eq_pure_iff, List.drop_eq_getElem_cons hcnt,
        List.zip_cons_cons]
      constructor
      · rintro ⟨name, hname, hrun⟩
        rw [ofOption_eq_pure_iff, List.getElem?_eq_getElem hcnt] at hname
        obtain rfl := Option.some.inj hname
        obtain ⟨line, hline, hrun⟩ := outcome_bind_eq_pure_iff.mp hrun
        obtain ⟨lines, hall, rfl⟩ := (ih _ hrest _).mp hrun
        exact ⟨line :: lines, .cons ((AttrRoot.dumpAll_eq_pure_iff hn _ _ _ _).mp hline) hall,
          by simp⟩
      · rintro ⟨lines, hall, rfl⟩
        cases hall with
        | cons hline hall =>
            refine ⟨names[cnt], ofOption_eq_pure_iff.mpr (List.getElem?_eq_getElem hcnt), ?_⟩
            refine outcome_bind_eq_pure_iff.mpr
              ⟨_, (AttrRoot.dumpAll_eq_pure_iff hn _ _ _ _).mpr hline, ?_⟩
            exact (ih _ hrest _).mpr ⟨_, hall, by simp⟩

/-- Lines without values and lines with values are different texts, where there are any. -/
theorem eq_nil_of_lines {n width k : Nat} (hk : k ≠ 0) {named : List (Str × AttrRoot n)}
    {lines lines' : List Str} (h : List.Forall₂ (NamedLine objectOf width 0) named lines)
    (h' : List.Forall₂ (NamedLine objectOf width k) named lines')
    (heq : (lines.flatMap fun line => line ++ "\n") = lines'.flatMap fun line => line ++ "\n") :
    named = [] := by
  cases h with
  | nil => rfl
  | cons hline hall =>
      cases h' with
      | cons hline' hall' =>
          simp only [List.flatMap_cons, append_literal, List.append_assoc] at heq
          exact absurd heq (hline.ne_of_pos hk hline' _ _)

namespace NamedBuffer

variable {b : NamedBuffer}

/-- There is a line for each attribute, in order. -/
def Lines (objectOf : Int → List UInt8 → AtomicObject) (b : NamedBuffer) (k : Nat)
    (lines : List Str) : Prop :=
  List.Forall₂ (NamedLine objectOf (maxLen b.names) k) (b.names.zip b.attributes) lines

/-- `dump` prints for each attribute, in order and under its name, exactly the first occupied
values: each as its text or `NULL`, with a separator between any two. -/
def DumpsOccupied (objectOf : Int → List UInt8 → AtomicObject) (b : NamedBuffer) (msg : Str) :
    Prop :=
  ∃ header lines, b.dumpHeader msg = pure header ∧ b.Lines objectOf b.occupied lines ∧
    b.dump objectOf msg = pure (header ++ lines.flatMap fun line => line ++ "\n")

theorem dump_eq_pure_iff (hn : 1 ≤ b.arrSize) (msg text : Str) :
    b.dump objectOf msg = pure text ↔
      ∃ header lines, b.dumpHeader msg = pure header ∧
        b.Lines objectOf (AttrRoot.shownCount b.arrSize b.occupied) lines ∧
        text = header ++ lines.flatMap fun line => line ++ "\n" := by
  have hlength : b.names.length = 0 + b.attributes.length := by
    rw [Nat.zero_add]
    exact b.names_length
  unfold dump
  simp only [outcome_bind_eq_pure_iff, dumpAttributes_eq_pure_iff hn _ _ _ 0 hlength,
    List.drop_zero]
  constructor
  · rintro ⟨header, hheader, lines, hall, heq⟩
    exact ⟨header, lines, hheader, hall, heq⟩
  · rintro ⟨header, lines, hheader, hall, heq⟩
    exact ⟨header, hheader, lines, hall, heq⟩

/-- The lines exist exactly where every value has a text. -/
theorem exists_lines_iff (k : Nat) :
    (∃ lines, b.Lines objectOf k lines) ↔
      ∀ a ∈ b.attributes, ∀ i < k, a.HasText objectOf i := by
  have hsnd : (b.names.zip b.attributes).map Prod.snd = b.attributes :=
    List.map_snd_zip (Nat.le_of_eq b.names_length.symm)
  unfold Lines
  rw [exists_forall₂_iff]
  conv_rhs => rw [← hsnd, List.forall_mem_map]
  exact forall₂_congr fun named _ => AttrRoot.exists_showsFirst_iff k _

/-- The front of the text exists exactly where all statuses that are read are in the buffer. -/
theorem exists_dumpHeader_iff (msg : Str) :
    (∃ header, b.dumpHeader msg = pure header) ↔ (b.bt = .par → b.processed ≤ b.arrSize) := by
  have hspan : b.statusSpan.isSome = true ↔ b.processed ≤ b.arrSize := readStatuses_isSome_iff _ _
  rw [← hspan, Option.isSome_iff_exists]
  unfold Buffer.dumpHeader
  by_cases hbt : b.bt = .par
  · simp only [if_pos hbt, outcome_bind_eq_pure_iff, ofOption_eq_pure_iff]
    constructor
    · rintro ⟨-, tmp, htmp, -⟩ -
      exact ⟨tmp, htmp⟩
    · intro h
      obtain ⟨tmp, htmp⟩ := h hbt
      exact ⟨_, tmp, htmp, _, rfl, rfl⟩
  · rw [if_neg hbt]
    exact iff_of_true ⟨_, rfl⟩ fun h => absurd h hbt

/-- Without occupied rows the other ones are printed. -/
theorem eq_nil_of_dumpsOccupied (hn : 1 ≤ b.arrSize) (hzero : b.occupied = 0) {msg : Str}
    (h : b.DumpsOccupied objectOf msg) : b.attributes = [] := by
  obtain ⟨header, lines, hheader, hlines, hdump⟩ := h
  obtain ⟨header', lines', hheader', hlines', heq⟩ := (dump_eq_pure_iff hn _ _).mp hdump
  rw [hheader, outcome_pure_eq_iff] at hheader'
  subst hheader'
  have hpos : AttrRoot.shownCount b.arrSize b.occupied ≠ 0 := by
    unfold AttrRoot.shownCount
    rw [if_pos hzero]
    omega
  rw [hzero] at hlines
  have hnil := eq_nil_of_lines hpos hlines hlines' (List.append_cancel_left heq)
  have hlength := congrArg List.length hnil
  rw [List.length_zip, b.names_length, Nat.min_self] at hlength
  exact List.eq_nil_of_length_eq_zero hlength

end NamedBuffer

end

/-! ## Two buffers -/

/-- Integers as a little-endian machine stores them. -/
def littleEndian (_ : Int) (bytes : List UInt8) : AtomicObject :=
  let v : Nat := bytes.foldr (fun el v => el.toNat + 256 * v) 0
  .integer (Int.bmod v (2 ^ (8 * bytes.length)))

/-- The numbers 7 and null. -/
def idColumn : AttrRoot 3 := ((AttrRoot.new 3 4 0 4).store 0 (some [7, 0, 0, 0])).store 1 none

/-- The texts "a" and "bc". -/
def nameColumn : AttrRoot 3 := ((AttrRoot.new 3 12 0 8).store 0 (some [97])).store 1 (some [98, 99])

/-- A result buffer for three rows with the two rows of an earlier fetch. -/
def twoRows (occupied : Nat) : NamedBuffer where
  bt := .res
  arrSize := 3
  attributes := [idColumn, nameColumn]
  occupied
  names := ["ID", "NAME"]
  names_length := rfl

end Dbgen3.Runtime
