import Dbgen3.Generator.GenCpp
import Dbgen3.Generator.Loading
import Dbgen3.Generator.Grammar

/-!
# The allowed codes

The attribute `allowed` is a list of integers of any size. The query keeps them
as `int`, and the generated class returns them in a braced list. What a C++
compiler reads from that list is compared with what the attribute says.
-/

namespace Dbgen3.Generator

open Act Text
open Dbgen3.Runtime (Cli World Handle)

/-! ## What the attribute says -/

/-- The value of a sign and digits. -/
def signedValue (sign digits : Str) : Int :=
  if sign = ['-'] then -(Nat.ofDigitChars 10 digits 0 : Int) else Nat.ofDigitChars 10 digits 0

/-- A text is a list of integers, each behind any number of blanks, with at least one blank
between two of them. -/
inductive Denotes : Str → List Int → Prop
  | nil {t : Str} (h : ∀ c ∈ t, isspace c = true) : Denotes t []
  | cons {bs sign digits rest : Str} {vs : List Int} (hbs : ∀ c ∈ bs, isspace c = true)
      (hsign : sign ∈ [[], ['+'], ['-']]) (hne : digits ≠ []) (hdigits : ∀ c ∈ digits, c.isDigit)
      (hrest : rest = [] ∨ ∃ c r, rest = c :: r ∧ isspace c = true) (h : Denotes rest vs) :
      Denotes (bs ++ (sign ++ digits) ++ rest) (signedValue sign digits :: vs)

/-- An integer that an `int` of 32 bits holds. -/
def IsInt (v : Int) : Prop := -(2 ^ 31) ≤ v ∧ v < 2 ^ 31

instance (v : Int) : Decidable (IsInt v) := inferInstanceAs (Decidable (_ ∧ _))

/-- Every value of the attribute that the grammar admits is a list of integers. -/
theorem exists_denotes {t : Str} (h : IntegerList t) : ∃ vs, Denotes t vs := by
  obtain ⟨items, hitems, rfl⟩ := h
  -- the list with what stands in front of it is generalized over the leading blank
  have hfrom : ∀ bs : Str, (∀ c ∈ bs, isspace c = true) →
      ∃ vs, Denotes (bs ++ joinWith " " items) vs := by
    induction items with
    | nil =>
        intro bs hbs
        exact ⟨[], .nil (by simpa [joinWith] using hbs)⟩
    | cons item rest ih =>
        obtain ⟨⟨sign, digits, rfl, hsign, hne, hdigits⟩, hrest⟩ := List.forall_mem_cons.mp hitems
        intro bs hbs
        cases rest with
        | nil =>
            refine ⟨[signedValue sign digits], ?_⟩
            have hlist := Denotes.cons hbs hsign hne hdigits (.inl rfl) (.nil (by simp))
            rwa [List.append_nil] at hlist
        | cons item' rest =>
            obtain ⟨vs, hvs⟩ := ih hrest [' '] (by simp [isspace])
            refine ⟨signedValue sign digits :: vs, ?_⟩
            have hlist := Denotes.cons hbs hsign hne hdigits
              (.inr ⟨' ', joinWith " " (item' :: rest), rfl, rfl⟩) hvs
            rw [joinWith, List.append_assoc, ← List.append_assoc]
            exact hlist
  obtain ⟨vs, hvs⟩ := hfrom [] (by simp)
  exact ⟨vs, hvs⟩

/-! ## What the generated code says -/

/-- A decimal literal of C++: one that starts with a zero has no other digit. -/
def decimalLiteral (t : Str) : Option Nat :=
  if t ≠ [] ∧ t.all Char.isDigit ∧ (t.head? = some '0' → t.length = 1) then
    some (Nat.ofDigitChars 10 t 0)
  else none

/-- A clause of a braced list for `int`; a value that is not an `int` is refused. -/
def intClause (t : Str) : Option Int :=
  let v := match t with
    | '-' :: ds => (decimalLiteral ds).map fun n => -(n : Int)
    | ds => (decimalLiteral ds).map fun n => (n : Int)
  v.filter fun v => decide (IsInt v)

/-- The clauses of the braced list in a function body. -/
def bracedList (t : Str) : List Str :=
  let body := (t.dropWhile (· ≠ '\x7b')).drop 1
  let list := (body.dropWhile (· ≠ '\x7b')).drop 1
  (getlines ',' (list.takeWhile (· ≠ '\x7d'))).map fun clause => clause.dropWhile isspace

/-- The integers that the generated function returns. -/
def returnedInts (t : Str) : Option (List Int) := (bracedList t).mapM intClause

/-! ## Literals -/

theorem head_decimal_ne_zero {n : Nat} (h : 0 < n) : (decimal n).head? ≠ some '0' := by
  induction n using Nat.strong_induction_on with
  | _ n ih =>
      by_cases hlt : n < 10
      · rw [decimal, Nat.toDigits_of_lt_base hlt, List.head?_cons, ne_eq, Option.some.injEq,
          Nat.digitChar_eq_zero]
        omega
      · have hpos : 0 < n / 10 := by omega
        have hsplit := Nat.toDigits_append_toDigits (b := 10) (d := n % 10) (by omega) hpos
          (by omega)
        rw [Nat.div_add_mod] at hsplit
        rw [decimal, ← hsplit, List.head?_append_of_ne_nil]
        · exact ih (n / 10) (by omega) hpos
        · exact Nat.toDigits_ne_nil

theorem decimalLiteral_decimal (n : Nat) : decimalLiteral (decimal n) = some n := by
  have hdigits : (decimal n).all Char.isDigit = true := by
    apply List.all_eq_true.mpr
    intro c hc
    exact Nat.isDigit_of_mem_toDigits (by omega) (by omega) hc
  have hzero : (decimal n).head? = some '0' → (decimal n).length = 1 := by
    intro hhead
    have hn : n = 0 := by
      by_contra hne
      exact head_decimal_ne_zero (Nat.pos_of_ne_zero hne) hhead
    rw [hn]
    rfl
  rw [decimalLiteral, if_pos ⟨Nat.toDigits_ne_nil, hdigits, hzero⟩, decimal,
    Nat.ofDigitChars_ten_toDigits]

theorem isDigit_of_mem_decimal {n : Nat} {c : Char} (h : c ∈ decimal n) : c.isDigit :=
  Nat.isDigit_of_mem_toDigits (by omega) (by omega) h

/-- The characters of an integer in decimal. -/
theorem mem_intDecimal {v : Int} {c : Char} (h : c ∈ intDecimal v) : c = '-' ∨ c.isDigit := by
  cases v with
  | ofNat n => exact .inr (isDigit_of_mem_decimal h)
  | negSucc n =>
      rcases List.mem_cons.mp h with h | h
      · exact .inl h
      · exact .inr (isDigit_of_mem_decimal h)

theorem intDecimal_ne_nil (v : Int) : intDecimal v ≠ [] := by
  cases v with
  | ofNat n => exact Nat.toDigits_ne_nil
  | negSucc n => exact List.cons_ne_nil _ _

/-- A character that is no digit and no minus sign is not in an integer in decimal. -/
theorem notMem_intDecimal {c : Char} (hminus : c ≠ '-') (hdigit : c.isDigit = false) (v : Int) :
    c ∉ intDecimal v := by
  intro h
  rcases mem_intDecimal h with h | h
  · exact hminus h
  · rw [hdigit] at h
    cases h

/-- An `int` in decimal is a clause with its value. -/
theorem intClause_intDecimal {v : Int} (h : IsInt v) : intClause (intDecimal v) = some v := by
  have hfilter : (some v).filter (fun v => decide (IsInt v)) = some v := by
    rw [Option.filter_some, if_pos (decide_eq_true h)]
  cases v with
  | ofNat n =>
      have hmatch : intClause (decimal n) =
          ((decimalLiteral (decimal n)).map fun k => (k : Int)).filter fun v =>
            decide (IsInt v) := by
        unfold intClause
        split
        · next ds heq =>
          have hdash : '-' ∈ decimal n := by
            rw [heq]
            exact List.mem_cons_self
          have := isDigit_of_mem_decimal hdash
          cases this
        · rfl
      rw [intDecimal, hmatch, decimalLiteral_decimal]
      exact hfilter
  | negSucc n =>
      have hmatch : intClause ('-' :: decimal (n + 1)) =
          ((decimalLiteral (decimal (n + 1))).map fun k => -(k : Int)).filter fun v =>
            decide (IsInt v) := rfl
      rw [intDecimal, hmatch, decimalLiteral_decimal]
      exact hfilter

/-! ## The braced list -/

theorem joinWith_comma_blank (item : Str) (rest : List Str) :
    joinWith ", " (item :: rest) = joinWith "," (item :: rest.map (' ' :: ·)) := by
  induction rest generalizing item with
  | nil => rfl
  | cons item' rest ih =>
      have hblank : joinWith "," ((' ' :: item') :: rest.map (' ' :: ·)) =
          ' ' :: joinWith "," (item' :: rest.map (' ' :: ·)) := by
        cases rest with
        | nil => rfl
        | cons item'' rest => rfl
      calc joinWith ", " (item :: item' :: rest)
          = item ++ [','] ++ (' ' :: joinWith ", " (item' :: rest)) := by
            rw [joinWith, List.append_assoc, List.append_assoc]
            rfl
        _ = item ++ [','] ++ joinWith "," ((' ' :: item') :: rest.map (' ' :: ·)) := by
            rw [ih item', hblank]
        _ = joinWith "," (item :: (item' :: rest).map (' ' :: ·)) := rfl

/-- The clauses of a joined list without their leading blanks are its items. -/
theorem clauses_joined {items : List Str}
    (h : ∀ item ∈ items, item ≠ [] ∧ ',' ∉ item ∧ ∀ c ∈ item, isspace c = false) :
    (getlines ',' (joinWith ", " items)).map (fun clause => clause.dropWhile isspace) = items := by
  have hdrop : ∀ item : Str, (∀ c ∈ item, isspace c = false) → item.dropWhile isspace = item := by
    intro item hitem
    cases item with
    | nil => rfl
    | cons c cs =>
        exact List.dropWhile_cons_of_neg
          (by rw [hitem c List.mem_cons_self]; exact Bool.false_ne_true)
  cases items with
  | nil => rfl
  | cons item rest =>
      obtain ⟨⟨hne, hcomma, hspace⟩, hrest⟩ := List.forall_mem_cons.mp h
      have hpieces : ∀ i ∈ item :: rest.map (' ' :: ·), i ≠ [] ∧ ',' ∉ i := by
        rw [List.forall_mem_cons, List.forall_mem_map]
        refine ⟨⟨hne, hcomma⟩, ?_⟩
        intro i hi
        exact ⟨List.cons_ne_nil _ _, by simpa using (hrest i hi).2.1⟩
      rw [joinWith_comma_blank]
      change (getlines ',' (joinWith [','] (item :: rest.map (' ' :: ·)))).map _ = _
      rw [getlines_joinWith hpieces, List.map_cons, hdrop item hspace, List.map_map]
      congr 1
      conv => rhs; rw [← List.map_id rest]
      apply List.map_congr_left
      intro i hi
      have hskip : (' ' :: i).dropWhile isspace = i.dropWhile isspace :=
        List.dropWhile_cons_of_pos (by decide)
      exact hskip.trans (hdrop i (hrest i hi).2.2)

theorem isspace_of_isDigit {c : Char} (h : c.isDigit = true) : isspace c = false := by
  apply Bool.eq_false_iff.mpr
  intro hspace
  simp only [isspace, Bool.or_eq_true, beq_iff_eq] at hspace
  rcases hspace with ((((rfl | rfl) | rfl) | rfl) | rfl) | rfl <;> cases h

theorem isspace_of_mem_intDecimal {v : Int} {c : Char} (h : c ∈ intDecimal v) :
    isspace c = false := by
  rcases mem_intDecimal h with rfl | h
  · rfl
  · exact isspace_of_isDigit h

/-- The clauses that are generated are the codes. -/
theorem bracedList_defineAllowedCodes (codes : List Int) (offs : Nat) :
    bracedList (defineAllowedCodes codes offs) = codes.map intDecimal := by
  let list := joinWith ", " (codes.map intDecimal)
  let post : Str := ";\x7d //NOLINT clang-tidy(cppcoreguidelines-avoid-magic-numbers)\n".toList
  -- the text up to the brace of the body
  let pre : Str := sl "/// return codes that do not triger an exception" offs ++
    sl "std::vector<int> allowed_codes()const override" offs ++ (blanks (offs % 256) ++ "  ")
  have htext : defineAllowedCodes codes offs =
      pre ++ '\x7b' :: ("return ".toList ++ '\x7b' :: (list ++ '\x7d' :: post)) := by
    simp [defineAllowedCodes, sl, s, pre, list, post]
  have hpre : ∀ c ∈ pre, decide (c ≠ '\x7b') = true := by
    have hblank : '\x7b' ∉ blanks (offs % 256) := notMem_blanks (by decide) _
    have hnot : '\x7b' ∉ pre := by
      simp only [pre, sl, s, List.mem_append, not_or]
      exact ⟨⟨⟨⟨hblank, by decide⟩, by decide⟩, ⟨hblank, by decide⟩, by decide⟩,
        hblank, by decide⟩
    intro c hc
    exact decide_eq_true fun h => hnot (h ▸ hc)
  have hmid : ∀ c ∈ "return ".toList, decide (c ≠ '\x7b') = true := List.all_eq_true.mp rfl
  have hlist : ∀ c ∈ list, decide (c ≠ '\x7d') = true := by
    intro c hc
    apply decide_eq_true
    rintro rfl
    rcases mem_joinWith hc with h | ⟨item, hitem, h⟩
    · exact absurd h (by decide)
    · obtain ⟨v, -, rfl⟩ := List.mem_map.mp hitem
      exact notMem_intDecimal (by decide) (by decide) v h
  rw [htext, bracedList]
  have hopen : decide ('\x7b' ≠ '\x7b') = false := by decide
  have hclose : decide ('\x7d' ≠ '\x7d') = false := by decide
  simp only [dropWhile_stop hpre hopen, dropWhile_stop hmid hopen, List.drop_one,
    List.tail_cons, takeWhile_stop hlist hclose]
  apply clauses_joined
  rw [List.forall_mem_map]
  intro v _
  exact ⟨intDecimal_ne_nil v, notMem_intDecimal (by decide) (by decide) v,
    fun c hc => isspace_of_mem_intDecimal hc⟩

/-- The generated function returns its codes. -/
theorem returnedInts_defineAllowedCodes {codes : List Int} (h : ∀ v ∈ codes, IsInt v)
    (offs : Nat) : returnedInts (defineAllowedCodes codes offs) = some codes := by
  rw [returnedInts, bracedList_defineAllowedCodes]
  induction codes with
  | nil => rfl
  | cons v codes ih =>
      obtain ⟨hv, hcodes⟩ := List.forall_mem_cons.mp h
      rw [List.map_cons, List.mapM_cons, intClause_intDecimal hv, ih hcodes]
      rfl

/-! ## What the query keeps -/

/-- Reading stops at a blank text. -/
theorem readInt_blank {t : Str} (h : ∀ c ∈ t, isspace c = true) : readInt t = none := by
  have hnil : t.dropWhile isspace = [] := List.dropWhile_eq_nil_iff.mpr h
  rw [readInt, hnil]
  rfl

/-- The digits in front of a text that ends or goes on with a blank. -/
theorem takeWhile_digits {digits rest : Str} (hdigits : ∀ c ∈ digits, c.isDigit)
    (hrest : rest = [] ∨ ∃ c r, rest = c :: r ∧ isspace c = true) :
    (digits ++ rest).takeWhile Char.isDigit = digits := by
  obtain rfl | ⟨c, r, rfl, hc⟩ := hrest
  · rw [List.append_nil]
    exact List.takeWhile_eq_self_iff.mpr hdigits
  · apply takeWhile_stop hdigits
    apply Bool.eq_false_iff.mpr
    intro hdigit
    rw [isspace_of_isDigit hdigit] at hc
    cases hc

/-- The part of `iss >> number` that takes the sign. -/
def afterSign : Str → Bool × Str
  | '-' :: rest => (true, rest)
  | '+' :: rest => (false, rest)
  | rest => (false, rest)

/-- The part of `iss >> number` behind the sign. -/
def readDigits (neg : Bool) (t : Str) : Option (Int × Str) :=
  let digits := t.takeWhile Char.isDigit
  let value : Int := Nat.ofDigitChars 10 digits 0
  let number := if neg then -value else value
  if digits = [] ∨ number < -(2 ^ 31) ∨ 2 ^ 31 ≤ number then none
  else some (number, t.drop digits.length)

theorem readInt_eq (t : Str) :
    readInt t =
      readDigits (afterSign (t.dropWhile isspace)).1 (afterSign (t.dropWhile isspace)).2 := rfl

theorem afterSign_sign {sign t : Str} (hsign : sign ∈ [[], ['+'], ['-']])
    (ht : ∃ d ds, t = d :: ds ∧ d.isDigit) :
    afterSign (sign ++ t) = (decide (sign = ['-']), t) := by
  simp only [List.mem_cons, List.not_mem_nil, or_false] at hsign
  rcases hsign with rfl | rfl | rfl
  · obtain ⟨d, ds, rfl, hd⟩ := ht
    rw [List.nil_append]
    unfold afterSign
    split
    · next rest heq =>
      rw [(List.cons.inj heq).1] at hd
      cases hd
    · next rest heq =>
      rw [(List.cons.inj heq).1] at hd
      cases hd
    · rfl
  · rfl
  · rfl

/-- Digits make an integer as long as it is an `int`. -/
theorem readDigits_append {sign digits rest : Str} (hne : digits ≠ [])
    (htake : (digits ++ rest).takeWhile Char.isDigit = digits) :
    readDigits (decide (sign = ['-'])) (digits ++ rest) =
      if IsInt (signedValue sign digits) then some (signedValue sign digits, rest) else none := by
  have hdrop : (digits ++ rest).drop digits.length = rest := List.drop_left
  have hvalue : (if decide (sign = ['-']) = true then -(Nat.ofDigitChars 10 digits 0 : Int)
      else (Nat.ofDigitChars 10 digits 0 : Int)) = signedValue sign digits := by
    simp only [decide_eq_true_eq, signedValue]
  unfold readDigits
  rw [htake]
  dsimp only
  rw [hdrop, hvalue]
  by_cases hv : IsInt (signedValue sign digits)
  · obtain ⟨hlow, hhigh⟩ := id hv
    rw [if_pos hv, if_neg]
    rintro (h | h | h)
    · exact hne h
    · omega
    · omega
  · rw [if_neg hv, if_pos]
    by_contra hnot
    simp only [not_or, not_lt, not_le] at hnot
    exact hv ⟨hnot.2.1, hnot.2.2⟩

/-- One integer is read as long as it is an `int`. -/
theorem readInt_cons {bs sign digits rest : Str} (hbs : ∀ c ∈ bs, isspace c = true)
    (hsign : sign ∈ [[], ['+'], ['-']]) (hne : digits ≠ []) (hdigits : ∀ c ∈ digits, c.isDigit)
    (hrest : rest = [] ∨ ∃ c r, rest = c :: r ∧ isspace c = true) :
    readInt (bs ++ (sign ++ digits) ++ rest) =
      if IsInt (signedValue sign digits) then some (signedValue sign digits, rest) else none := by
  obtain ⟨d, ds, heq⟩ := List.exists_cons_of_ne_nil hne
  have hd : d.isDigit := hdigits d (heq ▸ List.mem_cons_self)
  have hfirst : (sign ++ (digits ++ rest)).dropWhile isspace = sign ++ (digits ++ rest) := by
    simp only [List.mem_cons, List.not_mem_nil, or_false] at hsign
    rcases hsign with rfl | rfl | rfl
    · rw [heq]
      exact List.dropWhile_cons_of_neg (by rw [isspace_of_isDigit hd]; exact Bool.false_ne_true)
    · exact List.dropWhile_cons_of_neg (by decide)
    · exact List.dropWhile_cons_of_neg (by decide)
  have hstart : ∃ d ds, digits ++ rest = d :: ds ∧ d.isDigit :=
    ⟨d, ds ++ rest, by rw [heq, List.cons_append], hd⟩
  rw [readInt_eq, List.append_assoc, List.append_assoc, List.dropWhile_append_of_pos hbs, hfirst,
    afterSign_sign hsign hstart]
  exact readDigits_append hne (takeWhile_digits hdigits hrest)

/-- The integers that are read are those in front of the first one that is no `int`. -/
theorem readInts_of_denotes {t : Str} {vs : List Int} (h : Denotes t vs) {fuel : Nat}
    (hfuel : t.length ≤ fuel) : readInts fuel t = vs.takeWhile fun v => decide (IsInt v) := by
  induction h generalizing fuel with
  | nil hblank =>
      cases fuel with
      | zero => rfl
      | succ fuel => rw [readInts, readInt_blank hblank, List.takeWhile_nil]
  | cons hbs hsign hne hdigits hrest h ih =>
      rename_i bs sign digits rest vs
      have hpos := List.length_pos_iff.mpr hne
      simp only [List.length_append] at hfuel
      obtain ⟨fuel, rfl⟩ : ∃ n, fuel = n + 1 := ⟨fuel - 1, by omega⟩
      rw [readInts, readInt_cons hbs hsign hne hdigits hrest]
      by_cases hint : IsInt (signedValue sign digits)
      · have hp : decide (IsInt (signedValue sign digits)) = true := decide_eq_true hint
        rw [if_pos hint, List.takeWhile_cons_of_pos (p := fun v => decide (IsInt v)) hp]
        dsimp only
        rw [ih (by omega)]
      · have hp : ¬ decide (IsInt (signedValue sign digits)) = true := by simpa using hint
        rw [if_neg hint, List.takeWhile_cons_of_neg (p := fun v => decide (IsInt v)) hp]

/-! ## A loaded query -/

theorem loadQChild_allowed {ctx : List Str} {target : Rdbms} {c c' : Collected} {n : Dom}
    (h : loadQChild ctx target c n = .ok c') : c'.q.allowed = c.q.allowed := by
  have hset : ∀ (q : GsqlQ) (b : GsqlQbufDscr), (q.setBufDscr b).allowed = q.allowed := by
    intro q b
    unfold GsqlQ.setBufDscr
    split
    · rfl
    · rfl
  cases n with
  | element name attrs children =>
      rw [loadQChild] at h
      split at h
      · obtain rfl := Except.ok.inj h
        exact hset _ _
      · split at h
        · obtain rfl := Except.ok.inj h
          exact hset _ _
        · split at h
          · obtain ⟨r, -, h⟩ := except_bind_eq_ok h
            obtain rfl := Except.ok.inj h
            rfl
          · cases h
  | text data =>
      obtain rfl := Except.ok.inj h
      rfl
  | comment =>
      obtain rfl := Except.ok.inj h
      rfl
  | cdataSection data => cases h
  | other type => cases h

theorem collect_allowed {ctx : List Str} {target : Rdbms} {children : List Dom}
    {c c' : Collected} (h : collect ctx target c children = .ok c') :
    c'.q.allowed = c.q.allowed := by
  induction children generalizing c with
  | nil =>
      obtain rfl := Except.ok.inj h
      rfl
  | cons n rest ih =>
      obtain ⟨c₁, hn, hrest⟩ := except_bind_eq_ok h
      exact (ih hrest).trans (loadQChild_allowed hn)

variable {σ : Type} {cli : Cli σ} {target : Rdbms}

theorem yields_loadQSqlsetFromDb_allowed (r : GsqlQ) (db : Handle) :
    Yields (fun q => q.allowed = r.allowed) (loadQSqlsetFromDb cli r db) := by
  have hbody : Yields (fun q => q.allowed = r.allowed) (describeQuery cli r db) :=
    yields_bind fun _ => yields_bind fun _ => yields_bind fun _ => yields_bind fun _ =>
      yields_bind fun _ => yields_bind fun _ => yields_pure rfl
  apply Yields.ite
  · exact yields_bind fun _ => (yields_bind fun _ => hbody.withCleanup).withCleanup
  · exact yields_pure rfl

/-- A loaded query has the codes of its attribute. -/
theorem yields_loadQ_allowed (attrs : Attrs) (children : List Dom) (ndx : Nat) (ctx : List Str)
    (db : Handle) :
    Yields (fun q => q.allowed = (newQuery attrs ndx target).allowed)
      (loadQ cli attrs children ndx ctx db target) := by
  rw [loadQ_eq]
  intro w q w' h
  obtain ⟨c, w₁, hc, h⟩ := runOn_bind_eq_ok h
  rw [runOn_fromResult] at hc
  have hcollect := collect_allowed (Prod.mk.inj hc).1
  split at h
  · exact (yields_loadQSqlsetFromDb_allowed (c.q.setSqlSet c.sqlSet) db _ _ _ h).trans hcollect
  · obtain rfl := Except.ok.inj (Prod.mk.inj h).1
    exact hcollect

/-- The codes of a query with an attribute that lists integers: those in front of the first
one that is no `int`, in order. -/
theorem newQuery_allowed {attrs : Attrs} {vs : List Int}
    (h : Denotes (attrValue attrs "allowed" "") vs) (ndx : Nat) :
    (newQuery attrs ndx target).allowed =
      (vs.takeWhile fun v => decide (IsInt v)).insertionSort (· ≤ ·) := by
  rw [newQuery, GsqlQ.setAllowed, List.nil_append, readInts_of_denotes h (Nat.le_refl _)]

/-- What the grammar admits for the attribute is a list of integers, and the generated list is the
sorted list of them exactly when each of them is an `int`. -/
theorem returnedInts_loadQ_iff {attrs : Attrs} {children : List Dom} {ndx : Nat}
    {ctx : List Str} {db : Handle} {w w' : World σ} {q : GsqlQ}
    (hq : runOn (loadQ cli attrs children ndx ctx db target) w = (.ok q, w')) (offs : Nat) :
    (IntegerList (attrValue attrs "allowed" "") →
        ∃ vs, Denotes (attrValue attrs "allowed" "") vs) ∧
      ∀ vs, Denotes (attrValue attrs "allowed" "") vs →
        ((∃ l, returnedInts (defineAllowedCodes q.allowed offs) = some l ∧
            l.Pairwise (· ≤ ·) ∧ l.Perm vs) ↔ ∀ v ∈ vs, IsInt v) := by
  refine ⟨exists_denotes, fun vs hvs => ?_⟩
  let kept := vs.takeWhile fun v => decide (IsInt v)
  have hkept : ∀ v ∈ kept, IsInt v := by
    intro v hv
    exact of_decide_eq_true (List.mem_takeWhile_imp (p := fun v => decide (IsInt v)) hv)
  have hsorted : ∀ v ∈ kept.insertionSort (· ≤ ·), IsInt v := by
    intro v hv
    exact hkept v ((List.perm_insertionSort (· ≤ ·) kept).mem_iff.mp hv)
  have hallowed : q.allowed = kept.insertionSort (· ≤ ·) :=
    (yields_loadQ_allowed attrs children ndx ctx db _ _ _ hq).trans (newQuery_allowed hvs ndx)
  rw [hallowed, returnedInts_defineAllowedCodes hsorted]
  constructor
  · rintro ⟨l, hl, -, hperm⟩
    obtain rfl := Option.some.inj hl
    have hlen : kept.length = vs.length :=
      (List.perm_insertionSort (· ≤ ·) kept).length_eq.symm.trans hperm.length_eq
    have hself : kept = vs := (List.takeWhile_prefix _).eq_of_length hlen
    exact hself ▸ hkept
  · intro hall
    have hself : kept = vs :=
      List.takeWhile_eq_self_iff.mpr fun v hv => decide_eq_true (hall v hv)
    refine ⟨_, rfl, List.pairwise_insertionSort (· ≤ ·) kept, ?_⟩
    conv => rhs; rw [← hself]
    exact List.perm_insertionSort (· ≤ ·) kept

/-- The attributes of a query with allowed codes. -/
def codesOnly (allowed : Str) : Attrs := [("allowed".toList, allowed)]

theorem returnedInts_three :
    (∃ vs, Denotes (attrValue (codesOnly "3 -1 +2") "allowed" "") vs) ∧
    ((∃ l, returnedInts (defineAllowedCodes (newQuery (codesOnly "3 -1 +2") 1 .db2).allowed 4) =
        some l ∧ l.Pairwise (· ≤ ·) ∧ l.Perm [3, -1, 2]) ↔
      ∀ v ∈ [(3 : Int), -1, 2], IsInt v) := by
  have hblank : ∀ c ∈ [' '], isspace c = true := List.forall_mem_singleton.mpr rfl
  have hdigit {d : Char} (hd : d.isDigit = true) : ∀ c ∈ [d], c.isDigit :=
    List.forall_mem_singleton.mpr hd
  have htwo : Denotes " +2" [2] := @Denotes.cons [' '] ['+'] ['2'] [] [] hblank (by simp)
    (List.cons_ne_nil _ _) (hdigit rfl) (.inl rfl) (.nil (List.forall_mem_nil _))
  have hone : Denotes " -1 +2" [-1, 2] := @Denotes.cons [' '] ['-'] ['1'] " +2" [2] hblank
    (by simp) (List.cons_ne_nil _ _) (hdigit rfl) (.inr ⟨' ', ['+', '2'], rfl, rfl⟩) htwo
  have hthree : Denotes (attrValue (codesOnly "3 -1 +2") "allowed" "") [3, -1, 2] :=
    @Denotes.cons [] [] ['3'] " -1 +2" [-1, 2] (List.forall_mem_nil _) (by simp)
      (List.cons_ne_nil _ _) (hdigit rfl) (.inr ⟨' ', "-1 +2".toList, rfl, rfl⟩) hone
  have hload : runOn (loadQ Cli.silent (codesOnly "3 -1 +2") [] 1 [] 0 .db2) (World.start ()) =
      (.ok (newQuery (codesOnly "3 -1 +2") 1 .db2), World.start ()) := rfl
  have hlist : IntegerList (attrValue (codesOnly "3 -1 +2") "allowed" "") := by
    refine ⟨["3".toList, "-1".toList, "+2".toList], ?_, rfl⟩
    simp only [List.forall_mem_cons]
    exact ⟨⟨[], ['3'], rfl, by simp, List.cons_ne_nil _ _, List.all_eq_true.mp rfl⟩,
      ⟨['-'], ['1'], rfl, by simp, List.cons_ne_nil _ _, List.all_eq_true.mp rfl⟩,
      ⟨['+'], ['2'], rfl, by simp, List.cons_ne_nil _ _, List.all_eq_true.mp rfl⟩,
      List.forall_mem_nil _⟩
  obtain ⟨hexists, hiff⟩ := returnedInts_loadQ_iff hload 4
  exact ⟨hexists hlist, hiff [3, -1, 2] hthree⟩

/-- A code that is no `int` is dropped, and so is every code behind it. -/
theorem returnedInts_dropped :
    ∃ q w', runOn (loadQ Cli.silent (codesOnly "1 5000000000 2") [] 1 [] 0 .db2)
        (World.start ()) = (.ok q, w') ∧
      IntegerList "1 5000000000 2" ∧
      returnedInts (defineAllowedCodes q.allowed 4) = some [1] ∧
      ¬ ∃ l, returnedInts (defineAllowedCodes q.allowed 4) = some l ∧
        l.Pairwise (· ≤ ·) ∧ l.Perm [1, 5000000000, 2] := by
  have hkept : returnedInts
      (defineAllowedCodes (newQuery (codesOnly "1 5000000000 2") 1 .db2).allowed 4) = some [1] := by
    decide
  refine ⟨newQuery (codesOnly "1 5000000000 2") 1 .db2, World.start (), rfl, ?_, hkept, ?_⟩
  · refine ⟨["1".toList, "5000000000".toList, "2".toList], ?_, rfl⟩
    simp only [List.forall_mem_cons]
    exact ⟨⟨[], ['1'], rfl, by simp, List.cons_ne_nil _ _, List.all_eq_true.mp rfl⟩,
      ⟨[], "5000000000".toList, rfl, by simp, List.cons_ne_nil _ _, List.all_eq_true.mp rfl⟩,
      ⟨[], ['2'], rfl, by simp, List.cons_ne_nil _ _, List.all_eq_true.mp rfl⟩,
      List.forall_mem_nil _⟩
  · rintro ⟨l, hl, -, hperm⟩
    rw [hkept] at hl
    obtain rfl := Option.some.inj hl
    exact absurd hperm.length_eq (by decide)

end Dbgen3.Generator
