import Dbgen3.Generator.AllowedCodes
import Dbgen3.Generator.ArrayText
import Dbgen3.Generator.Blocks

/-!
# Declarations in the text of a class

The readers below take from a printed line the constant or the type alias that
it declares, and the names of this kind that it uses. All other lines of a
class start in another way.
-/

namespace Dbgen3.Generator

open Text
open Dbgen3.Runtime (BufType attrType ctName dbtName names_of_attrType)

/-! ## Reading a line -/

/-- A name that the three loops make: `T_`, `dec_` or `len_` and digits. -/
def isConstant (w : Str) : Bool :=
  ["T_".toList, "dec_".toList, "len_".toList].any fun p =>
    p.isPrefixOf w && ! (w.drop p.length).isEmpty && (w.drop p.length).all Char.isDigit

/-- The names of constants and aliases among the identifiers of a text. -/
def constantsIn (t : Str) : List Str := (t.splitOnP fun c => ! isIdent c).filter isConstant

def constantHead : Str := "constexpr static const uint "

def aliasHead : Str := "using "

/-- The name at the start of a text, and what stands between the equals sign and the semicolon. -/
def initialized (t : Str) : Str × Str :=
  (t.takeWhile isIdent, (((t.dropWhile isIdent).drop 3).dropWhile (· = ' ')).takeWhile (· ≠ ';'))

/-- The constant or alias that a line declares, with its value or type. -/
def declaration (line : Str) : Option (Str × Str) :=
  let text := line.dropWhile (· = ' ')
  if constantHead.isPrefixOf text then some (initialized (text.drop constantHead.length))
  else if aliasHead.isPrefixOf text then some (initialized (text.drop aliasHead.length))
  else none

/-- The constants and aliases that a line uses: in the type of an alias, or anywhere. -/
def uses (line : Str) : List Str :=
  match declaration line with
  | some d => constantsIn d.2
  | none => constantsIn line

/-! ## Names -/

theorem isConstant_of_digits {p digits : Str}
    (hp : p ∈ ["T_".toList, "dec_".toList, "len_".toList]) (hne : digits ≠ [])
    (hdigits : ∀ c ∈ digits, c.isDigit = true) : isConstant (p ++ digits) = true := by
  refine List.any_eq_true.mpr ⟨p, hp, ?_⟩
  have hfront : p.isPrefixOf (p ++ digits) = true :=
    List.isPrefixOf_iff_prefix.mpr (List.prefix_append _ _)
  have hall : digits.all Char.isDigit = true := List.all_eq_true.mpr hdigits
  rw [hfront, List.drop_left, hall]
  cases digits with
  | nil => exact absurd rfl hne
  | cons c cs => rfl

theorem zeroPadded_ne_nil (w n : Nat) : zeroPadded w n ≠ [] := by
  apply List.append_ne_nil_of_right_ne_nil
  exact Nat.toDigits_ne_nil

/-- The names that the three loops make for a position are read as such. -/
theorem isConstant_typeAlias (k : Nat) : isConstant (typeAlias k) = true :=
  isConstant_of_digits (by simp) (zeroPadded_ne_nil 2 k) fun _ => isDigit_of_mem_zeroPadded

theorem isConstant_decName (k : Nat) : isConstant (decName k) = true :=
  isConstant_of_digits (by simp) (zeroPadded_ne_nil 2 k) fun _ => isDigit_of_mem_zeroPadded

theorem isConstant_lenName (k : Nat) : isConstant (lenName k) = true :=
  isConstant_of_digits (by simp) (zeroPadded_ne_nil 2 k) fun _ => isDigit_of_mem_zeroPadded

theorem isConstant_memberName (k : Nat) : isConstant (memberName k) = false := by
  simp [isConstant, memberName]

theorem ident_lenName (k : Nat) : Ident (lenName k) :=
  (by decide : Ident "len_".toList).append (ident_zeroPadded 2 k)

theorem lenName_injective {j k : Nat} (h : lenName j = lenName k) : j = k := by
  have hdigits : zeroPadded 2 j = zeroPadded 2 k := by simpa [lenName] using h
  exact zeroPadded_injective hdigits

theorem ident_decName (k : Nat) : Ident (decName k) :=
  (by decide : Ident "dec_".toList).append (ident_zeroPadded 2 k)

theorem decName_injective {j k : Nat} (h : decName j = decName k) : j = k := by
  have hdigits : zeroPadded 2 j = zeroPadded 2 k := by simpa [decName] using h
  exact zeroPadded_injective hdigits

theorem typeAlias_injective {j k : Nat} (h : typeAlias j = typeAlias k) : j = k := by
  have hdigits : zeroPadded 2 j = zeroPadded 2 k := by simpa [typeAlias] using h
  exact zeroPadded_injective hdigits

/-! ## Identifiers of a text -/

/-- A character that is in no identifier cuts the text. -/
theorem constantsIn_append {c : Char} (hc : isIdent c = false) (t rest : Str) :
    constantsIn (t ++ c :: rest) = constantsIn t ++ constantsIn rest := by
  unfold constantsIn
  rw [List.splitOnP_append_cons t rest (by simp [hc]), List.filter_append]

theorem constantsIn_cons {c : Char} (hc : isIdent c = false) (rest : Str) :
    constantsIn (c :: rest) = constantsIn rest := constantsIn_append hc [] rest

theorem constantsIn_blanks (n : Nat) (t : Str) : constantsIn (blanks n ++ t) = constantsIn t := by
  induction n with
  | zero => rfl
  | succ n ih => exact (constantsIn_cons (by decide) _).trans ih

theorem constantsIn_ident {w : Str} (hw : Ident w) :
    constantsIn w = if isConstant w then [w] else [] := by
  unfold constantsIn
  rw [List.splitOnP_eq_singleton fun c hc => by simp [hw c hc], List.filter_singleton,
    Bool.cond_eq_ite]

theorem constantsIn_padRight {w : Str} (hw : Ident w) (n : Nat) :
    constantsIn (padRight n w) = if isConstant w then [w] else [] := by
  rw [← constantsIn_ident hw, padRight]
  cases n - w.length with
  | zero => exact congrArg constantsIn (List.append_nil w)
  | succ m =>
      have hcut := constantsIn_append (c := ' ') (by decide) w (blanks m)
      have hrest : constantsIn (blanks m) = [] := by
        rw [← List.append_nil (blanks m), constantsIn_blanks]
        rfl
      rw [hrest, List.append_nil] at hcut
      exact hcut

/-! ## Declarations of a line -/

theorem declaration_sl (msg : Str) (offs : Nat) :
    declaration (sl msg offs) = declaration (msg ++ ['\n']) := by
  have hdrop : (sl msg offs).dropWhile (· = ' ') = (msg ++ ['\n']).dropWhile (· = ' ') := by
    rw [sl, s, List.append_assoc]
    exact List.dropWhile_append_of_pos fun c hc => decide_eq_true (List.eq_of_mem_replicate hc)
  unfold declaration
  rw [hdrop]

/-- A text that starts in this way starts in no way in which declarations start. -/
def StartsOther (p : Str) : Prop :=
  (∃ c ∈ p.head?, c ≠ ' ') ∧ ¬ (p <+: constantHead ∨ constantHead <+: p) ∧
    ¬ (p <+: aliasHead ∨ aliasHead <+: p)

instance decidableFirstNotBlank (p : Str) : Decidable (∃ c ∈ p.head?, c ≠ ' ') :=
  match p with
  | [] => isFalse fun ⟨_, hc, _⟩ => by cases hc
  | c :: _ => decidable_of_iff (c ≠ ' ') (by simp)

instance : DecidablePred StartsOther := fun _ => inferInstanceAs (Decidable (_ ∧ _ ∧ _))

theorem declaration_eq_none {msg : Str} (hblank : ∃ c ∈ msg.head?, c ≠ ' ')
    (hconstant : ¬ constantHead <+: msg ++ ['\n']) (halias : ¬ aliasHead <+: msg ++ ['\n'])
    (offs : Nat) : declaration (sl msg offs) = none := by
  obtain ⟨c, hc, hblank⟩ := hblank
  obtain ⟨rest, rfl⟩ : ∃ rest, msg = c :: rest := List.head?_eq_some_iff.mp hc
  have hdrop : (c :: rest ++ ['\n']).dropWhile (· = ' ') = c :: rest ++ ['\n'] := by
    rw [List.cons_append, List.dropWhile_cons_of_neg (by simpa using hblank)]
  rw [declaration_sl]
  unfold declaration
  rw [hdrop]
  dsimp only
  rw [if_neg fun h => hconstant (List.isPrefixOf_iff_prefix.mp h),
    if_neg fun h => halias (List.isPrefixOf_iff_prefix.mp h)]

theorem declaration_of_start {p msg : Str} (h : StartsOther p) (hp : p <+: msg) (offs : Nat) :
    declaration (sl msg offs) = none := by
  obtain ⟨⟨c, hc, hblank⟩, hconstant, halias⟩ := h
  obtain ⟨p', rfl⟩ : ∃ p', p = c :: p' := List.head?_eq_some_iff.mp hc
  have hfirst : ∃ c ∈ msg.head?, c ≠ ' ' := by
    obtain ⟨rest, rfl⟩ := hp
    exact ⟨c, rfl, hblank⟩
  have hline : c :: p' <+: msg ++ ['\n'] := hp.trans (List.prefix_append _ _)
  exact declaration_eq_none hfirst
    (fun hhead => hconstant (List.prefix_or_prefix_of_prefix hline hhead))
    (fun hhead => halias (List.prefix_or_prefix_of_prefix hline hhead)) offs

/-- Behind its head a line has the name, the equals sign, blanks and the value. -/
theorem initialized_eq {name value : Str} (hname : Ident name) (hvalue : ';' ∉ value)
    (hfirst : ∃ c cs, value = c :: cs ∧ c ≠ ' ') (n : Nat) (tail : Str) :
    initialized (name ++ ' ' :: '=' :: ' ' :: (blanks n ++ (value ++ ';' :: tail))) =
      (name, value) := by
  obtain ⟨c, cs, hcons, hne⟩ := hfirst
  have hblanks : (blanks n ++ (value ++ ';' :: tail)).dropWhile (· = ' ') =
      value ++ ';' :: tail := by
    rw [hcons]
    exact dropWhile_stop (fun c hc => decide_eq_true (List.eq_of_mem_replicate hc))
      (decide_eq_false hne) _
  unfold initialized
  rw [takeWhile_stop hname (by decide), dropWhile_stop hname (by decide)]
  simp only [List.drop_succ_cons, List.drop_zero]
  rw [hblanks, takeWhile_stop (ne_of_notMem hvalue) (by decide)]

theorem dropWhile_blank_head {head : Str} (hhead : head = constantHead ∨ head = aliasHead)
    (rest : Str) : (head ++ rest).dropWhile (· = ' ') = head ++ rest := by
  rcases hhead with rfl | rfl
  · exact List.dropWhile_cons_of_neg (by decide)
  · exact List.dropWhile_cons_of_neg (by decide)

/-- The line of a constant or an alias declares it with its value. -/
theorem declaration_initialized {head name value : Str}
    (hhead : head = constantHead ∨ head = aliasHead) (hname : Ident name) (hvalue : ';' ∉ value)
    (hfirst : ∃ c cs, value = c :: cs ∧ c ≠ ' ') (n : Nat) (tail : Str) (offs : Nat) :
    declaration (sl (head ++ (name ++ ' ' :: '=' :: ' ' :: (blanks n ++ (value ++ ';' :: tail))))
      offs) = some (name, value) := by
  have htext : head ++ (name ++ ' ' :: '=' :: ' ' :: (blanks n ++ (value ++ ';' :: tail))) ++
      ['\n'] = head ++ (name ++ ' ' :: '=' :: ' ' :: (blanks n ++
        (value ++ ';' :: (tail ++ ['\n'])))) := by
    simp
  rw [declaration_sl, htext]
  unfold declaration
  rw [dropWhile_blank_head hhead]
  have hread := initialized_eq hname hvalue hfirst n (tail ++ ['\n'])
  rcases hhead with rfl | rfl
  · have hprefix : constantHead.isPrefixOf (constantHead ++ (name ++ ' ' :: '=' :: ' ' ::
        (blanks n ++ (value ++ ';' :: (tail ++ ['\n']))))) = true :=
      List.isPrefixOf_iff_prefix.mpr (List.prefix_append _ _)
    rw [if_pos hprefix, List.drop_left, hread]
  · have hprefix : aliasHead.isPrefixOf (aliasHead ++ (name ++ ' ' :: '=' :: ' ' ::
        (blanks n ++ (value ++ ';' :: (tail ++ ['\n']))))) = true :=
      List.isPrefixOf_iff_prefix.mpr (List.prefix_append _ _)
    have hother : ¬ constantHead.isPrefixOf (aliasHead ++ (name ++ ' ' :: '=' :: ' ' ::
        (blanks n ++ (value ++ ';' :: (tail ++ ['\n']))))) = true := Bool.false_ne_true
    rw [if_neg hother, if_pos hprefix, List.drop_left, hread]

/-! ## The three loops -/

/-- The lines of `define_attributes_const` for a field. -/
def constantLines (k : Nat) (el : FldDscr) (offs : Nat) : List Str :=
  match attrType el.type.code with
  | .atomic => [decLine k el offs]
  | .string => [decLine k el offs, lenLine k el offs]
  | .bstring => [lenLine k el offs]
  | .unknown => []

/-- The names that the alias of a field uses. -/
def usedByType (k : Nat) (el : FldDscr) : List Str :=
  match attrType el.type.code with
  | .atomic | .unknown => []
  | .string | .bstring => [lenName k]

/-- The names that the member of a field uses. -/
def usedByMember (k : Nat) (el : FldDscr) : List Str :=
  match attrType el.type.code with
  | .atomic | .string => [typeAlias k, decName k]
  | .bstring => [typeAlias k]
  | .unknown => []

theorem declaration_decLine (k : Nat) (el : FldDscr) (offs : Nat) :
    declaration (decLine k el offs) = some (decName k, intDecimal el.dec) := by
  have hsemicolon : ';' ∉ intDecimal el.dec := notMem_intDecimal (by decide) (by decide) _
  have hblank : ' ' ∉ intDecimal el.dec := notMem_intDecimal (by decide) (by decide) _
  obtain ⟨c, cs, hcons⟩ := List.exists_cons_of_ne_nil (intDecimal_ne_nil el.dec)
  have hfirst : ∃ c cs, intDecimal el.dec = c :: cs ∧ c ≠ ' ' :=
    ⟨c, cs, hcons, fun h => hblank (by rw [hcons, h]; exact List.mem_cons_self)⟩
  rw [← declaration_initialized (.inl rfl) (ident_decName k) hsemicolon hfirst
    (2 - (intDecimal el.dec).length) " // number of decimal places" offs]
  unfold decLine padLeft constantHead
  congr 2
  simp only [List.append_assoc, String.reduceToList, List.cons_append, List.nil_append]

theorem declaration_lenLine (k : Nat) (el : FldDscr) (offs : Nat) :
    declaration (lenLine k el offs) = some (lenName k, decimal el.width) := by
  have hdigit : ∀ c ∈ decimal el.width, c.isDigit = true := fun _ => isDigit_of_mem_decimal
  obtain ⟨c, cs, hcons⟩ : ∃ c cs, decimal el.width = c :: cs :=
    List.exists_cons_of_ne_nil Nat.toDigits_ne_nil
  have hfirst : ∃ c cs, decimal el.width = c :: cs ∧ c ≠ ' ' := by
    refine ⟨c, cs, hcons, ?_⟩
    rintro rfl
    have := hdigit ' ' (by rw [hcons]; exact List.mem_cons_self)
    cases this
  have hsemicolon : ';' ∉ decimal el.width := fun h => absurd (hdigit ';' h) (by decide)
  rw [← declaration_initialized (.inl rfl) (ident_lenName k) hsemicolon hfirst
    (2 - (decimal el.width).length) " // width of the attribute" offs]
  unfold lenLine padLeft constantHead
  congr 2
  simp only [List.append_assoc, String.reduceToList, List.cons_append, List.nil_append]

theorem ctName_spec {dbType : Int} {name : Str} (h : ctName dbType = some name) :
    (∃ c cs, name = c :: cs ∧ c ≠ ' ') ∧ ';' ∉ name ∧ constantsIn name = [] := by
  obtain ⟨d, hd, rfl⟩ := Option.map_eq_some_iff.mp h
  have hmem : d ∈ Runtime.dscr := List.mem_of_find?_eq_some hd
  have hall : ∀ d ∈ Runtime.dscr, (d.ctName.head?.any (· ≠ ' ')) = true ∧ ';' ∉ d.ctName ∧
      constantsIn d.ctName = [] := by decide
  obtain ⟨hfirst, hsemicolon, hnone⟩ := hall d hmem
  refine ⟨?_, hsemicolon, hnone⟩
  cases hname : d.ctName with
  | nil =>
      rw [hname] at hfirst
      cases hfirst
  | cons c cs =>
      rw [hname] at hfirst
      exact ⟨c, cs, rfl, by simpa using hfirst⟩

/-- The alias of a field stands for its type and uses its constant for the width at most. -/
theorem declaration_typeLine {el : FldDscr} (hel : attrType el.type.code ≠ .unknown)
    (k offs : Nat) :
    ∃ value, declaration (sl ("using " ++ typeAlias k ++ " = " ++ storedType k el) offs) =
        some (typeAlias k, value) ∧ storedType k el = value ++ ";" ∧
      constantsIn value = usedByType k el := by
  obtain ⟨name, -, hname, -⟩ := names_of_attrType hel
  obtain ⟨hfirst, hsemicolon, hnone⟩ := ctName_spec hname
  have hlen : ';' ∉ lenName k := fun h => absurd (ident_lenName k _ h) (by decide)
  have hline : ∀ value : Str, ';' ∉ value → (∃ c cs, value = c :: cs ∧ c ≠ ' ') →
      declaration (sl ("using " ++ typeAlias k ++ " = " ++ (value ++ ";")) offs) =
        some (typeAlias k, value) := by
    intro value hvalue hcons
    rw [← declaration_initialized (.inr rfl) (ident_typeAlias k) hvalue hcons 0 [] offs]
    unfold aliasHead
    congr 2
    simp only [List.append_assoc, String.reduceToList, List.cons_append, List.nil_append, blanks,
      List.replicate_zero]
  have hused : ∀ (head tail : Str) {c : Char}, constantsIn head = [] → constantsIn tail = [] →
      isIdent c = false → constantsIn (head ++ ' ' :: (lenName k ++ c :: tail)) = [lenName k] := by
    intro head tail c hhead htail hc
    rw [constantsIn_append (by decide), constantsIn_append hc, hhead, htail,
      constantsIn_ident (ident_lenName k), if_pos (isConstant_lenName k)]
    rfl
  unfold storedType usedByType
  rw [hname]
  cases h : attrType el.type.code with
  | unknown => exact absurd h hel
  | atomic => exact ⟨name, hline name hsemicolon hfirst, rfl, hnone⟩
  | string =>
      let value : Str := "std::array<char, " ++ lenName k ++ " + 1>"
      have hvalue : ("std::array<char, " ++ lenName k ++ " + 1>;" : Str) = value ++ ";" := by
        simp [value]
      refine ⟨value, ?_, hvalue, ?_⟩
      · rw [← hline value (by simp [value, hlen]) ⟨'s', _, rfl, by decide⟩, ← hvalue]
      · exact hused "std::array<char," "+ 1>" (by decide) (by decide) (by decide)
  | bstring =>
      let value : Str := "std::array<uint8_t, " ++ lenName k ++ ">"
      have hvalue : ("std::array<uint8_t, " ++ lenName k ++ ">;" : Str) = value ++ ";" := by
        simp [value]
      refine ⟨value, ?_, hvalue, ?_⟩
      · rw [← hline value (by simp [value, hlen]) ⟨'s', _, rfl, by decide⟩, ← hvalue]
      · exact hused "std::array<uint8_t," [] (by decide) (by decide) (by decide)

theorem constantsIn_sl (msg : Str) (offs : Nat) :
    constantsIn (sl msg offs) = constantsIn msg := by
  rw [sl, s, List.append_assoc, constantsIn_blanks, constantsIn_append (by decide)]
  exact List.append_nil _

theorem isConstant_dbtName {dbType : Int} {name : Str} (h : dbtName dbType = some name) :
    isConstant name = false := by
  obtain ⟨d, hd, rfl⟩ := Option.map_eq_some_iff.mp h
  have hmem : d ∈ Runtime.dscr := List.mem_of_find?_eq_some hd
  have hall : ∀ d ∈ Runtime.dscr, isConstant d.dbtName = false := by decide
  exact hall d hmem

/-- The form of all declarations of members: of the names that the loops make it has the alias
and those among the later arguments. -/
theorem constantsIn_member (k : Nat) {kind args tail dbName : Str} (hkind : constantsIn kind = [])
    (htail : constantsIn tail = []) (hdb : Ident dbName) (hconstant : isConstant dbName = false) :
    constantsIn (kind ++ '<' :: (typeAlias k ++ ',' :: (' ' :: padRight 18 dbName ++ ',' ::
      (args ++ '>' :: (' ' :: memberName k ++ '\x7b' :: tail))))) =
        typeAlias k :: constantsIn args := by
  have halias : constantsIn (typeAlias k) = [typeAlias k] := by
    rw [constantsIn_ident (ident_typeAlias k), if_pos (isConstant_typeAlias k)]
  have hname : constantsIn (' ' :: padRight 18 dbName) = [] := by
    rw [constantsIn_cons (by decide), constantsIn_padRight hdb, hconstant]
    rfl
  have hmember : constantsIn (' ' :: memberName k) = [] := by
    rw [constantsIn_cons (by decide), constantsIn_ident (ident_memberName k),
      isConstant_memberName]
    rfl
  rw [constantsIn_append (by decide), constantsIn_append (by decide),
    constantsIn_append (by decide), constantsIn_append (by decide), constantsIn_append (by decide),
    hkind, halias, hname, hmember, htail]
  simp

/-- The declaration of the member of a field uses its alias and, where it has one, its constant
for the decimal places. -/
theorem uses_attributeDecl {el : FldDscr} (hel : attrType el.type.code ≠ .unknown) (k offs : Nat) :
    ∃ line, attributeDecl k el = .ok line ∧ declaration (sl line offs) = none ∧
      uses (sl line offs) = usedByMember k el := by
  obtain ⟨-, dbName, -, hdb⟩ := names_of_attrType hel
  have hform : ∀ (kind args tail : Str) {line : Str}, line = kind ++ '<' :: (typeAlias k ++ ',' ::
      (' ' :: padRight 18 dbName ++ ',' :: (args ++ '>' :: (' ' :: memberName k ++
        '\x7b' :: tail)))) → (∃ rest, kind = 'd' :: rest) → constantsIn kind = [] →
      constantsIn tail = [] → declaration (sl line offs) = none ∧
        uses (sl line offs) = typeAlias k :: constantsIn args := by
    rintro _ args tail _ rfl ⟨rest, rfl⟩ hkind htail
    have hnone : declaration (sl ('d' :: rest ++ '<' :: (typeAlias k ++ ',' ::
        (' ' :: padRight 18 dbName ++ ',' :: (args ++ '>' :: (' ' :: memberName k ++
          '\x7b' :: tail))))) offs) = none :=
      declaration_of_start (by decide : StartsOther ['d']) ⟨_, rfl⟩ offs
    refine ⟨hnone, ?_⟩
    rw [← constantsIn_member k hkind htail (dbtName_ident hdb) (isConstant_dbtName hdb),
      ← constantsIn_sl _ offs]
    unfold uses
    rw [hnone]
  have hdec : constantsIn (decName k) = [decName k] := by
    rw [constantsIn_ident (ident_decName k), if_pos (isConstant_decName k)]
  unfold attributeDecl usedByMember
  rw [hdb, Option.getD_some]
  cases h : attrType el.type.code with
  | unknown => exact absurd h hel
  | atomic =>
      have hargs : constantsIn (" N,".toList ++ ' ' :: decName k) = [decName k] := by
        rw [constantsIn_append (by decide), hdec]
        rfl
      rw [← hargs]
      refine ⟨_, rfl, hform "db::atomic " _ "\x7d; " ?_ ⟨_, rfl⟩ (by decide) (by decide)⟩
      simp only [memberName, List.append_assoc, String.reduceToList, List.cons_append,
        List.nil_append]
  | string =>
      have hargs : constantsIn (" N,".toList ++ ' ' :: (decName k ++ ',' :: " char".toList)) =
          [decName k] := by
        rw [constantsIn_append (by decide), constantsIn_append (by decide), hdec]
        rfl
      rw [← hargs]
      refine ⟨_, rfl, hform "db::string " _ "\x7d;" ?_ ⟨_, rfl⟩ (by decide) (by decide)⟩
      simp only [memberName, List.append_assoc, String.reduceToList, List.cons_append,
        List.nil_append]
  | bstring =>
      have hargs : constantsIn " N, uint8_t".toList = [] := by decide
      rw [← hargs]
      refine ⟨_, rfl, hform "db::bstring" _ "\x7d; " ?_ ⟨_, rfl⟩ (by decide) (by decide)⟩
      simp only [memberName, List.append_assoc, String.reduceToList, List.cons_append,
        List.nil_append]

/-! ## The other lines of a class -/

/-- A printed line that declares none of the names that the loops make. -/
structure OtherLine (line : Str) : Prop where
  printed : ∃ msg offs, line = sl msg offs
  silent : ∀ d, declaration line = some d → isConstant d.1 = false

/-- A text of such lines. -/
def OtherText (text : Str) : Prop :=
  ∃ lines : List Str, text = lines.flatten ∧ ∀ l ∈ lines, OtherLine l

theorem otherLine_of_start {p msg : Str} (h : StartsOther p) (hp : p <+: msg) (offs : Nat) :
    OtherLine (sl msg offs) := by
  refine ⟨⟨msg, offs, rfl⟩, fun d hd => ?_⟩
  rw [declaration_of_start h hp] at hd
  cases hd

theorem otherText_line {line : Str} (h : OtherLine line) : OtherText line :=
  ⟨[line], (List.flatten_singleton).symm, List.forall_mem_singleton.mpr h⟩

theorem OtherText.append {t t' : Str} (h : OtherText t) (h' : OtherText t') :
    OtherText (t ++ t') := by
  obtain ⟨lines, rfl, hlines⟩ := h
  obtain ⟨lines', rfl, hlines'⟩ := h'
  exact ⟨lines ++ lines', List.flatten_append.symm, List.forall_mem_append.mpr ⟨hlines, hlines'⟩⟩

theorem otherText_flatten {texts : List Str} (h : ∀ t ∈ texts, OtherText t) :
    OtherText texts.flatten := by
  induction texts with
  | nil => exact ⟨[], rfl, List.forall_mem_nil _⟩
  | cons t texts ih =>
      obtain ⟨ht, htexts⟩ := List.forall_mem_cons.mp h
      exact ht.append (ih htexts)

theorem otherText_concat {parts : List (Except Exc Str)} {text : Str}
    (h : concat parts = .ok text) (hparts : ∀ part ∈ parts, ∀ t, part = .ok t → OtherText t) :
    OtherText text := by
  obtain ⟨texts, rfl, rfl⟩ := concat_eq_ok h
  exact otherText_flatten fun t ht => hparts _ (List.mem_map_of_mem ht) t rfl

/-- A part that is one line with such a start. -/
theorem otherText_ok {p msg t : Str} {offs : Nat} (h : StartsOther p) (hp : p <+: msg)
    (heq : (Except.ok (sl msg offs) : Except Exc Str) = .ok t) : OtherText t := by
  obtain rfl := Except.ok.inj heq
  exact otherText_line (otherLine_of_start h hp offs)

theorem startsOther_ctName {dbType : Int} {name : Str} (h : ctName dbType = some name) :
    StartsOther name := by
  obtain ⟨d, hd, rfl⟩ := Option.map_eq_some_iff.mp h
  have hmem : d ∈ Runtime.dscr := List.mem_of_find?_eq_some hd
  have hall : ∀ d ∈ Runtime.dscr, StartsOther d.ctName := by decide
  exact hall d hmem

/-- The line of an accessor starts with its return type. -/
theorem otherLine_accessor (a : Accessor) (indexed : Bool) (maxNameLen maxCtypeLen offs : Nat)
    {el : FldDscr} (hel : ctName el.type.code ≠ none) :
    OtherLine (sl (a.code indexed maxNameLen maxCtypeLen el) offs) := by
  obtain ⟨name, hname⟩ := Option.ne_none_iff_exists'.mp hel
  unfold Accessor.code Accessor.signature
  cases a with
  | isNull =>
      refine otherLine_of_start (by decide : StartsOther "bool is_null_") ?_ offs
      simp only [List.append_assoc]
      exact List.prefix_append _ _
  | setNull =>
      refine otherLine_of_start (by decide : StartsOther "void set_null_") ?_ offs
      simp only [List.append_assoc]
      exact List.prefix_append _ _
  | get =>
      refine otherLine_of_start (startsOther_ctName hname) ?_ offs
      rw [hname, Option.getD_some]
      simp only [padRight, List.append_assoc]
      exact List.prefix_append _ _
  | set =>
      refine otherLine_of_start (by decide : StartsOther "void set_") ?_ offs
      simp only [List.append_assoc]
      exact List.prefix_append _ _

theorem otherText_accessor (a : Accessor) (indexed : Bool) {flds : List FldDscr}
    (hflds : ∀ el ∈ flds, ctName el.type.code ≠ none) {maxNameLen maxCtypeLen offs : Nat} {t : Str}
    (h : a.text indexed flds maxNameLen maxCtypeLen offs = .ok t) : OtherText t := by
  rw [a.text_eq indexed hflds] at h
  obtain rfl := Except.ok.inj h
  have htitle : StartsOther "/// @brief" := by decide
  have hbracket : StartsOther "//@" := by decide
  have hstart : "/// @brief".toList <+: a.title indexed := by
    cases a <;> cases indexed <;> decide
  unfold framed
  split
  · exact ⟨[], rfl, List.forall_mem_nil _⟩
  · refine OtherText.append (.append (.append ?_ ?_) ⟨_, rfl, ?_⟩) ?_
    · exact otherText_line (otherLine_of_start htitle hstart offs)
    · exact otherText_line (otherLine_of_start hbracket (by decide) offs)
    · intro l hl
      obtain ⟨el, hel, rfl⟩ := List.mem_map.mp hl
      exact otherLine_accessor a indexed _ _ _ (hflds el hel)
    · exact otherText_line (otherLine_of_start hbracket (by decide) offs)

/-- The line of the constructor, of a class whose name has no blank. -/
theorem otherLine_ctor {cName : Str} (hname : ' ' ∉ cName) (bt : BufType) (offs : Nat) :
    OtherLine (sl ("constexpr " ++ cName ++ "() : db::buffer_root<" ++ bufTypeName bt ++ ", N>()")
      offs) := by
  have hword : ' ' ∉ cName ++ "()" := by simp [hname]
  refine ⟨⟨_, offs, rfl⟩, fun d hd => ?_⟩
  rw [declaration_eq_none ⟨'c', rfl, by decide⟩] at hd
  · cases hd
  · intro hprefix
    have hhead : constantHead = "constexpr " ++ ("static".toList ++ ' ' :: "const uint ".toList) :=
      rfl
    have hmsg : "constexpr " ++ cName ++ "() : db::buffer_root<" ++ bufTypeName bt ++ ", N>()" ++
        ['\n'] = "constexpr " ++ ((cName ++ "()") ++ ' ' :: (": db::buffer_root<" ++
          bufTypeName bt ++ ", N>()" ++ ['\n'])) := by
      simp only [List.append_assoc, String.reduceToList, List.cons_append, List.nil_append]
    rw [hhead, hmsg, List.prefix_append_right_inj] at hprefix
    obtain ⟨t, ht⟩ := hprefix
    rw [List.append_assoc, List.cons_append] at ht
    -- the first word would have to be both
    have hwords := congrArg (List.takeWhile fun c => decide (c ≠ ' ')) ht
    rw [takeWhile_stop (ne_of_notMem (by decide)) (by decide),
      takeWhile_stop (ne_of_notMem hword) (by decide)] at hwords
    have hparen : ')' ∈ "static".toList := by
      rw [hwords]
      simp
    revert hparen
    decide
  · intro hprefix
    have hfirst : ['c'] <+: aliasHead ∨ aliasHead <+: ['c'] :=
      List.prefix_or_prefix_of_prefix ⟨_, rfl⟩ hprefix
    revert hfirst
    decide

/-- A line of items starts with the first of them. -/
theorem exists_prefix_of_mem_rowLines {trailing : Str} {rows : List (List Str)}
    (hrows : ∀ row ∈ rows, row ≠ []) {l : Str} (hl : l ∈ rowLines trailing rows) :
    ∃ item ∈ rows.flatten, item <+: l := by
  have hfirst : ∀ row : List Str, row ≠ [] → ∀ more, ∃ item ∈ row,
      item <+: joinWith ", " row ++ more := by
    intro row hrow more
    obtain ⟨item, rest, rfl⟩ := List.exists_cons_of_ne_nil hrow
    refine ⟨item, List.mem_cons_self, ?_⟩
    cases rest with
    | nil => exact List.prefix_append _ _
    | cons item' rest =>
        simp only [joinWith, List.append_assoc]
        exact List.prefix_append _ _
  induction rows with
  | nil => cases hl
  | cons row rows ih =>
      obtain ⟨hrow, hrest⟩ := List.forall_mem_cons.mp hrows
      cases rows with
      | nil =>
          obtain rfl := List.mem_singleton.mp hl
          obtain ⟨item, hitem, hp⟩ := hfirst row hrow trailing
          exact ⟨item, List.mem_append_left _ hitem, hp⟩
      | cons row' rows =>
          rcases List.mem_cons.mp hl with rfl | hl
          · obtain ⟨item, hitem, hp⟩ := hfirst row hrow ",".toList
            exact ⟨item, List.mem_append_left _ hitem, hp⟩
          · obtain ⟨item, hitem, hp⟩ := ih hrest hl
            exact ⟨item, List.mem_append_right _ hitem, hp⟩

/-- Lines that list items with such a start. -/
theorem otherText_lists {p : Str} (hp : StartsOther p) {item : FldDscr → Str} {flds : List FldDscr}
    (hitem : ∀ el ∈ flds, p <+: item el) (hne : flds ≠ []) {offs : Nat} {text : Str}
    (h : Lists item offs flds text) : OtherText text := by
  obtain ⟨lines, hlines, rfl⟩ := h.wrapped hne
  obtain ⟨rows, trailing, hflat, hrows, -, rfl⟩ := hlines.rows
  refine ⟨(rowLines trailing rows).map fun l => sl l offs, rfl, fun l hl => ?_⟩
  obtain ⟨msg, hmsg, rfl⟩ := List.mem_map.mp hl
  obtain ⟨first, hfirst, hprefix⟩ := exists_prefix_of_mem_rowLines hrows hmsg
  rw [hflat] at hfirst
  obtain ⟨el, hel, rfl⟩ := List.mem_map.mp hfirst
  exact otherLine_of_start hp ((hitem el hel).trans hprefix) offs

theorem otherText_defineAttrArray {flds : List FldDscr} (hne : flds ≠ []) (maxWidth offs : Nat) :
    OtherText (defineAttrArray flds maxWidth offs) := by
  obtain ⟨rows, hrows, heq⟩ := defineAttrArray_eq flds maxWidth offs hne
  rw [heq]
  refine OtherText.append (.append (.append ?_ ?_) ?_) ?_
  · exact otherText_line (otherLine_of_start (by decide : StartsOther "attr") (by decide) offs)
  · exact otherText_line (otherLine_of_start (by decide : StartsOther "\x7b") (by decide) offs)
  · exact otherText_lists (by decide : StartsOther "&") (fun el _ => ⟨_, rfl⟩) hne hrows
  · exact otherText_line (otherLine_of_start (by decide : StartsOther "\x7d") (by decide) offs)

theorem otherText_defineAttrNameArray {flds : List FldDscr} (hne : flds ≠ [])
    (maxWidth offs : Nat) : OtherText (defineAttrNameArray flds maxWidth offs) := by
  obtain ⟨rows, hrows, heq⟩ := defineAttrNameArray_eq flds maxWidth offs hne
  rw [heq]
  refine OtherText.append (.append (.append ?_ ?_) ?_) ?_
  · refine otherText_line (otherLine_of_start
      (by decide : StartsOther "constexpr static const std::") ?_ offs)
    simp only [List.append_assoc]
    exact List.IsPrefix.trans (by decide) (List.prefix_append _ _)
  · exact otherText_line (otherLine_of_start (by decide : StartsOther "\x7b") (by decide) offs)
  · exact otherText_lists (by decide : StartsOther "\"") (fun el _ => ⟨_, rfl⟩) hne hrows
  · exact otherText_line (otherLine_of_start (by decide : StartsOther "\x7d") (by decide) offs)

/-- The alias `attr_vec_t` has none of the names. -/
theorem otherLine_attrVec (offs : Nat) :
    OtherLine (sl "  using attr_vec_t = std::vector<db::attr_root_root<N>*>;" offs) := by
  refine ⟨⟨_, offs, rfl⟩, fun d hd => ?_⟩
  rw [declaration_sl] at hd
  have hread : declaration ("  using attr_vec_t = std::vector<db::attr_root_root<N>*>;".toList ++
      ['\n']) = some ("attr_vec_t".toList, "std::vector<db::attr_root_root<N>*>".toList) := by
    decide
  rw [hread] at hd
  obtain rfl := Option.some.inj hd
  decide

theorem otherText_defineAttributeAccess (offs : Nat) : OtherText (defineAttributeAccess offs) := by
  refine OtherText.append (.append ?_ ?_) ?_
  · refine otherText_line ⟨⟨_, offs, rfl⟩, fun d hd => ?_⟩
    rw [declaration_sl] at hd
    have hread : declaration
        ("      attr_vec_t&       attributes()       override \x7breturn A_;\x7d".toList ++
          ['\n']) = none := by
      decide
    rw [hread] at hd
    cases hd
  · exact otherText_line
      (otherLine_of_start (by decide : StartsOther "const attr") (by decide) offs)
  · exact otherText_line (otherLine_of_start (by decide : StartsOther "std") (by decide) offs)

/-! ## The lines of a class -/

theorem concat_append_eq_ok {xs ys : List (Except Exc Str)} {text : Str}
    (h : concat (xs ++ ys) = .ok text) :
    ∃ a b, concat xs = .ok a ∧ concat ys = .ok b ∧ text = a ++ b := by
  obtain ⟨texts, heq, rfl⟩ := concat_eq_ok h
  obtain ⟨as, bs, rfl, rfl, rfl⟩ := List.append_eq_map_iff.mp heq
  exact ⟨as.flatten, bs.flatten, concat_ok as, concat_ok bs, List.flatten_append⟩

/-- What is printed in front of the three loops. -/
def partsBefore (q : GsqlQ) (bt : BufType) (offs : Nat) : List (Except Exc Str) :=
  let bd := q.bufDscr bt
  let cName := snakeCase bd.id
  let ml := bd.maxNameLen
  let mctl := bd.maxCtypeLen
  [lineText (q.id ++ "::" ++ bt.name) offs,
    .ok (sl "template <std::size_t N = 1>" offs),
    .ok (sl ("class " ++ cName ++ " : public db::buffer_root<" ++ bufTypeName bt ++ ", N>") offs),
    .ok (sl "\x7b" offs),
    .ok (sl "public: /*...public methods...*/" offs),
    .ok (sl "  using attr_vec_t = std::vector<db::attr_root_root<N>*>;" offs),
    .ok (defineDefaultCtor cName bt (offs + 2)),
    defineTrivialNullGetters bd.flds ml (offs + 2),
    defineNullGetters bd.flds ml (offs + 2),
    defineTrivialNullSetters bd.flds ml (offs + 2),
    defineNullSetters bd.flds ml (offs + 2),
    defineTrivialGetters bd.flds ml mctl (offs + 2),
    defineGetters bd.flds ml mctl (offs + 2),
    defineTrivialSetters bd.flds ml mctl (offs + 2),
    defineSetters bd.flds ml mctl (offs + 2),
    .ok (sl "protected:/*...protected methods..............*/" offs),
    .ok (defineAttributeAccess (offs + 2)),
    .ok (sl "private:  /*...private methods & attributes...*/" offs)]

/-- What is printed behind them. -/
def partsAfter (q : GsqlQ) (bt : BufType) (offs : Nat) : List (Except Exc Str) :=
  let bd := q.bufDscr bt
  [.ok (defineAttrArray bd.flds (generatedWidth - 8) (offs + 2)),
    .ok (defineAttrNameArray bd.flds (generatedWidth - 8) (offs + 2)),
    .ok (sl ("\x7d; // class " ++ snakeCase bd.id) offs)]

theorem genBufClass_eq (q : GsqlQ) (bt : BufType) (offs : Nat) :
    genBufClass q bt offs = concat (partsBefore q bt offs ++
      (defineAttributesConst (q.bufDscr bt).flds (offs + 2) ::
        defineAttrTypes (q.bufDscr bt).flds (offs + 2) ::
        defineAttributes (q.bufDscr bt).flds (offs + 2) :: partsAfter q bt offs)) := rfl

theorem otherText_defineDefaultCtor {cName : Str} (hname : ' ' ∉ cName) (bt : BufType)
    (offs : Nat) : OtherText (defineDefaultCtor cName bt offs) := by
  refine OtherText.append (.append ?_ ?_) ?_
  · exact otherText_line (otherLine_ctor hname bt offs)
  · exact otherText_line (otherLine_of_start (by decide : StartsOther "\x7b") (by decide) offs)
  · exact otherText_line (otherLine_of_start (by decide : StartsOther "\x7d") (by decide) offs)

theorem otherText_lineText {msg : Str} {offs : Nat} {t : Str} (h : lineText msg offs = .ok t) :
    OtherText t := by
  unfold lineText at h
  dsimp only at h
  split at h
  · cases h
  · refine otherText_ok (by decide : StartsOther "/*") ?_ h
    simp only [List.append_assoc]
    exact List.prefix_append _ _

/-- Of the class name it is needed that it has no blank. -/
theorem otherText_partsBefore {q : GsqlQ} {bt : BufType} {offs : Nat}
    (htyped : ∀ el ∈ (q.bufDscr bt).flds, ctName el.type.code ≠ none)
    (hname : ' ' ∉ snakeCase (q.bufDscr bt).id) :
    ∀ part ∈ partsBefore q bt offs, ∀ t, part = .ok t → OtherText t := by
  have haccessor : ∀ (a : Accessor) (indexed : Bool) (t : Str), a.text indexed (q.bufDscr bt).flds
      (q.bufDscr bt).maxNameLen (q.bufDscr bt).maxCtypeLen (offs + 2) = .ok t → OtherText t :=
    fun a indexed t h => otherText_accessor a indexed htyped h
  unfold partsBefore
  dsimp only
  refine List.forall_mem_cons.mpr ⟨fun t h => otherText_lineText h, ?_⟩
  refine List.forall_mem_cons.mpr ⟨fun t h => otherText_ok
    (by decide : StartsOther "template") (by decide) h, ?_⟩
  refine List.forall_mem_cons.mpr ⟨fun t h => otherText_ok
    (by decide : StartsOther "class ") ?_ h, ?_⟩
  · simp only [List.append_assoc]
    exact List.prefix_append _ _
  refine List.forall_mem_cons.mpr ⟨fun t h => otherText_ok
    (by decide : StartsOther "\x7b") (by decide) h, ?_⟩
  refine List.forall_mem_cons.mpr ⟨fun t h => otherText_ok
    (by decide : StartsOther "public:") (by decide) h, ?_⟩
  refine List.forall_mem_cons.mpr ⟨fun t h => ?_, ?_⟩
  · obtain rfl := Except.ok.inj h
    exact otherText_line (otherLine_attrVec offs)
  refine List.forall_mem_cons.mpr ⟨fun t h => ?_, ?_⟩
  · obtain rfl := Except.ok.inj h
    exact otherText_defineDefaultCtor hname bt (offs + 2)
  refine List.forall_mem_cons.mpr ⟨haccessor .isNull false, ?_⟩
  refine List.forall_mem_cons.mpr ⟨haccessor .isNull true, ?_⟩
  refine List.forall_mem_cons.mpr ⟨haccessor .setNull false, ?_⟩
  refine List.forall_mem_cons.mpr ⟨haccessor .setNull true, ?_⟩
  refine List.forall_mem_cons.mpr ⟨haccessor .get false, ?_⟩
  refine List.forall_mem_cons.mpr ⟨haccessor .get true, ?_⟩
  refine List.forall_mem_cons.mpr ⟨haccessor .set false, ?_⟩
  refine List.forall_mem_cons.mpr ⟨haccessor .set true, ?_⟩
  refine List.forall_mem_cons.mpr ⟨fun t h => otherText_ok
    (by decide : StartsOther "protected:") (by decide) h, ?_⟩
  refine List.forall_mem_cons.mpr ⟨fun t h => ?_, ?_⟩
  · obtain rfl := Except.ok.inj h
    exact otherText_defineAttributeAccess (offs + 2)
  exact List.forall_mem_singleton.mpr fun t h => otherText_ok
    (by decide : StartsOther "private:") (by decide) h

theorem otherText_partsAfter {q : GsqlQ} {bt : BufType} {offs : Nat}
    (hne : (q.bufDscr bt).flds ≠ []) :
    ∀ part ∈ partsAfter q bt offs, ∀ t, part = .ok t → OtherText t := by
  unfold partsAfter
  dsimp only
  refine List.forall_mem_cons.mpr ⟨fun t h => ?_, ?_⟩
  · obtain rfl := Except.ok.inj h
    exact otherText_defineAttrArray hne _ _
  refine List.forall_mem_cons.mpr ⟨fun t h => ?_, ?_⟩
  · obtain rfl := Except.ok.inj h
    exact otherText_defineAttrNameArray hne _ _
  exact List.forall_mem_singleton.mpr fun t h => otherText_ok
    (by decide : StartsOther "\x7d;") ⟨_, rfl⟩ h

/-- The text of a class has the three loops in a row, and other lines around them. -/
theorem genBufClass_parts {q : GsqlQ} {bt : BufType} {offs : Nat} {text : Str}
    (h : genBufClass q bt offs = .ok text) (hne : (q.bufDscr bt).flds ≠ [])
    (htyped : ∀ el ∈ (q.bufDscr bt).flds, ctName el.type.code ≠ none)
    (hid : ' ' ∉ (q.bufDscr bt).id) :
    ∃ before constants types members after,
      text = before ++ (constants ++ (types ++ (members ++ after))) ∧
      defineAttributesConst (q.bufDscr bt).flds (offs + 2) = .ok constants ∧
      defineAttrTypes (q.bufDscr bt).flds (offs + 2) = .ok types ∧
      defineAttributes (q.bufDscr bt).flds (offs + 2) = .ok members ∧
      OtherText before ∧ OtherText after := by
  have hname : ' ' ∉ snakeCase (q.bufDscr bt).id := by
    intro hmem
    obtain ⟨c, hc, hblank⟩ := List.mem_map.mp hmem
    split at hblank
    · cases hblank
    · exact hid (hblank ▸ hc)
  rw [genBufClass_eq] at h
  obtain ⟨before, rest₁, hbefore, hrest₁, rfl⟩ := concat_append_eq_ok h
  obtain ⟨constants, rest₂, hconstants, hrest₂, rfl⟩ := concat_cons_eq_ok hrest₁
  obtain ⟨types, rest₃, htypes, hrest₃, rfl⟩ := concat_cons_eq_ok hrest₂
  obtain ⟨members, after, hmembers, hafter, rfl⟩ := concat_cons_eq_ok hrest₃
  exact ⟨before, constants, types, members, after, rfl, hconstants, htypes, hmembers,
    otherText_concat hbefore (otherText_partsBefore htyped hname),
    otherText_concat hafter (otherText_partsAfter hne)⟩

end Dbgen3.Generator
