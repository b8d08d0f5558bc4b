import Dbgen3.Generator.GenCpp

/-!
# Members and accessors of a buffer class

Every function of the generator that prints a member computes its name anew. The
readers below take the name from a printed line. The members of a class are
read from the declarations, and every accessor refers to the one of its field.
-/

namespace Dbgen3.Generator

open Text
open Dbgen3.Runtime (ctName dbtName attrType names_of_attrType)

/-! ## Identifiers -/

/-- A character of an identifier. -/
def isIdent (c : Char) : Bool := c.isAlphanum || c == '_'

/-- A text of identifier characters. -/
def Ident (s : Str) : Prop := ∀ c ∈ s, isIdent c = true

instance : DecidablePred Ident := fun s => List.decidableBAll (fun c => isIdent c = true) s

theorem Ident.append {s t : Str} (hs : Ident s) (ht : Ident t) : Ident (s ++ t) := by
  intro c hc
  rcases List.mem_append.mp hc with h | h
  · exact hs c h
  · exact ht c h

theorem ident_zeroPadded (w n : Nat) : Ident (zeroPadded w n) := by
  intro c hc
  simp [isIdent, Char.isAlphanum, isDigit_of_mem_zeroPadded hc]

/-- What ends an identifier. -/
theorem Ident.ne {s : Str} (hs : Ident s) {x : Char} (hx : isIdent x = false) :
    ∀ c ∈ s, decide (c ≠ x) = true := by
  intro c hc
  have hne : c ≠ x := by
    rintro rfl
    rw [hs c hc] at hx
    cases hx
  exact decide_eq_true hne

/-! ## Members -/

/-- A member of a buffer class: the alias of its type, its database type and its name. -/
structure Member where
  typeName : Str
  dbType : Str
  name : Str
  deriving DecidableEq, Repr

/-- The name of the member at a position. -/
def memberName (k : Nat) : Str := "a_" ++ zeroPadded 2 k ++ "_"

/-- The member for the field at a position. -/
def memberAt (k : Nat) (el : FldDscr) : Member :=
  { typeName := typeAlias k, dbType := (dbtName el.type.code).getD [], name := memberName k }

theorem memberName_injective {j k : Nat} (h : memberName j = memberName k) : j = k := by
  have hdigits : zeroPadded 2 j = zeroPadded 2 k := by simpa [memberName] using h
  exact zeroPadded_injective hdigits

theorem ident_typeAlias (k : Nat) : Ident (typeAlias k) :=
  (by decide : Ident "T_".toList).append (ident_zeroPadded 2 k)

theorem ident_memberName (k : Nat) : Ident (memberName k) :=
  ((by decide : Ident "a_".toList).append (ident_zeroPadded 2 k)).append (by decide)

/-- Fields that can be stored, with the member names of their positions. -/
structure Numbered (flds : List FldDscr) : Prop where
  stored : ∀ el ∈ flds, attrType el.type.code ≠ .unknown
  names : flds.map FldDscr.aName = (List.range flds.length).map memberName

/-- The members of the class. -/
def members (flds : List FldDscr) : List Member := flds.mapIdx memberAt

theorem members_names (flds : List FldDscr) :
    (members flds).map Member.name = (List.range flds.length).map memberName := by
  apply List.ext_getElem
  · simp [members]
  · intro k h₁ h₂
    simp [members, memberAt]

theorem members_nodup (flds : List FldDscr) : ((members flds).map Member.name).Nodup := by
  rw [members_names]
  apply List.nodup_range.map
  exact fun _ _ => memberName_injective

/-! ## Declarations -/

/-- Read a member from the line that declares it: the first two template arguments and the
name behind them. -/
def declared (line : Str) : Member :=
  let args := (line.dropWhile (· ≠ '<')).drop 1
  let rest := (args.dropWhile (· ≠ ',')).drop 2
  { typeName := args.takeWhile (· ≠ ',')
    dbType := rest.takeWhile isIdent
    name := ((rest.dropWhile (· ≠ '>')).drop 2).takeWhile (· ≠ '\x7b') }

theorem dbtName_ident {dbType : Int} {name : Str} (h : dbtName dbType = some name) :
    Ident name := by
  obtain ⟨d, hd, rfl⟩ := Option.map_eq_some_iff.mp h
  have hmem : d ∈ Runtime.dscr := List.mem_of_find?_eq_some hd
  have hall : ∀ d ∈ Runtime.dscr, Ident d.dbtName := by decide
  exact hall d hmem

theorem ne_of_notMem {s : Str} {x : Char} (h : x ∉ s) : ∀ c ∈ s, decide (c ≠ x) = true := by
  intro c hc
  have hne : c ≠ x := by
    rintro rfl
    exact h hc
  exact decide_eq_true hne

/-- A line with two identifiers as template arguments, and with more of them up to the name. -/
theorem declared_line {head typeName dbType more name : Str} {x : Char} (rest : Str)
    (hhead : '<' ∉ head)
    (htype : Ident typeName) (hdb : Ident dbType) (hx : isIdent x = false)
    (hmore : '>' ∉ x :: more) (hname : Ident name) :
    declared (head ++ '<' :: (typeName ++ ',' :: ' ' :: (dbType ++ (x :: more ++
      '>' :: ' ' :: (name ++ '\x7b' :: rest))))) = { typeName, dbType, name } := by
  let behind := name ++ '\x7b' :: rest
  let args := dbType ++ (x :: more ++ '>' :: ' ' :: behind)
  have hargs : '>' ∉ dbType ++ x :: more := by
    intro h
    rcases List.mem_append.mp h with h | h
    · exact absurd (hdb _ h) (by decide)
    · exact hmore h
  have hopen : (head ++ '<' :: (typeName ++ ',' :: ' ' :: args)).dropWhile (· ≠ '<') =
      '<' :: (typeName ++ ',' :: ' ' :: args) :=
    dropWhile_stop (ne_of_notMem hhead) (by decide) _
  have hcomma : (typeName ++ ',' :: ' ' :: args).dropWhile (· ≠ ',') = ',' :: ' ' :: args :=
    dropWhile_stop (htype.ne (by decide)) (by decide) _
  have htypeName : (typeName ++ ',' :: ' ' :: args).takeWhile (· ≠ ',') = typeName :=
    takeWhile_stop (htype.ne (by decide)) (by decide) _
  have hdbType : args.takeWhile isIdent = dbType := takeWhile_stop hdb hx _
  have hclose : args.dropWhile (· ≠ '>') = '>' :: ' ' :: behind := by
    rw [show args = (dbType ++ x :: more) ++ '>' :: ' ' :: behind from (List.append_assoc ..).symm]
    exact dropWhile_stop (ne_of_notMem hargs) (by decide) _
  have hbehind : behind.takeWhile (· ≠ '\x7b') = name :=
    takeWhile_stop (hname.ne (by decide)) (by decide) _
  change declared (head ++ '<' :: (typeName ++ ',' :: ' ' :: args)) = _
  simp only [declared, hopen, List.drop_succ_cons, List.drop_zero, htypeName, hcomma, hdbType,
    hclose, hbehind]

/-- Behind a padded name stands a blank or a comma. -/
theorem exists_cons_of_padded (n : Nat) {args : Str} (hargs : '>' ∉ args) :
    ∃ x more, blanks n ++ ',' :: args = x :: more ∧ isIdent x = false ∧ '>' ∉ x :: more := by
  have hgt : '>' ∉ blanks n ++ ',' :: args := by
    simp [blanks, List.mem_replicate, hargs]
  cases n with
  | zero => exact ⟨',', args, rfl, by decide, hgt⟩
  | succ n => exact ⟨' ', blanks n ++ ',' :: args, rfl, by decide, hgt⟩

/-- The form all declarations have. -/
theorem declared_sl (k offs : Nat) (kind args tail : Str) {dbName : Str} (hkind : '<' ∉ kind)
    (hdb : Ident dbName) (hargs : '>' ∉ args) :
    declared (sl (kind ++ '<' :: (typeAlias k ++ ',' :: ' ' :: (padRight 18 dbName ++ ',' ::
      (args ++ '>' :: ' ' :: (memberName k ++ '\x7b' :: tail))))) offs) =
        { typeName := typeAlias k, dbType := dbName, name := memberName k } := by
  obtain ⟨x, more, hmore, hx, hgt⟩ := exists_cons_of_padded (18 - dbName.length) hargs
  have hhead : '<' ∉ blanks (offs % 256) ++ kind := by
    simp [blanks, List.mem_replicate, hkind]
  rw [← declared_line (tail ++ ['\n']) hhead (ident_typeAlias k) hdb hx hgt
    (ident_memberName k), ← hmore]
  congr 1
  simp [sl, s, padRight]

/-- The text of a declaration and the member it declares. -/
theorem declared_attributeDecl {el : FldDscr} (hel : attrType el.type.code ≠ .unknown)
    (k offs : Nat) :
    ∃ line, attributeDecl k el = .ok line ∧ declared (sl line offs) = memberAt k el := by
  obtain ⟨-, dbName, -, hdb⟩ := names_of_attrType hel
  have hident := dbtName_ident hdb
  have hdec : '>' ∉ decName k := by
    intro h
    have := ((by decide : Ident "dec_".toList).append (ident_zeroPadded 2 k)) _ h
    cases this
  unfold attributeDecl memberAt
  rw [hdb]
  cases h : attrType el.type.code with
  | unknown => exact absurd h hel
  | atomic =>
      refine ⟨_, rfl, ?_⟩
      rw [Option.getD_some, ← declared_sl k offs "db::atomic " (" N, " ++ decName k) "\x7d; "
        (by decide) hident (by simp [hdec])]
      simp [memberName]
  | string =>
      refine ⟨_, rfl, ?_⟩
      rw [Option.getD_some, ← declared_sl k offs "db::string " (" N, " ++ decName k ++ ", char")
        "\x7d;" (by decide) hident (by simp [hdec])]
      simp [memberName]
  | bstring =>
      refine ⟨_, rfl, ?_⟩
      rw [Option.getD_some, ← declared_sl k offs "db::bstring" " N, uint8_t" "\x7d; " (by decide)
        hident (by decide)]
      simp [memberName]

/-- A text made field by field is one line for each field. -/
theorem fieldsFrom_eq {α : Type} (line : Nat → FldDscr → Except Exc Str) (read : Str → α)
    (f : Nat → FldDscr → α) (pos : Nat) {flds : List FldDscr}
    (hline : ∀ k, ∀ el ∈ flds, ∃ l, line k el = .ok l ∧ read l = f k el) :
    ∃ lines : List Str, fieldsFrom line pos flds = .ok lines.flatten ∧
      lines.map read = flds.mapIdx fun k el => f (pos + k) el := by
  induction flds generalizing pos with
  | nil => exact ⟨[], rfl, rfl⟩
  | cons el rest ih =>
      obtain ⟨l, hl, hread⟩ := hline pos el List.mem_cons_self
      obtain ⟨lines, hlines, hmap⟩ :=
        ih (pos + 1) fun k e he => hline k e (List.mem_cons_of_mem el he)
      refine ⟨l :: lines, ?_, ?_⟩
      · rw [fieldsFrom, hl]
        simp only [bind, Except.bind, hlines]
        rfl
      · rw [List.map_cons, hread, hmap, List.mapIdx_cons]
        simp [Nat.add_assoc, Nat.add_comm 1]

/-- `define_attributes` declares the members, one line for each field. -/
theorem defineAttributes_eq {flds : List FldDscr}
    (hflds : ∀ el ∈ flds, attrType el.type.code ≠ .unknown) (offs : Nat) :
    ∃ lines : List Str, defineAttributes flds offs = .ok lines.flatten ∧
      lines.map declared = members flds := by
  have hline : ∀ k, ∀ el ∈ flds, ∃ l, (do pure (sl (← attributeDecl k el) offs)) = Except.ok l ∧
      declared l = memberAt k el := by
    intro k el hel
    obtain ⟨line, hline, hdecl⟩ := declared_attributeDecl (hflds el hel) k offs
    exact ⟨sl line offs, by rw [hline]; rfl, hdecl⟩
  obtain ⟨lines, htext, hread⟩ := fieldsFrom_eq _ declared memberAt 0 hline
  refine ⟨lines, htext, hread.trans ?_⟩
  simp [members]

/-- Read a type alias and the type it stands for. -/
def aliased (line : Str) : Str × Str :=
  let words := (line.dropWhile (· = ' ')).drop 6
  (words.takeWhile isIdent, (words.dropWhile isIdent).drop 3)

/-- The type that the alias of a field stands for. -/
def storedType (k : Nat) (el : FldDscr) : Str :=
  match attrType el.type.code with
  | .atomic => (ctName el.type.code).getD [] ++ ";"
  | .string => "std::array<char, " ++ lenName k ++ " + 1>;"
  | .bstring => "std::array<uint8_t, " ++ lenName k ++ ">;"
  | .unknown => []

theorem aliased_sl (k offs : Nat) (type : Str) :
    aliased (sl ("using " ++ typeAlias k ++ " = " ++ type) offs) =
      (typeAlias k, type ++ "\n") := by
  let words := typeAlias k ++ ' ' :: ("= ".toList ++ (type ++ ['\n']))
  have hsl : sl ("using " ++ typeAlias k ++ " = " ++ type) offs =
      blanks (offs % 256) ++ 'u' :: ("sing ".toList ++ words) := by
    simp [sl, s, words]
  have hdrop : (blanks (offs % 256) ++ 'u' :: ("sing ".toList ++ words)).dropWhile (· = ' ') =
      'u' :: ("sing ".toList ++ words) :=
    dropWhile_stop (fun c hc => decide_eq_true (List.eq_of_mem_replicate hc)) (by decide) _
  have htake : words.takeWhile isIdent = typeAlias k :=
    takeWhile_stop (ident_typeAlias k) (by decide) _
  have hrest : words.dropWhile isIdent = ' ' :: ("= ".toList ++ (type ++ ['\n'])) :=
    dropWhile_stop (ident_typeAlias k) (by decide) _
  rw [aliased, hsl, hdrop]
  change (words.takeWhile isIdent, (words.dropWhile isIdent).drop 3) = _
  rw [htake, hrest]
  rfl

theorem aliasedType_eq {el : FldDscr} (hel : attrType el.type.code ≠ .unknown) (k : Nat) :
    aliasedType k el = .ok (storedType k el) := by
  obtain ⟨name, -, hname, -⟩ := names_of_attrType hel
  unfold aliasedType storedType
  rw [hname]
  cases h : attrType el.type.code with
  | unknown => exact absurd h hel
  | atomic => rfl
  | string => rfl
  | bstring => rfl

/-- `define_attr_types` gives each alias the type of the field at its position. -/
theorem defineAttrTypes_eq {flds : List FldDscr}
    (hflds : ∀ el ∈ flds, attrType el.type.code ≠ .unknown) (offs : Nat) :
    ∃ lines : List Str, defineAttrTypes flds offs = .ok lines.flatten ∧
      lines.map aliased = flds.mapIdx fun k el => (typeAlias k, storedType k el ++ "\n") := by
  have hline : ∀ k, ∀ el ∈ flds,
      ∃ l, (do
        let type ← aliasedType k el
        pure (sl ("using " ++ typeAlias k ++ " = " ++ type) offs)) = Except.ok l ∧
        aliased l = (typeAlias k, storedType k el ++ "\n") := by
    intro k el hel
    exact ⟨_, by rw [aliasedType_eq (hflds el hel)]; rfl, aliased_sl k offs (storedType k el)⟩
  obtain ⟨lines, htext, hread⟩ :=
    fieldsFrom_eq _ aliased (fun k el => (typeAlias k, storedType k el ++ "\n")) 0 hline
  refine ⟨lines, htext, hread.trans ?_⟩
  simp

/-! ## Accessors -/

/-- What an accessor does. -/
inductive Accessor
  | isNull | setNull | get | set
  deriving DecidableEq, Repr

namespace Accessor

/-- The text of a family of accessors: with a row index or for the first row. -/
def text (a : Accessor) (indexed : Bool) (flds : List FldDscr) (maxNameLen maxCtypeLen offs : Nat) :
    Except Exc Str :=
  match a, indexed with
  | .isNull, false => defineTrivialNullGetters flds maxNameLen offs
  | .isNull, true => defineNullGetters flds maxNameLen offs
  | .setNull, false => defineTrivialNullSetters flds maxNameLen offs
  | .setNull, true => defineNullSetters flds maxNameLen offs
  | .get, false => defineTrivialGetters flds maxNameLen maxCtypeLen offs
  | .get, true => defineGetters flds maxNameLen maxCtypeLen offs
  | .set, false => defineTrivialSetters flds maxNameLen maxCtypeLen offs
  | .set, true => defineSetters flds maxNameLen maxCtypeLen offs

def title : Accessor → Bool → Str
  | .isNull, false => "/// @brief trivial null getters"
  | .isNull, true => "/// @brief null getters"
  | .setNull, false => "/// @brief trivial null setters"
  | .setNull, true => "/// @brief null setters"
  | .get, false => "/// @brief trivial getters"
  | .get, true => "/// @brief getters"
  | .set, false => "/// @brief trivial setters"
  | .set, true => "/// @brief setters"

/-- The head of the accessor of a field. -/
def signature (a : Accessor) (indexed : Bool) (maxNameLen maxCtypeLen : Nat) (el : FldDscr) : Str :=
  let name := padRight maxNameLen el.name
  let cType := padRight maxCtypeLen ((ctName el.type.code).getD [])
  let row : Str := if indexed then "uint ndx" else ""
  match a with
  | .isNull => "bool is_null_" ++ name ++ "(" ++ row ++ ") const "
  | .setNull => "void set_null_" ++ name ++ "(" ++ row ++ ") "
  | .get => cType ++ " " ++ name ++ "(" ++ row ++ ") const "
  | .set => "void set_" ++ name ++ "(" ++ cType ++ " v" ++ (if indexed then ", uint ndx" else "") ++
      ") "

def keyword : Accessor → Str
  | .isNull => "return "
  | .setNull => ""
  | .get => "return "
  | .set => ""

/-- The call on the member, with the closing brace. -/
def call : Accessor → Bool → Str
  | .isNull, false => "is_null(0);\x7d"
  | .isNull, true => "is_null(ndx);\x7d"
  | .setNull, false => "set_null(0);\x7d"
  | .setNull, true => "set_null(ndx);\x7d"
  | .get, false => "value(0);\x7d"
  | .get, true => "value(ndx);\x7d"
  | .set, false => "set_value(v, 0);\x7d"
  | .set, true => "set_value(v, ndx);\x7d"

/-- The body of the accessor of a member, behind its opening brace. -/
def body (a : Accessor) (indexed : Bool) (member : Str) : Str :=
  a.keyword ++ (member ++ '.' :: a.call indexed)

/-- The accessor of a field. -/
def code (a : Accessor) (indexed : Bool) (maxNameLen maxCtypeLen : Nat) (el : FldDscr) : Str :=
  a.signature indexed maxNameLen maxCtypeLen el ++ '\x7b' :: a.body indexed el.aName

end Accessor

/-- Lines between a title and the brackets of a documentation group. -/
def framed (title : Str) (offs : Nat) (lines : List Str) : Str :=
  if lines = [] then []
  else sl title offs ++ sl "//@\x7b" offs ++ lines.flatten ++ sl "//@\x7d" offs

theorem concat_ok (texts : List Str) : concat (texts.map .ok) = .ok texts.flatten := by
  induction texts with
  | nil => rfl
  | cons text texts ih =>
      rw [List.map_cons, concat, ih]
      rfl

theorem accessors_eq (title : Str) {line : FldDscr → Except Exc Str} {f : FldDscr → Str}
    {flds : List FldDscr} (offs : Nat) (h : ∀ el ∈ flds, line el = .ok (f el)) :
    accessors title line flds offs =
      .ok (framed title offs (flds.map fun el => sl (f el) offs)) := by
  have hmap : (flds.map fun el => do pure (sl (← line el) offs)) =
      (flds.map fun el => sl (f el) offs).map (Except.ok (ε := Exc)) := by
    rw [List.map_map]
    apply List.map_congr_left
    intro el hel
    rw [h el hel]
    rfl
  unfold accessors framed
  rw [hmap, concat_ok]
  cases flds with
  | nil => rfl
  | cons el rest =>
      simp [concat, bind, Except.bind, pure, Except.pure]

/-- The same for lines that take the name of the type first. -/
theorem typedAccessors_eq (title : Str) {typeName : FldDscr → Except Exc Str}
    {name f : FldDscr → Str} {line : FldDscr → Str → Str} {flds : List FldDscr} (offs : Nat)
    (hname : ∀ el ∈ flds, typeName el = .ok (name el)) (hline : ∀ el, line el (name el) = f el) :
    accessors title (fun el => do let typeName ← typeName el; pure (line el typeName)) flds offs =
      .ok (framed title offs (flds.map fun el => sl (f el) offs)) := by
  refine accessors_eq title offs fun el hel => ?_
  rw [hname el hel, ← hline el]
  rfl

/-- Every family of accessors is one line for each field. -/
theorem Accessor.text_eq (a : Accessor) (indexed : Bool) {flds : List FldDscr}
    (hflds : ∀ el ∈ flds, ctName el.type.code ≠ none) (maxNameLen maxCtypeLen offs : Nat) :
    a.text indexed flds maxNameLen maxCtypeLen offs =
      .ok (framed (a.title indexed) offs
        (flds.map fun el => sl (a.code indexed maxNameLen maxCtypeLen el) offs)) := by
  have hnames : ∀ el ∈ flds, formattedTypeName el = .ok ((ctName el.type.code).getD []) ∧
      assignedTypeName el = .ok ((ctName el.type.code).getD []) := by
    intro el hel
    obtain ⟨name, hname⟩ := Option.ne_none_iff_exists'.mp (hflds el hel)
    rw [hname]
    exact typeNames_eq hname
  cases a with
  | isNull =>
      cases indexed with
      | false =>
          unfold text defineTrivialNullGetters
          refine accessors_eq _ offs fun el _ => ?_
          unfold code signature body keyword call
          simp only [Bool.false_eq_true, if_false]
          simp only [List.append_assoc, String.reduceToList, List.cons_append, List.nil_append]
      | true =>
          unfold text defineNullGetters
          refine accessors_eq _ offs fun el _ => ?_
          unfold code signature body keyword call
          simp only [if_true]
          simp only [List.append_assoc, String.reduceToList, List.cons_append, List.nil_append]
  | setNull =>
      cases indexed with
      | false =>
          unfold text defineTrivialNullSetters
          refine typedAccessors_eq _ offs (fun el hel => (hnames el hel).2) fun el => ?_
          unfold code signature body keyword call
          simp only [Bool.false_eq_true, if_false]
          simp only [List.append_assoc, String.reduceToList, List.cons_append, List.nil_append]
      | true =>
          unfold text defineNullSetters
          refine typedAccessors_eq _ offs (fun el hel => (hnames el hel).2) fun el => ?_
          unfold code signature body keyword call
          simp only [if_true]
          simp only [List.append_assoc, String.reduceToList, List.cons_append, List.nil_append]
  | get =>
      cases indexed with
      | false =>
          unfold text defineTrivialGetters
          refine typedAccessors_eq _ offs (fun el hel => (hnames el hel).1) fun el => ?_
          unfold code signature body keyword call
          simp only [Bool.false_eq_true, if_false]
          simp only [List.append_assoc, String.reduceToList, List.cons_append, List.nil_append]
      | true =>
          unfold text defineGetters
          refine typedAccessors_eq _ offs (fun el hel => (hnames el hel).1) fun el => ?_
          unfold code signature body keyword call
          simp only [if_true]
          simp only [List.append_assoc, String.reduceToList, List.cons_append, List.nil_append]
  | set =>
      cases indexed with
      | false =>
          unfold text defineTrivialSetters
          refine typedAccessors_eq _ offs (fun el hel => (hnames el hel).2) fun el => ?_
          unfold code signature body keyword call
          simp only [Bool.false_eq_true, if_false]
          simp only [List.append_assoc, String.reduceToList, List.cons_append, List.nil_append]
      | true =>
          unfold text defineSetters
          refine typedAccessors_eq _ offs (fun el hel => (hnames el hel).2) fun el => ?_
          unfold code signature body keyword call
          simp only [if_true]
          simp only [List.append_assoc, String.reduceToList, List.cons_append, List.nil_append]

/-- The part of a line before its last opening brace, and the part behind it. -/
def headOf (line : Str) : Str := ((line.reverse.dropWhile (· ≠ '\x7b')).drop 1).reverse

def bodyOf (line : Str) : Str := (line.reverse.takeWhile (· ≠ '\x7b')).reverse

/-- The first name of a body, behind the word `return` where it has one. -/
def firstName (body : Str) : Str :=
  (if "return ".toList.isPrefixOf body then body.drop 7 else body).takeWhile isIdent

/-- Read the member that the body of an accessor refers to. -/
def accessed (line : Str) : Str := firstName (bodyOf line)

theorem headOf_bodyOf (head : Str) {body : Str} (hbody : '\x7b' ∉ body) :
    headOf (head ++ '\x7b' :: body) = head ∧ bodyOf (head ++ '\x7b' :: body) = body := by
  have hrev : (head ++ '\x7b' :: body).reverse = body.reverse ++ '\x7b' :: head.reverse := by
    simp
  have hstop : ∀ c ∈ body.reverse, decide (c ≠ '\x7b') = true :=
    ne_of_notMem fun h => hbody (List.mem_reverse.mp h)
  constructor
  · rw [headOf, hrev, dropWhile_stop hstop (by decide), List.drop_succ_cons, List.drop_zero,
      List.reverse_reverse]
  · rw [bodyOf, hrev, takeWhile_stop hstop (by decide), List.reverse_reverse]

theorem firstName_return (k : Nat) (rest : Str) :
    firstName ("return ".toList ++ (memberName k ++ '.' :: rest)) = memberName k := by
  have hprefix : "return ".toList.isPrefixOf ("return ".toList ++ (memberName k ++ '.' :: rest)) :=
    List.isPrefixOf_iff_prefix.mpr (List.prefix_append _ _)
  have hdrop : ("return ".toList ++ (memberName k ++ '.' :: rest)).drop 7 =
      memberName k ++ '.' :: rest := List.drop_left' (by decide)
  rw [firstName, if_pos hprefix, hdrop]
  exact takeWhile_stop (ident_memberName k) (by decide) rest

theorem firstName_member (k : Nat) (rest : Str) :
    firstName (memberName k ++ '.' :: rest) = memberName k := by
  have hprefix : ¬ "return ".toList.isPrefixOf (memberName k ++ '.' :: rest) = true := by
    simp [memberName]
  rw [firstName, if_neg hprefix]
  exact takeWhile_stop (ident_memberName k) (by decide) rest

theorem Accessor.firstName_body (a : Accessor) (indexed : Bool) (k : Nat) (rest : Str) :
    firstName (a.body indexed (memberName k) ++ rest) = memberName k := by
  have hbody : a.body indexed (memberName k) ++ rest =
      a.keyword ++ (memberName k ++ '.' :: (a.call indexed ++ rest)) := by
    simp [body]
  rw [hbody]
  cases a with
  | isNull => exact firstName_return k _
  | setNull => exact firstName_member k _
  | get => exact firstName_return k _
  | set => exact firstName_member k _

theorem Accessor.brace_notMem_body (a : Accessor) (indexed : Bool) (k : Nat) :
    '\x7b' ∉ a.body indexed (memberName k) := by
  have hname : '\x7b' ∉ memberName k := fun h => absurd (ident_memberName k _ h) (by decide)
  have hkeyword : ∀ a : Accessor, '\x7b' ∉ a.keyword := by
    intro a
    cases a <;> decide
  have hcall : ∀ (a : Accessor) (indexed : Bool), '\x7b' ∉ a.call indexed := by
    intro a indexed
    cases a <;> cases indexed <;> decide
  simp [body, hname, hkeyword a, hcall a indexed]

/-- The line of an accessor names the field and refers to its member. -/
theorem Accessor.line_spec (a : Accessor) (indexed : Bool) (maxNameLen maxCtypeLen offs k : Nat)
    {el : FldDscr} (hel : el.aName = memberName k) :
    headOf (sl (a.code indexed maxNameLen maxCtypeLen el) offs) =
        s (a.signature indexed maxNameLen maxCtypeLen el) offs ∧
      accessed (sl (a.code indexed maxNameLen maxCtypeLen el) offs) = memberName k := by
  have hline : sl (a.code indexed maxNameLen maxCtypeLen el) offs =
      s (a.signature indexed maxNameLen maxCtypeLen el) offs ++
        '\x7b' :: (a.body indexed (memberName k) ++ ['\n']) := by
    rw [code, hel]
    simp [sl, s]
  have hbody : '\x7b' ∉ a.body indexed (memberName k) ++ ['\n'] := by
    simp [a.brace_notMem_body indexed k]
  obtain ⟨hhead, hbodyOf⟩ :=
    headOf_bodyOf (s (a.signature indexed maxNameLen maxCtypeLen el) offs) hbody
  rw [hline, accessed, hbodyOf]
  exact ⟨hhead, a.firstName_body indexed k ['\n']⟩

/-! ## Arrays -/

/-- Rows of items with a comma behind each row; `trailing` stands behind the last one. -/
def rowsText (item : FldDscr → Str) (offs : Nat) (trailing : Str) : List (List FldDscr) → Str
  | [] => []
  | [row] => sl (joinWith ", " (row.map item) ++ trailing) offs
  | row :: rows => sl (joinWith ", " (row.map item) ++ ",") offs ++ rowsText item offs trailing rows

/-- The text lists the items of the fields in order, each once. -/
def Lists (item : FldDscr → Str) (offs : Nat) (flds : List FldDscr) (text : Str) : Prop :=
  ∃ rows trailing, rows.flatten = flds ∧ (∀ row ∈ rows, row ≠ []) ∧
    (trailing = [] ∨ trailing = [',']) ∧ text = rowsText item offs trailing rows

variable {item : FldDscr → Str}

theorem joinWith_ne_nil (hitem : ∀ el, item el ≠ []) {row : List FldDscr} (hrow : row ≠ []) :
    joinWith ", " (row.map item) ≠ [] := by
  match row with
  | [] => exact absurd rfl hrow
  | [el] => exact hitem el
  | el :: el' :: rest => simp [joinWith]

/-- An item with the separator behind it. -/
def separated (item : FldDscr → Str) (el : FldDscr) : Str := item el ++ [',', ' ']

theorem flatMap_separated {row : List FldDscr} (hrow : row ≠ []) :
    row.flatMap (separated item) = joinWith ", " (row.map item) ++ [',', ' '] := by
  have hitems : row.map item ≠ [] := fun h => hrow (List.map_eq_nil_iff.mp h)
  have htext := flatMap_append_sep ", " hitems
  rw [List.flatMap_map] at htext
  exact htext

theorem lists_cons {offs : Nat} {row flds : List FldDscr} {text : Str} (hrow : row ≠ [])
    (h : Lists item offs flds text) :
    Lists item offs (row ++ flds) (sl (joinWith ", " (row.map item) ++ ",") offs ++ text) := by
  obtain ⟨rows, trailing, rfl, hne, htrailing, rfl⟩ := h
  have hall : ∀ r ∈ row :: rows, r ≠ [] := List.forall_mem_cons.mpr ⟨hrow, hne⟩
  cases rows with
  | nil => exact ⟨[row], [','], by simp, hall, .inr rfl, by simp [rowsText]⟩
  | cons row' rows => exact ⟨row :: row' :: rows, trailing, rfl, hall, htrailing, rfl⟩

/-- The loop that breaks the lines, with the items of `row` on the current line. -/
theorem lists_wrapFrom (hitem : ∀ el, item el ≠ []) (maxWidth offs : Nat)
    (row flds : List FldDscr) :
    Lists item (offs + 2) (row ++ flds)
      (wrapFrom (separated item) maxWidth offs (row.flatMap (separated item)) flds) := by
  induction flds generalizing row with
  | nil =>
      by_cases hrow : row = []
      · subst hrow
        exact ⟨[], [], rfl, by simp, .inl rfl, rfl⟩
      · refine ⟨[row], [], by simp, by simpa using hrow, .inl rfl, ?_⟩
        have htake : ∀ x : Str, (x ++ [',', ' ']).take ((x ++ [',', ' ']).length - 2) = x := by
          simp
        simp only [wrapFrom, flatMap_separated hrow, htake]
        rw [if_pos (joinWith_ne_nil hitem hrow)]
        simp [rowsText]
  | cons el rest ih =>
      have hnext : row.flatMap (separated item) ++ separated item el =
          (row ++ [el]).flatMap (separated item) := by
        simp
      have hsplit : row ++ el :: rest = (row ++ [el]) ++ rest := by
        simp
      rw [wrapFrom, hnext, hsplit]
      split
      · -- the row is full
        have htake : ∀ x : Str,
            (x ++ [',', ' ']).take ((x ++ [',', ' ']).length - 1) = x ++ [','] := by
          intro x
          rw [List.append_cons x ',' [' '], List.length_append]
          exact List.take_left' (by simp)
        rw [flatMap_separated (by simp), htake]
        exact lists_cons (by simp) (ih [])
      · exact ih (row ++ [el])

/-- `define_attr_array` lists the addresses of the members. -/
theorem defineAttrArray_eq (flds : List FldDscr) (maxWidth offs : Nat) (hne : flds ≠ []) :
    ∃ rows, Lists (fun el => '&' :: el.aName) (offs + 2) flds rows ∧
      defineAttrArray flds maxWidth offs =
        sl "attr_vec_t A_" offs ++ sl "\x7b" offs ++ rows ++ sl "\x7d;" offs := by
  refine ⟨_, lists_wrapFrom (fun el => List.cons_ne_nil _ _) maxWidth offs [] flds, ?_⟩
  rw [defineAttrArray, if_pos hne]
  rfl

/-- `define_attr_name_array` lists the names of the fields in quotes. -/
theorem defineAttrNameArray_eq (flds : List FldDscr) (maxWidth offs : Nat) (hne : flds ≠ []) :
    ∃ rows, Lists (fun el => '"' :: (el.name ++ ['"'])) (offs + 2) flds rows ∧
      defineAttrNameArray flds maxWidth offs =
        sl ("constexpr static const std::array<const cstr_t, " ++ decimal flds.length ++ "> N_")
          offs ++ sl "\x7b\x7b" offs ++ rows ++ sl "\x7d\x7d;" offs := by
  refine ⟨_, lists_wrapFrom (fun el => List.cons_ne_nil _ _) maxWidth offs [] flds, ?_⟩
  rw [defineAttrNameArray, if_pos hne]
  have hitem : (fun el : FldDscr => "\"" ++ el.name ++ "\", ") =
      separated fun el => '"' :: (el.name ++ ['"']) := by
    funext el
    simp [separated]
  rw [hitem]
  rfl

end Dbgen3.Generator
