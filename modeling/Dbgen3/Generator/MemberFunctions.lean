import Dbgen3.Generator.Accessors
import Dbgen3.Generator.CoreParser
import Mathlib.Data.List.Nodup
import Mathlib.Data.List.Pairwise

/-!
# The member functions of a buffer class

A buffer class has eight accessors for each field and three functions that
every buffer has. Their names are made of the names of the fields, which are not
looked at, so that functions may meet each other, the class and the base class.
-/

namespace Dbgen3.Generator

open Text
open Dbgen3.Runtime (Cli World ctName)

/-- A member function. A type has one text: `std::size_t` stands for `uint` and `size_t`, and
`int32_t` for `int`. -/
structure MemberFunction where
  returnType : Str
  name : Str
  params : List Str
  isConst : Bool
  deriving DecidableEq, Repr

/-- What overloads differ in. -/
def MemberFunction.signature (f : MemberFunction) : Str × List Str × Bool :=
  (f.name, f.params, f.isConst)

/-- The type of the row index. -/
def sizeType : Str := "std::size_t"

/-- The type of the values of a field. -/
def valueType (el : FldDscr) : Str :=
  let name := (ctName el.type.code).getD []
  if name = "int".toList then "int32_t" else name

/-- The one text of a type. -/
def canonicalType (t : Str) : Str :=
  if t ∈ ["uint".toList, "size_t".toList] then sizeType
  else if t = "int".toList then "int32_t"
  else t

/-- Read the type at the start of a text. -/
def readType (t : Str) : Str := canonicalType (t.takeWhile (· ≠ ' '))

/-- Read the types of the parameters; a blank follows each comma. -/
def readParams (params : Str) : List Str :=
  if params = [] then []
  else match params.splitOnP (· = ',') with
    | [] => []
    | first :: rest => readType first :: rest.map fun param => readType (param.drop 1)

theorem readParams_one {param : Str} (hne : param ≠ []) (hcomma : ',' ∉ param) :
    readParams param = [readType param] := by
  have hsplit : param.splitOnP (· = ',') = [param] :=
    List.splitOnP_eq_singleton fun c hc => decide_eq_false (ne_of_mem_of_not_mem hc hcomma)
  rw [readParams, if_neg hne, hsplit]
  rfl

theorem readParams_two {param : Str} (hcomma : ',' ∉ param) {next : Str} (hnext : ',' ∉ next) :
    readParams (param ++ ',' :: next) = [readType param, readType (next.drop 1)] := by
  have hsplit : (param ++ ',' :: next).splitOnP (· = ',') = [param, next] := by
    rw [List.splitOnP_append_cons_of_forall_mem
      (fun c hc => decide_eq_false (ne_of_mem_of_not_mem hc hcomma)) ',' (by decide),
      List.splitOnP_eq_singleton fun c hc => decide_eq_false (ne_of_mem_of_not_mem hc hnext)]
  rw [readParams, if_neg (List.append_ne_nil_of_right_ne_nil _ (List.cons_ne_nil _ _)), hsplit]
  rfl

/-- The C type of a value is one word, and its one text is the type of the value. -/
theorem ctName_value (el : FldDscr) :
    let name := (ctName el.type.code).getD []
    ' ' ∉ name ∧ ',' ∉ name ∧ canonicalType name = valueType el := by
  have htable : ∀ d ∈ Runtime.dscr, ' ' ∉ d.ctName ∧ ',' ∉ d.ctName ∧
      canonicalType d.ctName = if d.ctName = "int".toList then "int32_t".toList else d.ctName := by
    decide
  unfold valueType
  cases hname : ctName el.type.code with
  | none => decide
  | some name =>
      obtain ⟨d, hd, rfl⟩ := Option.map_eq_some_iff.mp hname
      exact htable d (List.mem_of_find?_eq_some hd)

/-- It is read also where it is padded and another word follows. -/
theorem readType_padRight (el : FldDscr) (width : Nat) {rest : Str}
    (hrest : rest.takeWhile (· ≠ ' ') = []) :
    readType (padRight width ((ctName el.type.code).getD []) ++ rest) = valueType el := by
  obtain ⟨hblank, -, htype⟩ := ctName_value el
  have hpad : (blanks (width - ((ctName el.type.code).getD []).length) ++ rest).takeWhile
      (· ≠ ' ') = [] := by
    cases width - ((ctName el.type.code).getD []).length with
    | zero => exact hrest
    | succ n => rfl
  rw [readType, padRight, List.append_assoc,
    List.takeWhile_append_of_pos (ne_of_notMem hblank), hpad, List.append_nil, htype]

namespace Accessor

/-- What stands in front of the name of the field. -/
def stem : Accessor → Str
  | isNull => "is_null_"
  | setNull => "set_null_"
  | get => ""
  | set => "set_"

/-- The accessor of a field, with a row index or for the first row. -/
def function (a : Accessor) (indexed : Bool) (el : FldDscr) : MemberFunction :=
  let row := if indexed then [sizeType] else []
  match a with
  | isNull => { returnType := "bool", name := stem isNull ++ el.name, params := row, isConst := true }
  | setNull =>
      { returnType := "void", name := stem setNull ++ el.name, params := row, isConst := false }
  | get => { returnType := valueType el, name := stem get ++ el.name, params := row, isConst := true }
  | set =>
      { returnType := "void", name := stem set ++ el.name, params := valueType el :: row
        isConst := false }

@[simp] theorem function_name (a : Accessor) (indexed : Bool) (el : FldDscr) :
    (a.function indexed el).name = a.stem ++ el.name := by
  cases a <;> rfl

/-- A printed head has the name of the function, padded, and its types are read as those of the
function. -/
theorem signature_eq (a : Accessor) (indexed : Bool) (maxNameLen maxCtypeLen : Nat)
    (el : FldDscr) :
    ∃ returned params, a.signature indexed maxNameLen maxCtypeLen el =
      returned ++ ' ' :: (padRight (a.stem.length + maxNameLen) (a.function indexed el).name ++
        '(' :: (params ++ ')' :: ' ' ::
          (if (a.function indexed el).isConst then "const ".toList else []))) ∧
      readType returned = (a.function indexed el).returnType ∧
      readParams params = (a.function indexed el).params := by
  let row : Str := if indexed then "uint ndx" else ""
  let cType := padRight maxCtypeLen ((ctName el.type.code).getD [])
  have hpad : padRight (a.stem.length + maxNameLen) (a.function indexed el).name =
      a.stem ++ padRight maxNameLen el.name := by
    rw [function_name, padRight, padRight, List.length_append, List.append_assoc]
    congr 3
    omega
  rw [hpad]
  let name := padRight maxNameLen el.name
  have hrow : readParams row = if indexed then [sizeType] else [] := by
    cases indexed <;> decide
  have hvoid : readType "void" = "void".toList := by decide
  cases a with
  | isNull =>
      refine ⟨"bool", row, ?_, (by decide : readType "bool" = "bool".toList), hrow⟩
      change ("bool is_null_" ++ name ++ "(" ++ row ++ ") const " : Str) =
        "bool".toList ++ ' ' :: ("is_null_".toList ++ name ++
          '(' :: (row ++ ')' :: ' ' :: "const ".toList))
      simp
  | setNull =>
      refine ⟨"void", row, ?_, hvoid, hrow⟩
      change ("void set_null_" ++ name ++ "(" ++ row ++ ") " : Str) =
        "void".toList ++ ' ' :: ("set_null_".toList ++ name ++ '(' :: (row ++ ')' :: ' ' :: []))
      simp
  | get =>
      refine ⟨cType, row, ?_, ?_, hrow⟩
      · change (cType ++ " " ++ name ++ "(" ++ row ++ ") const " : Str) =
          cType ++ ' ' :: ("".toList ++ name ++ '(' :: (row ++ ')' :: ' ' :: "const ".toList))
        simp
      · have htype := @readType_padRight el maxCtypeLen [] rfl
        rwa [List.append_nil] at htype
  | set =>
      let rest : Str := (if indexed then ", uint ndx" else "" : String).toList
      refine ⟨"void", cType ++ " v" ++ rest, ?_, hvoid, ?_⟩
      · change ("void set_" ++ name ++ "(" ++ cType ++ " v" ++ rest ++ ") " : Str) =
          "void".toList ++ ' ' :: ("set_".toList ++ name ++
            '(' :: (cType ++ " v" ++ rest ++ ')' :: ' ' :: []))
        simp
      · have hvalue : readType (cType ++ " v") = valueType el :=
          readType_padRight el maxCtypeLen (by decide)
        have hcomma : ',' ∉ cType ++ " v" := by
          have hblanks : ',' ∉ blanks (maxCtypeLen - ((ctName el.type.code).getD []).length) :=
            fun h => absurd (List.eq_of_mem_replicate h) (by decide)
          simp only [cType, padRight, List.mem_append, not_or]
          exact ⟨⟨(ctName_value el).2.1, hblanks⟩, by decide⟩
        cases indexed with
        | false =>
            change readParams (cType ++ " v".toList ++ []) = [valueType el]
            rw [List.append_nil, readParams_one (by simp) hcomma, hvalue]
        | true =>
            have hindex : readType (" uint ndx".toList.drop 1) = sizeType := by decide
            change readParams (cType ++ " v".toList ++ ',' :: " uint ndx".toList) =
              [valueType el, sizeType]
            rw [readParams_two hcomma (by decide), hvalue, hindex]

/-- The families of accessors in the order of `gen_buf`. -/
def families : List (Accessor × Bool) :=
  [(isNull, false), (isNull, true), (setNull, false), (setNull, true), (get, false), (get, true),
    (set, false), (set, true)]

end Accessor

/-- The functions that `define_attribute_access` adds. -/
def attributeAccess : List MemberFunction :=
  [{ returnType := "attr_vec_t&", name := "attributes", params := [], isConst := false },
   { returnType := "const attr_vec_t&", name := "attributes", params := [], isConst := true },
   { returnType := "std::span<const cstr_t>", name := "attr_names", params := [], isConst := true }]

/-- The member functions of the class of a buffer with these fields. -/
def memberFunctions (flds : List FldDscr) : List MemberFunction :=
  (Accessor.families.flatMap fun f => flds.map (f.1.function f.2)) ++ attributeAccess

/-- The virtual functions of `buffer_root_root`. -/
def virtuals : List MemberFunction :=
  [{ returnType := "str_t", name := "dump", params := ["cstr_t"], isConst := true },
   { returnType := "int16_t", name := "bind", params := ["int32_t"], isConst := false },
   { returnType := "int16_t", name := "rebind", params := ["int32_t"], isConst := false },
   { returnType := sizeType, name := "size", params := [], isConst := true },
   { returnType := sizeType, name := "occupied", params := [], isConst := true },
   { returnType := "void", name := "set_occupied", params := [sizeType], isConst := false },
   { returnType := "std::size_t*", name := "occupied_addr", params := [], isConst := false },
   { returnType := "BUF_TYPE", name := "bt", params := [], isConst := false },
   { returnType := "std::span<const cstr_t>", name := "attr_names", params := [], isConst := true },
   { returnType := "void*", name := "s_vec", params := [], isConst := false },
   { returnType := "const void*", name := "s_vec", params := [], isConst := true },
   { returnType := "std::size_t&", name := "procesed", params := [], isConst := false },
   { returnType := sizeType, name := "processed", params := [], isConst := true }]

/-- The member functions are different overloads, none has the name of the class, and none
redeclares a virtual function of the base class with another return type. -/
structure WellFormedMembers (cName : Str) (flds : List FldDscr) : Prop where
  distinct : ((memberFunctions flds).map MemberFunction.signature).Nodup
  className : ∀ f ∈ memberFunctions flds, f.name ≠ cName
  overrides : ∀ f ∈ memberFunctions flds, ∀ v ∈ virtuals,
    f.signature = v.signature → f.returnType = v.returnType

/-! ## Types -/

/-- No value has the type of a row index, or one that a function of the base class returns
which has no parameter and is constant. -/
theorem valueType_notMem (el : FldDscr) :
    valueType el ∉ [sizeType, "const void*".toList, "std::span<const cstr_t>".toList] := by
  have htable : ∀ d ∈ Runtime.dscr,
      (if d.ctName = "int".toList then "int32_t".toList else d.ctName) ∉
        [sizeType, "const void*".toList, "std::span<const cstr_t>".toList] := by
    decide
  unfold valueType
  cases hname : ctName el.type.code with
  | none => decide
  | some name =>
      obtain ⟨d, hd, rfl⟩ := Option.map_eq_some_iff.mp hname
      exact htable d (List.mem_of_find?_eq_some hd)

theorem valueType_ne_sizeType (el : FldDscr) : valueType el ≠ sizeType := by
  intro h
  exact valueType_notMem el (h ▸ List.mem_cons_self)

/-! ## Accessors that meet -/

namespace Accessor

/-- The row index is not taken for a value. -/
theorem row_ne_value (i j : Bool) (el : FldDscr) :
    (set.function i el).params ≠ (setNull.function j el).params := by
  intro h
  have hrow : valueType el ∈ (if j then [sizeType] else []) := by
    rw [show (if j then [sizeType] else []) = valueType el :: _ from h.symm]
    exact List.mem_cons_self
  split at hrow
  · exact valueType_ne_sizeType el (List.mem_singleton.mp hrow)
  · cases hrow

theorem row_injective {i j : Bool}
    (h : (if i then [sizeType] else []) = (if j then [sizeType] else [])) : i = j := by
  revert i j
  decide

/-- The signature of the accessor that a family has for a field. -/
def familySignature (f : Accessor × Bool) (el : FldDscr) : Str × List Str × Bool :=
  (f.1.function f.2 el).signature

/-- Accessors of one family meet for one name; others meet for names that differ by the stem
of the null getters. -/
theorem familySignature_eq {f g : Accessor × Bool} {x y : FldDscr}
    (h : familySignature f x = familySignature g y) :
    f = g ∧ x.name = y.name ∨
      f.1 = .isNull ∧ g.1 = .get ∧ y.name = "is_null_" ++ x.name ∨
      f.1 = .get ∧ g.1 = .isNull ∧ x.name = "is_null_" ++ y.name := by
  obtain ⟨a, i⟩ := f
  obtain ⟨b, j⟩ := g
  have hname : a.stem ++ x.name = b.stem ++ y.name := by
    rw [← function_name a i, ← function_name b j]
    exact congrArg Prod.fst h
  have hparams : (a.function i x).params = (b.function j y).params := congrArg (·.2.1) h
  have hconst : (a.function i x).isConst = (b.function j y).isConst := congrArg (·.2.2) h
  cases a with
  | isNull =>
      cases b with
      | isNull =>
          obtain rfl := row_injective hparams
          exact .inl ⟨rfl, List.append_cancel_left hname⟩
      | setNull => cases hconst
      | get => exact .inr (.inl ⟨rfl, rfl, hname.symm⟩)
      | set => cases hconst
  | setNull =>
      cases b with
      | isNull => cases hconst
      | setNull =>
          obtain rfl := row_injective hparams
          exact .inl ⟨rfl, List.append_cancel_left hname⟩
      | get => cases hconst
      | set => exact absurd hparams (row_ne_value j i y).symm
  | get =>
      cases b with
      | isNull => exact .inr (.inr ⟨rfl, rfl, hname⟩)
      | setNull => cases hconst
      | get =>
          obtain rfl := row_injective hparams
          exact .inl ⟨rfl, List.append_cancel_left hname⟩
      | set => cases hconst
  | set =>
      cases b with
      | isNull => cases hconst
      | setNull => exact absurd hparams (row_ne_value i j x)
      | get => cases hconst
      | set =>
          obtain rfl := row_injective (List.cons.inj hparams).2
          exact .inl ⟨rfl, List.append_cancel_left hname⟩

/-- The accessors of all families are different overloads where the names are different and
none is the one of the null getter of a field. -/
theorem nodup_families (flds : List FldDscr) :
    (Accessor.families.flatMap fun f => flds.map (familySignature f)).Nodup ↔
      (flds.map FldDscr.name).Nodup ∧ ∀ x ∈ flds, ∀ y ∈ flds, x.name ≠ "is_null_" ++ y.name := by
  rw [List.nodup_flatMap]
  constructor
  · rintro ⟨hfamily, hdisjoint⟩
    constructor
    · -- a getter has no parameter for the type of the value
      have hget := hfamily (.get, false) (by decide)
      have heq : flds.map (familySignature (.get, false)) =
          (flds.map FldDscr.name).map fun name => (name, [], true) := by
        rw [List.map_map]
        rfl
      rw [heq] at hget
      exact hget.of_map
    · intro x hx y hy hname
      have hpair : ((.isNull, false) : Accessor × Bool) ∈ families := by decide
      have : Std.Symm (Function.onFun List.Disjoint fun f => flds.map (familySignature f)) :=
        ⟨fun f g h => List.disjoint_symm h⟩
      have hmeet := hdisjoint.forall hpair (by decide : (.get, false) ∈ families) (by decide)
      apply hmeet (List.mem_map_of_mem hy)
      refine List.mem_map.mpr ⟨x, hx, ?_⟩
      change (x.name, [], true) = ("is_null_" ++ y.name, [], true)
      rw [hname]
  · rintro ⟨hnames, hstem⟩
    constructor
    · intro f _
      have hnodup : ((flds.map FldDscr.name).map (f.1.stem ++ ·)).Nodup :=
        hnames.map fun _ _ => List.append_cancel_left
      have heq : (flds.map FldDscr.name).map (f.1.stem ++ ·) =
          (flds.map (familySignature f)).map Prod.fst := by
        rw [List.map_map, List.map_map]
        exact List.map_congr_left fun el _ => (function_name f.1 f.2 el).symm
      rw [heq] at hnodup
      exact hnodup.of_map
    · apply List.Nodup.pairwise_of_forall_ne (by decide)
      intro f _ g _ hne sig hf hg
      obtain ⟨x, hx, rfl⟩ := List.mem_map.mp hf
      obtain ⟨y, hy, heq⟩ := List.mem_map.mp hg
      rcases familySignature_eq heq with ⟨rfl, -⟩ | ⟨-, -, hname⟩ | ⟨-, -, hname⟩
      · exact hne rfl
      · exact hstem x hx y hy hname
      · exact hstem y hy x hx hname

end Accessor

/-! ## The functions of every buffer -/

theorem memberFunctions_signatures (flds : List FldDscr) :
    (memberFunctions flds).map MemberFunction.signature =
      (Accessor.families.flatMap fun f => flds.map (Accessor.familySignature f)) ++
        attributeAccess.map MemberFunction.signature := by
  rw [memberFunctions, List.map_append, List.map_flatMap]
  congr 2
  funext f
  exact List.map_map

/-- The stem of an accessor that has the name of another function. -/
theorem isPrefixOf_of_name {a : Accessor} {i : Bool} {el : FldDscr} {name : Str}
    (h : (a.function i el).name = name) : a.stem.isPrefixOf name = true := by
  rw [← h, Accessor.function_name]
  exact List.isPrefixOf_iff_prefix.mpr (List.prefix_append _ _)

/-- The functions of every buffer meet the getters of their names only. -/
theorem disjoint_attributeAccess (flds : List FldDscr) :
    (∀ sig ∈ Accessor.families.flatMap fun f => flds.map (Accessor.familySignature f),
      ∀ sig' ∈ attributeAccess.map MemberFunction.signature, sig ≠ sig') ↔
      ∀ el ∈ flds, el.name ∉ ["attributes".toList, "attr_names".toList] := by
  constructor
  · intro h el hel hmem
    have hget : (el.name, [], true) ∈
        Accessor.families.flatMap fun f => flds.map (Accessor.familySignature f) :=
      List.mem_flatMap.mpr ⟨(.get, false), by decide, List.mem_map_of_mem hel⟩
    have hall : ∀ name ∈ ["attributes".toList, "attr_names".toList],
        (name, [], true) ∈ attributeAccess.map MemberFunction.signature := by
      decide
    exact h _ hget _ (hall el.name hmem) rfl
  · rintro h sig hsig sig' hsig' rfl
    obtain ⟨⟨a, i⟩, -, hsig⟩ := List.mem_flatMap.mp hsig
    obtain ⟨el, hel, rfl⟩ := List.mem_map.mp hsig
    obtain ⟨m, hm, heq⟩ := List.mem_map.mp hsig'
    have hname : (a.function i el).name = m.name := (congrArg Prod.fst heq).symm
    have hnames : ∀ m ∈ attributeAccess, m.name ∈ ["attributes".toList, "attr_names".toList] := by
      decide
    have hstems : ∀ a ∈ [Accessor.isNull, .setNull, .set], ∀ m ∈ attributeAccess,
        a.stem.isPrefixOf m.name = false := by
      decide
    have hother : a ∈ [Accessor.isNull, .setNull, .set] → False := by
      intro ha
      have hprefix := isPrefixOf_of_name hname
      rw [hstems a ha m hm] at hprefix
      cases hprefix
    cases a with
    | isNull => exact hother (by decide)
    | setNull => exact hother (by decide)
    | get =>
        have hget : el.name = m.name := hname
        exact h el hel (hget ▸ hnames m hm)
    | set => exact hother (by decide)

/-- The names of the virtual functions that a getter for the first row redeclares. -/
def virtualNames : List Str := ["size", "occupied", "attr_names", "s_vec", "processed"]

theorem mem_memberFunctions {f : MemberFunction} {flds : List FldDscr} :
    f ∈ memberFunctions flds ↔
      (∃ fam ∈ Accessor.families, ∃ el ∈ flds, fam.1.function fam.2 el = f) ∨
        f ∈ attributeAccess := by
  simp only [memberFunctions, List.mem_append, List.mem_flatMap, List.mem_map]

/-- A redeclared function returns what the virtual function does unless it is a getter. -/
theorem overrides_iff (flds : List FldDscr) :
    (∀ f ∈ memberFunctions flds, ∀ v ∈ virtuals,
      f.signature = v.signature → f.returnType = v.returnType) ↔
      ∀ el ∈ flds, el.name ∉ virtualNames := by
  constructor
  · intro h el hel hmem
    have hvirtual : ∀ name ∈ virtualNames, ∃ v ∈ virtuals, v.signature = (name, [], true) ∧
        v.returnType ∈ [sizeType, "const void*".toList, "std::span<const cstr_t>".toList] := by
      decide
    obtain ⟨v, hv, hsig, hreturn⟩ := hvirtual el.name hmem
    have hget : Accessor.get.function false el ∈ memberFunctions flds :=
      mem_memberFunctions.mpr (.inl ⟨(.get, false), by decide, el, hel, rfl⟩)
    have htype : valueType el = v.returnType := h _ hget v hv hsig.symm
    exact valueType_notMem el (htype ▸ hreturn)
  · intro h f hf v hv hsig
    rcases mem_memberFunctions.mp hf with ⟨⟨a, i⟩, -, el, hel, rfl⟩ | hf
    · have hname : (a.function i el).name = v.name := congrArg Prod.fst hsig
      have hparams : (a.function i el).params = v.params := congrArg (·.2.1) hsig
      have hconst : (a.function i el).isConst = v.isConst := congrArg (·.2.2) hsig
      have hprefix : a.stem.isPrefixOf v.name = true := isPrefixOf_of_name hname
      have hset : ∀ a ∈ [Accessor.setNull, .set], ∀ v ∈ virtuals,
          a.stem.isPrefixOf v.name = true → "void".toList = v.returnType := by
        decide
      cases a with
      | isNull =>
          have hnone : ∀ v ∈ virtuals, ¬ Accessor.isNull.stem.isPrefixOf v.name = true := by
            decide
          exact absurd hprefix (hnone v hv)
      | setNull => exact hset _ (by decide) v hv hprefix
      | get =>
          -- the constant virtual functions take nothing or a text
          have hconstant : ∀ v ∈ virtuals, true = v.isConst →
              v.params ≠ [sizeType] ∧ ([] = v.params → v.name ∈ virtualNames) := by
            decide
          obtain ⟨hrow, hfirst⟩ := hconstant v hv hconst
          cases i with
          | false =>
              have hget : el.name = v.name := hname
              exact absurd (hget ▸ hfirst hparams) (h el hel)
          | true => exact absurd hparams.symm hrow
      | set => exact hset _ (by decide) v hv hprefix
    · have hown : ∀ f ∈ attributeAccess, ∀ v ∈ virtuals,
          f.signature = v.signature → f.returnType = v.returnType := by
        decide
      exact hown f hf v hv hsig

theorem className_iff (cName : Str) (flds : List FldDscr) :
    (∀ f ∈ memberFunctions flds, f.name ≠ cName) ↔
      cName ∉ ["attributes".toList, "attr_names".toList] ∧
        ∀ el ∈ flds, ∀ a : Accessor, cName ≠ a.stem ++ el.name := by
  constructor
  · intro h
    constructor
    · intro hmem
      have hnames : ∀ name ∈ ["attributes".toList, "attr_names".toList],
          ∃ f ∈ attributeAccess, f.name = name := by
        decide
      obtain ⟨f, hf, hname⟩ := hnames cName hmem
      exact h f (mem_memberFunctions.mpr (.inr hf)) hname
    · intro el hel a heq
      have hfirst : ∀ a : Accessor, (a, false) ∈ Accessor.families := by
        intro a
        cases a <;> decide
      have hmem : a.function false el ∈ memberFunctions flds :=
        mem_memberFunctions.mpr (.inl ⟨(a, false), hfirst a, el, hel, rfl⟩)
      exact h _ hmem ((Accessor.function_name a false el).trans heq.symm)
  · rintro ⟨hown, hflds⟩ f hf rfl
    rcases mem_memberFunctions.mp hf with ⟨⟨a, i⟩, -, el, hel, rfl⟩ | hf
    · exact hflds el hel a (Accessor.function_name a i el)
    · have hnames : ∀ f ∈ attributeAccess,
          f.name ∈ ["attributes".toList, "attr_names".toList] := by
        decide
      exact hown (hnames f hf)

/-- The names of fields that a getter cannot have. -/
def reservedNames : List Str := "attributes".toList :: virtualNames

/-- The member functions of a class fit each other, the class and the base class if and only
if the names of the fields are different, none is the one of a null getter, none is
reserved, and the class has the name of no accessor. -/
theorem wellFormedMembers_iff (cName : Str) (flds : List FldDscr) :
    WellFormedMembers cName flds ↔
      (flds.map FldDscr.name).Nodup ∧
        (∀ x ∈ flds, ∀ y ∈ flds, x.name ≠ "is_null_" ++ y.name) ∧
        (∀ el ∈ flds, el.name ∉ reservedNames) ∧
        cName ∉ ["attributes".toList, "attr_names".toList] ∧
        ∀ el ∈ flds, ∀ a : Accessor, cName ≠ a.stem ++ el.name := by
  have hdistinct : ((memberFunctions flds).map MemberFunction.signature).Nodup ↔
      ((flds.map FldDscr.name).Nodup ∧ ∀ x ∈ flds, ∀ y ∈ flds, x.name ≠ "is_null_" ++ y.name) ∧
        ∀ el ∈ flds, el.name ∉ ["attributes".toList, "attr_names".toList] := by
    rw [memberFunctions_signatures, List.nodup_append, Accessor.nodup_families,
      disjoint_attributeAccess]
    have hown : (attributeAccess.map MemberFunction.signature).Nodup := by decide
    constructor
    · rintro ⟨hnames, -, hreserved⟩
      exact ⟨hnames, hreserved⟩
    · rintro ⟨hnames, hreserved⟩
      exact ⟨hnames, hown, hreserved⟩
  have hreserved : ∀ name : Str, name ∈ reservedNames ↔
      name ∈ ["attributes".toList, "attr_names".toList] ∨ name ∈ virtualNames := by
    intro name
    constructor
    · intro h
      rcases List.mem_cons.mp h with rfl | h
      · exact .inl List.mem_cons_self
      · exact .inr h
    · rintro (h | h)
      · have hown : ∀ name ∈ ["attributes".toList, "attr_names".toList],
            name ∈ reservedNames := by
          decide
        exact hown name h
      · exact List.mem_cons_of_mem _ h
  constructor
  · rintro ⟨hsig, hclass, hover⟩
    obtain ⟨⟨hnames, hstem⟩, hattr⟩ := hdistinct.mp hsig
    obtain ⟨hown, hflds⟩ := (className_iff cName flds).mp hclass
    refine ⟨hnames, hstem, fun el hel hmem => ?_, hown, hflds⟩
    rcases (hreserved el.name).mp hmem with h | h
    · exact hattr el hel h
    · exact (overrides_iff flds).mp hover el hel h
  · rintro ⟨hnames, hstem, hres, hown, hflds⟩
    constructor
    · refine hdistinct.mpr ⟨⟨hnames, hstem⟩, fun el hel hmem => ?_⟩
      exact hres el hel ((hreserved el.name).mpr (.inl hmem))
    · exact (className_iff cName flds).mpr ⟨hown, hflds⟩
    · refine (overrides_iff flds).mpr fun el hel hmem => ?_
      exact hres el hel ((hreserved el.name).mpr (.inr hmem))

/-- The driver that describes columns of these names. -/
def naming (names : List Str) : Cli Unit where
  call _ c :=
    match c with
    | .numResultCols _ => ({ rc := Runtime.sqlSuccess, count := names.length }, ())
    | .describeCol _ ordinal =>
        ({ rc := Runtime.sqlSuccess
           dscr := { name := names.getD (ordinal.toNat - 1) [], type := 4 } }, ())
    | _ => ({ rc := Runtime.sqlSuccess }, ())
  diag _ _ _ := []

/-- The fields that are fetched for result columns of these names. -/
def fetched (names columns : List Str) : Except Exc (List FldDscr) :=
  (Act.runOn (fetchParamDscr (naming columns) names .res stmtM) (World.start ())).1

/-- Fields with a repeated name, with the name of a null getter, of a virtual function, and of
the class. -/
theorem not_wellFormedMembers :
    (∃ flds, fetched [] ["ID", "ID"] = .ok flds ∧ ¬ WellFormedMembers "res" flds) ∧
    (∃ flds, fetched ["x", "is_null_x"] ["X", "Y"] = .ok flds ∧
      ¬ WellFormedMembers "res" flds) ∧
    (∃ flds, fetched [] ["SIZE"] = .ok flds ∧ ¬ WellFormedMembers "res" flds) ∧
    ∃ flds, fetched [] ["RES"] = .ok flds ∧ ¬ WellFormedMembers "res" flds := by
  refine ⟨⟨_, rfl, fun h => ?_⟩, ⟨_, rfl, fun h => ?_⟩, ⟨_, rfl, fun h => ?_⟩,
    ⟨_, rfl, fun h => ?_⟩⟩
  · have hdistinct := h.distinct
    revert hdistinct
    decide
  · have hdistinct := h.distinct
    revert hdistinct
    decide
  · have hget := h.overrides { returnType := "int32_t", name := "size", params := []
                               isConst := true }
    revert hget
    decide
  · have hget := h.className { returnType := "int32_t", name := "res", params := []
                               isConst := true }
    revert hget
    decide

end Dbgen3.Generator
