import Dbgen3.Generator.ClassLines
import Dbgen3.Generator.Storage
import Dbgen3.Lib.Words

/-!
# Reading a buffer class back

The reader below takes the text of a buffer class and finds what the class
declares: its name and buffer type, and for every pointer in `A_` the database
type, the number of decimal places and the size of an element. It resolves the
names of constants, aliases and members, as a compiler does. The text of a class
reads back as the buffer that the fields describe.
-/

namespace Dbgen3.Generator

open Text Words
open Dbgen3.Runtime (AttrDscr BufType attrType ctName dbtName names_of_attrType)

/-! ## The reader -/

/-- The identifiers in the lines between a head with its brace and a closing brace. -/
def listed (head close : Str) (lines : List Str) : List Str :=
  (((lines.dropWhile fun l => ! starts head l).drop 2).takeWhile
    fun l => ! starts close l).flatMap (words isIdent)

/-- The value of a constant. -/
def constantOf (decls : List (Str × Str)) (name : Str) : Option Nat :=
  (decls.lookup name).bind decimalLiteral

/-- The value of the macro for a database type. -/
def dbTypeCode (name : Str) : Option Int :=
  (Runtime.dscr.find? fun d => d.dbtName == name).map Runtime.TypeDscr.dbType

/-- The attribute that a member is: its names are looked up among the declarations. -/
def attrOf (cSizeof : Str → Nat) (decls : List (Str × Str)) (var : Member × Option Str) :
    Option AttrDscr := do
  let type ← decls.lookup var.1.typeName
  let width ← elementSize cSizeof (constantOf decls) type
  let dbType ← dbTypeCode var.1.dbType
  let dec ← var.2.elim (some 0) (constantOf decls)
  pure { dbType, dec, width }

/-- A class that is read. -/
structure GeneratedClass where
  name : Str
  type : BufType
  /-- What `attr_names` returns. -/
  names : List Str
  /-- What the pointers point to that `attributes` returns. -/
  attrs : List AttrDscr

/-- The name in the line of a class, and the buffer type in the arguments of its base. -/
def classHead (line : Str) : Option (Str × BufType) :=
  let text := (line.dropWhile (· = ' ')).drop 6
  (bufTypes.find? fun bt => bt.name == ((text.dropWhile (· ≠ '<')).drop 15).takeWhile isIdent).map
    fun bt => (text.takeWhile isIdent, bt)

/-- Read the text of a class. -/
def readClass (cSizeof : Str → Nat) (text : Str) : Option GeneratedClass := do
  let lines := textLines text
  let head ← lines.find? (starts "class ")
  let (name, type) ← classHead head
  let body := lines.dropWhile fun l => ! starts "private:" l
  let decls := body.filterMap declaration
  let vars := body.filterMap memberVar
  let attrs ← (listed "attr_vec_t A_" "\x7d;" body).mapM fun name => do
    attrOf cSizeof decls (← vars.find? fun var => var.1.name == name)
  pure { name, type, attrs, names := listed "constexpr static const std::" "\x7d\x7d;" body }

/-- The attribute that a field describes. -/
def fieldAttr (cSizeof : Str → Nat) (el : FldDscr) : AttrDscr where
  dbType := el.type.code
  dec := match attrType el.type.code with
    | .bstring => 0
    | _ => el.dec
  width := match attrType el.type.code with
    | .string => el.width + 1
    | .bstring => max el.width 1
    | _ => cSizeof ((ctName el.type.code).getD [])

/-! ## Resolving the names -/

theorem lookup_of_mem {β : Type} {l : List (Str × β)} (hnodup : (l.map Prod.fst).Nodup) {k : Str}
    {v : β} (h : (k, v) ∈ l) (rest : List (Str × β)) : (l ++ rest).lookup k = some v := by
  induction l with
  | nil => cases h
  | cons d l ih =>
      rw [List.map_cons, List.nodup_cons] at hnodup
      obtain ⟨hd, hl⟩ := hnodup
      rw [List.cons_append, List.lookup_cons]
      rcases List.mem_cons.mp h with rfl | hmem
      · rw [beq_self_eq_true]
      · have hne : k ≠ d.1 := fun heq => hd (heq ▸ List.mem_map_of_mem hmem)
        rw [beq_false_of_ne hne]
        exact ih hl hmem

theorem filterMap_mapIdx {α : Type} {read : Str → Option α} {f : Nat → FldDscr → List Str}
    {g : Nat → FldDscr → List α} {flds : List FldDscr}
    (h : ∀ k, ∀ el ∈ flds, (f k el).filterMap read = g k el) :
    (flds.mapIdx f).flatten.filterMap read = (flds.mapIdx g).flatten := by
  induction flds generalizing f g with
  | nil => rfl
  | cons el rest ih =>
      obtain ⟨hel, hrest⟩ : (f 0 el).filterMap read = g 0 el ∧ ∀ k, ∀ e ∈ rest,
          (f (k + 1) e).filterMap read = g (k + 1) e :=
        ⟨h 0 el List.mem_cons_self, fun k e he => h (k + 1) e (List.mem_cons_of_mem el he)⟩
      rw [List.mapIdx_cons, List.mapIdx_cons, List.flatten_cons, List.flatten_cons,
        List.filterMap_append, hel, ih hrest]

theorem flatten_mapIdx_singleton {α β : Type} (f : Nat → α → β) (l : List α) :
    (l.mapIdx fun k a => [f k a]).flatten = l.mapIdx f := by
  induction l generalizing f with
  | nil => rfl
  | cons a l ih =>
      rw [List.mapIdx_cons, List.mapIdx_cons, List.flatten_cons, ih fun k => f (k + 1)]
      rfl

/-- What the lines of the constants and aliases declare. -/
def fieldDecls (flds : List FldDscr) (offs : Nat) : List (Str × Str) :=
  ((flds.mapIdx fun k el => constantLines k el offs).flatten ++
    (flds.mapIdx fun k el => typeLines k el offs).flatten).filterMap declaration

section

variable {flds : List FldDscr} (hflds : ∀ el ∈ flds, attrType el.type.code ≠ .unknown)
include hflds

theorem nodup_fieldDecls (offs : Nat) : ((fieldDecls flds offs).map Prod.fst).Nodup := by
  have hkeys : (fieldDecls flds offs).map Prod.fst =
      declaredNames ((flds.mapIdx fun k el => constantLines k el offs).flatten ++
        (flds.mapIdx fun k el => typeLines k el offs).flatten) := rfl
  rw [hkeys, declaredNames_append,
    declaredNames_mapIdx (g := constantNames) fun k el _ => declaredNames_constantLines k el offs,
    declaredNames_mapIdx (g := fun k _ => [typeAlias k]) fun k el hel =>
      declaredNames_typeLines (hflds el hel) k offs]
  exact nodup_names flds

theorem lookup_constant {k : Nat} {el : FldDscr} (hk : flds[k]? = some el) (offs : Nat)
    {d : Str × Str} (hd : d ∈ (constantLines k el offs).filterMap declaration)
    (rest : List (Str × Str)) : (fieldDecls flds offs ++ rest).lookup d.1 = some d.2 := by
  obtain ⟨hlt, hget⟩ := List.getElem?_eq_some_iff.mp hk
  refine lookup_of_mem (nodup_fieldDecls hflds offs) ?_ rest
  obtain ⟨l, hl, hread⟩ := List.mem_filterMap.mp hd
  refine List.mem_filterMap.mpr ⟨l, List.mem_append_left _ (List.mem_flatten.mpr
    ⟨constantLines k el offs, List.mem_mapIdx.mpr ⟨k, hlt, by rw [hget]⟩, hl⟩), hread⟩

theorem lookup_typeAlias {k : Nat} {el : FldDscr} (hk : flds[k]? = some el) (offs : Nat)
    (rest : List (Str × Str)) :
    ∃ value, (fieldDecls flds offs ++ rest).lookup (typeAlias k) = some value ∧
      storedType k el = value ++ ";" := by
  obtain ⟨hlt, hget⟩ := List.getElem?_eq_some_iff.mp hk
  obtain ⟨value, hread, htype, -⟩ :=
    declaration_typeLine (hflds el (List.mem_of_getElem? hk)) k offs
  refine ⟨value, lookup_of_mem (nodup_fieldDecls hflds offs) ?_ rest, htype⟩
  exact List.mem_filterMap.mpr ⟨_, List.mem_append_right _ (List.mem_flatten.mpr
    ⟨typeLines k el offs, List.mem_mapIdx.mpr ⟨k, hlt, by rw [hget]⟩, List.mem_singleton_self _⟩),
    hread⟩

/-- The constants of a field have its values. -/
theorem constantOf_lenName {k : Nat} {el : FldDscr} (hk : flds[k]? = some el) (offs : Nat)
    (hlen : lenLine k el offs ∈ constantLines k el offs) (rest : List (Str × Str)) :
    constantOf (fieldDecls flds offs ++ rest) (lenName k) = some el.width := by
  have hlookup := lookup_constant hflds hk offs
    (List.mem_filterMap.mpr ⟨_, hlen, declaration_lenLine k el offs⟩) rest
  unfold constantOf
  rw [hlookup]
  exact decimalLiteral_decimal el.width

theorem constantOf_decName {k : Nat} {el : FldDscr} (hk : flds[k]? = some el) (offs : Nat)
    (hline : decLine k el offs ∈ constantLines k el offs) (hdec : 0 ≤ el.dec)
    (rest : List (Str × Str)) :
    constantOf (fieldDecls flds offs ++ rest) (decName k) = some el.dec.toNat := by
  have hlookup := lookup_constant hflds hk offs
    (List.mem_filterMap.mpr ⟨_, hline, declaration_decLine k el offs⟩) rest
  obtain ⟨n, hn⟩ := Int.eq_ofNat_of_zero_le hdec
  unfold constantOf
  rw [hlookup]
  rw [hn]
  exact decimalLiteral_decimal n

end

theorem dbTypeCode_dbtName {dbType : Int} {name : Str} (h : dbtName dbType = some name) :
    dbTypeCode name = some dbType := by
  obtain ⟨d, hd, rfl⟩ := Option.map_eq_some_iff.mp h
  have hmem : d ∈ Runtime.dscr := List.mem_of_find?_eq_some hd
  have hcode : d.dbType = dbType := by simpa using List.find?_some hd
  have hall : ∀ d ∈ Runtime.dscr, dbTypeCode d.dbtName = some d.dbType := by decide
  rw [← hcode]
  exact hall d hmem

theorem elementSize_storedType {flds : List FldDscr}
    (hflds : ∀ el ∈ flds, attrType el.type.code ≠ .unknown) {k : Nat} {el : FldDscr}
    (hk : flds[k]? = some el) (offs : Nat) (rest : List (Str × Str)) (cSizeof : Str → Nat)
    {value : Str} (htype : storedType k el = value ++ ";") :
    elementSize cSizeof (constantOf (fieldDecls flds offs ++ rest)) value =
      some (fieldAttr cSizeof el).width := by
  refine elementSize_eq (hflds el (List.mem_of_getElem? hk)) htype cSizeof fun name hname => ?_
  have hlen := constantOf_lenName hflds hk offs
  unfold constantLines at hlen
  unfold usedByType at hname
  cases h : attrType el.type.code with
  | atomic | unknown => simp [h] at hname
  | string | bstring =>
      simp only [h] at hlen
      obtain rfl : name = lenName k := by simpa [h] using hname
      exact hlen (by simp) rest

/-- The names in the declaration of a member resolve to what its field describes. -/
theorem attrOf_memberAt {flds : List FldDscr}
    (hflds : ∀ el ∈ flds, attrType el.type.code ≠ .unknown) {k : Nat} {el : FldDscr}
    (hk : flds[k]? = some el) (hdec : 0 ≤ el.dec) (offs : Nat) (rest : List (Str × Str))
    (cSizeof : Str → Nat) :
    attrOf cSizeof (fieldDecls flds offs ++ rest) (memberAt k el, decConstant k el) =
      some (fieldAttr cSizeof el) := by
  have hel := hflds el (List.mem_of_getElem? hk)
  obtain ⟨value, hlookup, htype⟩ := lookup_typeAlias hflds hk offs rest
  have hwidth := elementSize_storedType hflds hk offs rest cSizeof htype
  obtain ⟨-, dbName, -, hdb⟩ := names_of_attrType hel
  have hcode : dbTypeCode (memberAt k el).dbType = some el.type.code := by
    unfold memberAt
    rw [hdb]
    exact dbTypeCode_dbtName hdb
  have hdecs : ∃ n : Nat, (decConstant k el).elim (some 0)
      (constantOf (fieldDecls flds offs ++ rest)) = some n ∧ (fieldAttr cSizeof el).dec = n := by
    have hconstant := constantOf_decName hflds hk offs
    unfold decConstant fieldAttr
    unfold constantLines at hconstant
    cases h : attrType el.type.code with
    | unknown => exact absurd h hel
    | atomic =>
        simp only [h] at hconstant
        exact ⟨_, hconstant (by simp) hdec rest, (Int.toNat_of_nonneg hdec).symm⟩
    | string =>
        simp only [h] at hconstant
        exact ⟨_, hconstant (by simp) hdec rest, (Int.toNat_of_nonneg hdec).symm⟩
    | bstring => exact ⟨0, rfl, rfl⟩
  obtain ⟨n, hn, hfield⟩ := hdecs
  unfold attrOf
  rw [show (memberAt k el, decConstant k el).1.typeName = typeAlias k from rfl, hlookup]
  simp only [Option.bind_eq_bind, Option.bind_some, hwidth, hcode, hn, ← hfield]
  rfl

/-- A member is found under the name of its position. -/
theorem find?_memberVar {flds : List FldDscr} {k : Nat} {el : FldDscr} (hk : flds[k]? = some el)
    (rest : List (Member × Option Str)) :
    ((flds.mapIdx fun k el => (memberAt k el, decConstant k el)) ++ rest).find?
      (fun var => var.1.name == memberName k) = some (memberAt k el, decConstant k el) := by
  obtain ⟨hlt, hget⟩ := List.getElem?_eq_some_iff.mp hk
  have hfind : (flds.mapIdx fun k el => (memberAt k el, decConstant k el)).find?
      (fun var => var.1.name == memberName k) = some (memberAt k el, decConstant k el) := by
    refine List.find?_eq_some_iff_getElem.mpr ⟨beq_self_eq_true (memberName k), k,
      by rwa [List.length_mapIdx], by rw [List.getElem_mapIdx, hget], fun j hj => ?_⟩
    rw [List.getElem_mapIdx]
    have hne : memberName j ≠ memberName k := fun h => Nat.ne_of_lt hj (memberName_injective h)
    simpa [memberAt] using hne
  rw [List.find?_append, hfind]
  rfl

theorem mapM_eq_some {α β : Type} {f : α → Option β} {as : List α} {bs : List β}
    (h : List.Forall₂ (fun a b => f a = some b) as bs) : as.mapM f = some bs := by
  induction h with
  | nil => rfl
  | cons hab _ ih => simp [hab, ih]

/-! ## The arrays -/

theorem words_sl (msg : Str) (offs : Nat) : words isIdent (sl msg offs) = words isIdent msg := by
  rw [sl, words_append_breaks (forall_mem_of_all rfl), s]
  exact words_breaks_append (fun c hc => List.eq_of_mem_replicate hc ▸ rfl) msg

/-- The lines of the rows have the words of the items in order. -/
theorem words_rowLines {trailing : Str} (htrailing : ∀ c ∈ trailing, isIdent c = false)
    (rows : List (List Str)) (offs : Nat) :
    ((rowLines trailing rows).map fun l => sl l offs).flatMap (words isIdent) =
      rows.flatten.flatMap (words isIdent) := by
  have hrow : ∀ (row : List Str) {tail : Str}, (∀ c ∈ tail, isIdent c = false) →
      words isIdent (sl (joinWith ", " row ++ tail) offs) = row.flatMap (words isIdent) := by
    intro row tail htail
    rw [words_sl, words_append_breaks htail]
    exact words_joinWith (forall_mem_of_all rfl) row
  induction rows with
  | nil => rfl
  | cons row rows ih =>
      cases rows with
      | nil =>
          rw [rowLines, List.map_singleton, List.flatMap_singleton, hrow row htrailing,
            List.flatten_singleton]
      | cons row' rows =>
          rw [rowLines, List.map_cons, List.flatMap_cons, hrow row (forall_mem_of_all rfl), ih,
            List.flatten_cons (l := row), List.flatMap_append]

/-- Lines that list items have the words of the items in order. -/
theorem Wrapped.words_eq {items lines : List Str} (h : Wrapped items lines) (offs : Nat) :
    (lines.map fun l => sl l offs).flatMap (words isIdent) = items.flatMap (words isIdent) := by
  obtain ⟨rows, trailing, rfl, -, htrailing, rfl⟩ := h.rows
  refine words_rowLines ?_ rows offs
  rcases htrailing with rfl | rfl <;> exact forall_mem_of_all rfl

/-- An array in the lines of a class: the lines in front of it do not start it, and its rows do
not end it. -/
theorem listed_eq {mark mark' head brace close : Str} {before rows after : List Str} {offs : Nat}
    (hbefore : ∀ l ∈ before, starts mark l = false) (hhead : starts mark (sl head offs) = true)
    (hrows : ∀ l ∈ rows, starts mark' (sl l (offs + 2)) = false)
    (hclose : starts mark' (sl close offs) = true) :
    listed mark mark' (before ++ (arrayLines head brace close rows offs ++ after)) =
      (rows.map fun l => sl l (offs + 2)).flatMap (words isIdent) := by
  have harray : arrayLines head brace close rows offs ++ after = sl head offs :: sl brace offs ::
      ((rows.map fun l => sl l (offs + 2)) ++ sl close offs :: after) := by
    simp [arrayLines]
  have hskip : (before ++ (sl head offs :: sl brace offs ::
      ((rows.map fun l => sl l (offs + 2)) ++ sl close offs :: after))).dropWhile
        (fun l => ! starts mark l) = sl head offs :: sl brace offs ::
      ((rows.map fun l => sl l (offs + 2)) ++ sl close offs :: after) := by
    rw [List.dropWhile_append_of_pos fun l hl => by rw [hbefore l hl]; rfl,
      List.dropWhile_cons_of_neg (by rw [hhead]; decide)]
  have htake : ((rows.map fun l => sl l (offs + 2)) ++ sl close offs :: after).takeWhile
      (fun l => ! starts mark' l) = rows.map fun l => sl l (offs + 2) := by
    rw [List.takeWhile_append_of_pos, List.takeWhile_cons_of_neg (by rw [hclose]; decide),
      List.append_nil]
    intro l hl
    obtain ⟨row, hrow, rfl⟩ := List.mem_map.mp hl
    rw [hrows row hrow]
    rfl
  unfold listed
  rw [harray, hskip, List.drop_succ_cons, List.drop_succ_cons, List.drop_zero, htake]

/-- The words of the items of the two arrays. -/
theorem words_memberAddress {flds : List FldDscr} (h : Numbered flds) :
    (flds.map memberAddress).flatMap (words isIdent) =
      (List.range flds.length).map memberName := by
  rw [← h.names, List.flatMap_map, ← List.flatMap_singleton' (flds.map FldDscr.aName),
    List.flatMap_map]
  refine List.flatMap_congr fun el hel => ?_
  obtain ⟨k, hk⟩ := h.exists_memberName hel
  unfold memberAddress
  rw [hk]
  exact (words_cons (by decide) _).trans
    (words_eq_singleton (List.cons_ne_nil _ _) (ident_memberName k))

theorem words_quotedName {flds : List FldDscr}
    (hnames : ∀ el ∈ flds, el.name ≠ [] ∧ Ident el.name) :
    (flds.map quotedName).flatMap (words isIdent) = flds.map FldDscr.name := by
  rw [List.flatMap_map, ← List.flatMap_singleton' (flds.map FldDscr.name), List.flatMap_map]
  refine List.flatMap_congr fun el hel => ?_
  obtain ⟨hne, hname⟩ := hnames el hel
  unfold quotedName
  rw [words_append_breaks (forall_mem_of_all rfl)]
  exact (words_cons (by decide) _).trans (words_eq_singleton hne hname)

/-! ## The class of a buffer -/

theorem classHead_classLine {q : GsqlQ} {bt : BufType} (offs : Nat)
    (hname : Ident (snakeCase (q.bufDscr bt).id)) :
    classHead (classLine q bt offs) = some (snakeCase (q.bufDscr bt).id, bt) := by
  have hclass : "class ".toList <+: "class " ++ snakeCase (q.bufDscr bt).id ++
      " : public db::buffer_root<" ++ bufTypeName bt ++ ", N>" := by
    simp only [List.append_assoc]
    exact List.prefix_append _ _
  have htext : ((classLine q bt offs).dropWhile (· = ' ')).drop 6 =
      snakeCase (q.bufDscr bt).id ++ ' ' :: (": public db::buffer_root".toList ++
        '<' :: ("db::BUF_TYPE::".toList ++ (bt.name ++ ',' :: " N>\n".toList))) := by
    unfold classLine bufTypeName
    unfold bufTypeName at hclass
    rw [dropWhile_sl (by decide : ∃ c ∈ "class ".toList.head?, c ≠ ' ') hclass]
    simp only [List.append_assoc, String.reduceToList, List.cons_append,
      List.nil_append, List.drop_succ_cons, List.drop_zero]
  have hnoAngle : '<' ∉ snakeCase (q.bufDscr bt).id ++ ' ' :: ": public db::buffer_root".toList := by
    intro h
    rcases List.mem_append.mp h with h | h
    · exact absurd (hname _ h) (by decide)
    · revert h
      decide
  unfold classHead
  simp only [htext]
  rw [takeWhile_stop hname (by decide), ← List.cons_append, ← List.append_assoc,
    dropWhile_stop (ne_of_notMem hnoAngle) (by decide)]
  have harg : (('<' :: ("db::BUF_TYPE::".toList ++ (bt.name ++ ',' :: " N>\n".toList))).drop
      15).takeWhile isIdent = bt.name := by
    cases bt <;> decide
  rw [harg]
  cases bt <;> rfl

/-- What the private section declares: the constants and aliases of the fields and their
members, in order, and perhaps something behind them. -/
theorem privateLines_read {flds : List FldDscr}
    (hflds : ∀ el ∈ flds, attrType el.type.code ≠ .unknown) (offs offs' : Nat)
    (arrays : List Str) :
    (∃ rest, (privateLine offs :: privateLines flds offs' arrays).filterMap declaration =
      fieldDecls flds offs' ++ rest) ∧
    ∃ rest, (privateLine offs :: privateLines flds offs' arrays).filterMap memberVar =
      (flds.mapIdx fun k el => (memberAt k el, decConstant k el)) ++ rest := by
  have hsection : declaration (privateLine offs) = none :=
    declaration_of_start (by decide : StartsOther "private:") (by decide) offs
  have hvar : memberVar (privateLine offs) = none :=
    memberVar_eq_none (by decide : Apart "private:" "db::") (by decide) offs
  constructor
  · rw [List.filterMap_cons_none hsection, privateLines, ← List.append_assoc,
      List.filterMap_append]
    exact ⟨_, rfl⟩
  · have hconstants : (flds.mapIdx fun k el => constantLines k el offs').flatten.filterMap
        memberVar = [] := List.filterMap_eq_nil_iff.mpr (forall_mem_mapIdx fun k el _ l hl =>
      (constantLines_spec k el offs' l hl).2)
    have htypes : (flds.mapIdx fun k el => typeLines k el offs').flatten.filterMap
        memberVar = [] := List.filterMap_eq_nil_iff.mpr (forall_mem_mapIdx fun k el hel l hl =>
      (typeLines_spec (hflds el hel) k offs' l hl).2)
    have hmembers : (flds.mapIdx fun k el => memberLines k el offs').flatten.filterMap
        memberVar = flds.mapIdx fun k el => (memberAt k el, decConstant k el) := by
      rw [filterMap_mapIdx fun k el hel => (memberLines_read (hflds el hel) k offs').2]
      exact flatten_mapIdx_singleton _ flds
    rw [List.filterMap_cons_none hvar, privateLines, List.filterMap_append,
      List.filterMap_append, List.filterMap_append, hconstants, htypes, hmembers]
    exact ⟨_, rfl⟩

/-- No line of the private section starts an array before the arrays. -/
theorem fieldLines_noArray {flds : List FldDscr}
    (hflds : ∀ el ∈ flds, attrType el.type.code ≠ .unknown) (offs offs' : Nat) :
    ∀ l ∈ privateLine offs :: privateLines flds offs' [],
      starts "attr_vec_t A_" l = false ∧ starts "constexpr static const std::" l = false := by
  refine List.forall_mem_cons.mpr ⟨⟨not_starts_sl (by decide : Apart "private:" "attr_vec_t A_")
    (by decide) offs, not_starts_sl (by decide : Apart "private:" "constexpr static const std::")
    (by decide) offs⟩, ?_⟩
  have hline : ∀ {l}, FieldLine l → starts "attr_vec_t A_" l = false ∧
      starts "constexpr static const std::" l = false := fun h => ⟨h.noArray, h.noNames⟩
  unfold privateLines
  rw [List.append_nil]
  refine List.forall_mem_append.mpr ⟨forall_mem_mapIdx fun k el _ l hl =>
    hline (constantLines_spec k el _ l hl).1, List.forall_mem_append.mpr ⟨?_, ?_⟩⟩
  · exact forall_mem_mapIdx fun k el hel l hl =>
      hline (typeLines_spec (hflds el hel) k _ l hl).1
  · exact forall_mem_mapIdx fun k el hel l hl =>
      hline ((memberLines_read (hflds el hel) k _).1 l hl)

/-- The pointers of `A_` are read as the attributes of the fields. -/
theorem attrs_read {flds : List FldDscr} (hflds : Compilable flds) (cSizeof : Str → Nat)
    (offs : Nat) (rest : List (Str × Str)) (rest' : List (Member × Option Str)) :
    ((List.range flds.length).map memberName).mapM (fun name => do
      attrOf cSizeof (fieldDecls flds offs ++ rest)
        (← ((flds.mapIdx fun k el => (memberAt k el, decConstant k el)) ++ rest').find?
          fun var => var.1.name == name)) = some (flds.map (fieldAttr cSizeof)) := by
  apply mapM_eq_some
  rw [List.forall₂_iff_get]
  refine ⟨by simp, fun k hk _ => ?_⟩
  have hlt : k < flds.length := by simpa using hk
  have hget : flds[k]? = some flds[k] := List.getElem?_eq_getElem hlt
  simp only [List.get_eq_getElem, List.getElem_map, List.getElem_range, Option.bind_eq_bind]
  rw [find?_memberVar hget, Option.bind_some]
  exact attrOf_memberAt hflds.stored hget (hflds.dec _ (List.getElem_mem hlt)) offs rest cSizeof

/-- The class that a field list and a name describe. -/
def classOf (cSizeof : Str → Nat) (q : GsqlQ) (bt : BufType) : GeneratedClass where
  name := snakeCase (q.bufDscr bt).id
  type := bt
  names := (q.bufDscr bt).flds.map FldDscr.name
  attrs := (q.bufDscr bt).flds.map (fieldAttr cSizeof)

/-- What the lines in front of a class do not start with. -/
def frontMarks : List Str := ["class ", "private:"]

/-- The lines of a class, also behind other lines, are read as the class that is described. -/
theorem readClass_lines {q : GsqlQ} {bt : BufType} {offs : Nat} {text : Str}
    (h : genBufClass q bt offs = .ok text) (hid : '\n' ∉ q.id)
    (hname : Ident (snakeCase (q.bufDscr bt).id)) (hflds : Compilable (q.bufDscr bt).flds)
    (hne : (q.bufDscr bt).flds ≠ []) (cSizeof : Str → Nat) {pre : List Str}
    (hpre : ∀ l ∈ pre, LineFree frontMarks l) :
    readClass cSizeof (pre.flatten ++ text) = some (classOf cSizeof q bt) := by
  have hn := newline_notMem_ident hname
  obtain ⟨front, pointers, names, rfl, hfind, hfront, hpointers, hnames⟩ :=
    genBufClass_lines h hid hn hflds hne
  have hfree := lineFree_classLines hflds offs hfront hpointers hnames
  unfold classOf
  generalize hfields : (q.bufDscr bt).flds = flds at *
  let fields := privateLine offs :: privateLines flds (offs + 2) []
  have hend : Line (classEnd q bt offs) :=
    line_sl (newline_notMem_append (by decide) hn) offs
  generalize hlast : classEnd q bt offs = last at *
  have hlines : textLines (pre.flatten ++ (front ++ (privateLine offs :: privateLines flds
      (offs + 2) (arraysOf flds (offs + 2) pointers names last))).flatten) =
        (pre ++ front) ++ (privateLine offs :: privateLines flds (offs + 2)
          (arraysOf flds (offs + 2) pointers names last)) := by
    rw [← List.flatten_append, textLines_flatten, List.append_assoc]
    refine List.forall_mem_append.mpr ⟨fun l hl => (hpre l hl).line, ?_⟩
    intro l hl
    have hsplit : front ++ (privateLine offs :: privateLines flds (offs + 2)
        (arraysOf flds (offs + 2) pointers names last)) =
          (front ++ (privateLine offs :: privateLines flds (offs + 2)
            (arrayLines "attr_vec_t A_" "\x7b" "\x7d;" pointers (offs + 2) ++
              arrayLines (nameArrayHead flds) "\x7b\x7b" "\x7d\x7d;" names (offs + 2)))) ++
            [last] := by
      simp [privateLines, arraysOf]
    rw [hsplit] at hl
    rcases List.mem_append.mp hl with hl | hl
    · exact (hfree l hl).line
    · exact List.mem_singleton.mp hl ▸ hend
  have hfront' : ∀ l ∈ pre ++ front, starts "private:" l = false :=
    List.forall_mem_append.mpr ⟨fun l hl => (hpre l hl).free _ (by decide),
      fun l hl => (hfront l hl).before⟩
  have hbody : ((pre ++ front) ++ (privateLine offs :: privateLines flds (offs + 2)
      (arraysOf flds (offs + 2) pointers names last))).dropWhile
        (fun l => ! starts "private:" l) = privateLine offs :: privateLines flds (offs + 2)
      (arraysOf flds (offs + 2) pointers names last) := by
    rw [List.dropWhile_append_of_pos fun l hl => by rw [hfront' l hl]; rfl,
      List.dropWhile_cons_of_neg]
    rw [privateLine, starts_sl (by decide) (by decide)]
    decide
  have hsection : privateLine offs :: privateLines flds (offs + 2)
      (arraysOf flds (offs + 2) pointers names last) =
        fields ++ arraysOf flds (offs + 2) pointers names last := by
    simp [fields, privateLines]
  have hnone := fieldLines_noArray hflds.stored offs (offs + 2)
  have hlisted : listed "attr_vec_t A_" "\x7d;" (fields ++
      arraysOf flds (offs + 2) pointers names last) = (List.range flds.length).map memberName := by
    unfold arraysOf
    rw [listed_eq (fun l hl => (hnone l hl).1) (starts_sl (by decide) (by decide) _)
      (hpointers.not_starts (by decide : Apart "&" "\x7d;") ?_ _)
      (starts_sl (by decide) (by decide) _), hpointers.words_eq, words_memberAddress hflds.toNumbered]
    intro item hitem
    obtain ⟨el, -, rfl⟩ := List.mem_map.mp hitem
    exact ⟨_, rfl⟩
  have hnamed : listed "constexpr static const std::" "\x7d\x7d;" (fields ++
      arraysOf flds (offs + 2) pointers names last) = flds.map FldDscr.name := by
    unfold arraysOf
    rw [← List.append_assoc, listed_eq ?_ ?_ (hnames.not_starts (by decide : Apart "\"" "\x7d\x7d;")
      ?_ _) (starts_sl (by decide) (by decide) _), hnames.words_eq, words_quotedName hflds.ident]
    · refine List.forall_mem_append.mpr ⟨fun l hl => (hnone l hl).2, ?_⟩
      refine List.forall_mem_cons.mpr ⟨not_starts_sl (by decide : Apart "attr_vec_t A_" _)
        (List.prefix_refl _) _, ?_⟩
      refine List.forall_mem_cons.mpr ⟨not_starts_sl (by decide : Apart "\x7b" _)
        (List.prefix_refl _) _, List.forall_mem_append.mpr ⟨?_, List.forall_mem_singleton.mpr
          (not_starts_sl (by decide : Apart "\x7d;" _) (List.prefix_refl _) _)⟩⟩
      intro l hl
      obtain ⟨row, hrow, rfl⟩ := List.mem_map.mp hl
      refine hpointers.not_starts (by decide : Apart "&" _) ?_ _ row hrow
      intro item hitem
      obtain ⟨el, -, rfl⟩ := List.mem_map.mp hitem
      exact ⟨_, rfl⟩
    · refine starts_sl (by decide) ?_ _
      unfold nameArrayHead
      rw [List.append_assoc]
      exact List.IsPrefix.trans (by decide) (List.prefix_append _ _)
    · intro item hitem
      obtain ⟨el, -, rfl⟩ := List.mem_map.mp hitem
      exact ⟨_, rfl⟩
  obtain ⟨⟨rest, hdecls⟩, rest', hvars⟩ := privateLines_read hflds.stored offs (offs + 2)
    (arraysOf flds (offs + 2) pointers names last)
  have hclass : ((pre ++ front) ++ (privateLine offs :: privateLines flds (offs + 2)
      (arraysOf flds (offs + 2) pointers names last))).find? (starts "class ") =
        some (classLine q bt offs) := by
    have hnone : pre.find? (starts "class ") = none := List.find?_eq_none.mpr fun l hl => by
      rw [(hpre l hl).free _ (by decide)]
      exact Bool.false_ne_true
    rw [List.find?_append, List.find?_append, hnone, hfind]
    rfl
  unfold readClass
  simp only [hlines, hbody, hclass, Option.bind_eq_bind, Option.bind_some,
    classHead_classLine offs hname, hdecls, hvars]
  rw [hsection, hlisted, hnamed]
  have hattrs := attrs_read hflds cSizeof (offs + 2) rest rest'
  simp only [Option.bind_eq_bind] at hattrs
  rw [hattrs]
  rfl

/-- The class that the generator prints for a buffer reads back as that buffer: it has its name
and type, the names of the fields, and for each field in order the database type, the number of
decimal places and an element of the size of the column. -/
theorem readClass_genBufClass (q : GsqlQ) (bt : BufType) (offs : Nat) (text : Str)
    (h : genBufClass q bt offs = .ok text) (hid : '\n' ∉ q.id)
    (hname : Ident (snakeCase (q.bufDscr bt).id)) (hflds : Compilable (q.bufDscr bt).flds)
    (hne : (q.bufDscr bt).flds ≠ []) (cSizeof : Str → Nat) :
    readClass cSizeof text = some
      { name := snakeCase (q.bufDscr bt).id, type := bt
        names := (q.bufDscr bt).flds.map FldDscr.name
        attrs := (q.bufDscr bt).flds.map (fieldAttr cSizeof) } :=
  readClass_lines h hid hname hflds hne cSizeof (List.forall_mem_nil _)

theorem genBufClass_threeColumns : ∃ text, genBufClass threeColumns .res 4 = .ok text := by
  have hprinted : (genBufClass threeColumns .res 4).isOk = true := by decide +kernel
  cases h : genBufClass threeColumns .res 4 with
  | error e =>
      rw [h] at hprinted
      cases hprinted
  | ok text => exact ⟨text, rfl⟩

theorem compilable_threeColumns : Compilable (threeColumns.bufDscr .res).flds where
  stored := by decide
  names := by decide
  ident := by decide
  dec := by decide

/-- A class with a column of each kind. -/
theorem readClass_threeColumns :
    ∃ text, genBufClass threeColumns .res 4 = .ok text ∧
      readClass (fun _ => 4) text = some
        { name := snakeCase (threeColumns.bufDscr .res).id, type := .res
          names := (threeColumns.bufDscr .res).flds.map FldDscr.name
          attrs := (threeColumns.bufDscr .res).flds.map (fieldAttr fun _ => 4) } := by
  obtain ⟨text, h⟩ := genBufClass_threeColumns
  exact ⟨text, h, readClass_genBufClass threeColumns .res 4 text h (by decide) (by decide)
    compilable_threeColumns (by decide) fun _ => 4⟩

end Dbgen3.Generator
