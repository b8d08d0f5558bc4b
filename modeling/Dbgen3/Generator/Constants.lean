import Dbgen3.Generator.BufferClasses
import Dbgen3.Generator.Declarations

/-!
# The constants of a class

Three loops print the constants, the type aliases and the members of a class,
and each of them makes the names from its own count and has its own cases for
the kind of a field. What they print for a field uses only its own names.
-/

namespace Dbgen3.Generator

open Text
open Dbgen3.Runtime (BufType attrType ctName ctName_ne_none)

/-! ## The lines of the fields -/

/-- The line of `define_attr_types` for a field. -/
def typeLines (k : Nat) (el : FldDscr) (offs : Nat) : List Str :=
  [sl ("using " ++ typeAlias k ++ " = " ++ storedType k el) offs]

/-- The line of `define_attributes` for a field. -/
def memberLines (k : Nat) (el : FldDscr) (offs : Nat) : List Str :=
  match attributeDecl k el with
  | .ok line => [sl line offs]
  | .error _ => []

/-- The names that the lines declare, in order. -/
def declaredNames (lines : List Str) : List Str := (lines.filterMap declaration).map Prod.fst

theorem declaredNames_append (ls ls' : List Str) :
    declaredNames (ls ++ ls') = declaredNames ls ++ declaredNames ls' := by
  unfold declaredNames
  rw [List.filterMap_append, List.map_append]

/-- A loop over the fields prints the lines of each. -/
theorem fieldsFrom_lines {line : Nat → FldDscr → Except Exc Str} (ls : Nat → FldDscr → List Str)
    {flds : List FldDscr} (pos : Nat)
    (h : ∀ k, ∀ el ∈ flds, line k el = .ok (ls k el).flatten) :
    fieldsFrom line pos flds = .ok (flds.mapIdx fun k el => ls (pos + k) el).flatten.flatten := by
  induction flds generalizing pos with
  | nil => rfl
  | cons el rest ih =>
      have hrest := ih (pos + 1) fun k e he => h k e (List.mem_cons_of_mem el he)
      have hshift : (fun k (el : FldDscr) => ls (pos + 1 + k) el) =
          fun k el => ls (pos + (k + 1)) el := by
        funext k el
        rw [Nat.add_assoc, Nat.add_comm 1 k]
      rw [fieldsFrom, h pos el List.mem_cons_self, hrest, hshift, List.mapIdx_cons,
        List.flatten_cons, List.flatten_append]
      rfl

theorem loops_eq {flds : List FldDscr} (hflds : ∀ el ∈ flds, attrType el.type.code ≠ .unknown)
    (offs : Nat) :
    defineAttributesConst flds offs =
        .ok (flds.mapIdx fun k el => constantLines k el offs).flatten.flatten ∧
      defineAttrTypes flds offs =
        .ok (flds.mapIdx fun k el => typeLines k el offs).flatten.flatten ∧
      defineAttributes flds offs =
        .ok (flds.mapIdx fun k el => memberLines k el offs).flatten.flatten := by
  refine ⟨?_, ?_, ?_⟩
  · unfold defineAttributesConst
    rw [fieldsFrom_lines fun k el => constantLines k el offs]
    · simp
    · intro k el hel
      unfold constantLines
      cases h : attrType el.type.code with
      | unknown => exact absurd h (hflds el hel)
      | atomic => simp
      | string => simp
      | bstring => simp
  · unfold defineAttrTypes
    rw [fieldsFrom_lines fun k el => typeLines k el offs]
    · simp
    · intro k el hel
      rw [aliasedType_eq (hflds el hel), typeLines, List.flatten_singleton]
      rfl
  · unfold defineAttributes
    rw [fieldsFrom_lines fun k el => memberLines k el offs]
    · simp
    · intro k el hel
      obtain ⟨line, hline, -, -⟩ := uses_attributeDecl (hflds el hel) k offs
      unfold memberLines
      rw [hline]
      simp [bind, Except.bind, pure, Except.pure]

/-- The names that `define_attributes_const` declares for a field. -/
def constantNames (k : Nat) (el : FldDscr) : List Str :=
  match attrType el.type.code with
  | .atomic => [decName k]
  | .string => [decName k, lenName k]
  | .bstring => [lenName k]
  | .unknown => []

theorem declaration_constantLines (k : Nat) (el : FldDscr) (offs : Nat) :
    (constantLines k el offs).filterMap declaration =
      match attrType el.type.code with
      | .atomic => [(decName k, intDecimal el.dec)]
      | .string => [(decName k, intDecimal el.dec), (lenName k, decimal el.width)]
      | .bstring => [(lenName k, decimal el.width)]
      | .unknown => [] := by
  unfold constantLines
  cases attrType el.type.code with
  | unknown => rfl
  | atomic => simp only [List.filterMap_cons, declaration_decLine, List.filterMap_nil]
  | string =>
      simp only [List.filterMap_cons, declaration_decLine, declaration_lenLine, List.filterMap_nil]
  | bstring => simp only [List.filterMap_cons, declaration_lenLine, List.filterMap_nil]

theorem declaredNames_constantLines (k : Nat) (el : FldDscr) (offs : Nat) :
    declaredNames (constantLines k el offs) = constantNames k el := by
  unfold declaredNames constantNames
  rw [declaration_constantLines]
  cases attrType el.type.code with
  | unknown => rfl
  | atomic => rfl
  | string => rfl
  | bstring => rfl

theorem declaredNames_typeLines {el : FldDscr} (hel : attrType el.type.code ≠ .unknown)
    (k offs : Nat) : declaredNames (typeLines k el offs) = [typeAlias k] := by
  obtain ⟨value, hdecl, -, -⟩ := declaration_typeLine hel k offs
  unfold declaredNames typeLines
  simp only [List.filterMap_cons, hdecl, List.filterMap_nil]
  rfl

theorem uses_typeLines {el : FldDscr} (hel : attrType el.type.code ≠ .unknown) (k offs : Nat) :
    (typeLines k el offs).flatMap uses = usedByType k el := by
  obtain ⟨value, hdecl, -, hused⟩ := declaration_typeLine hel k offs
  rw [typeLines, List.flatMap_singleton, uses, hdecl]
  exact hused

theorem memberLines_spec {el : FldDscr} (hel : attrType el.type.code ≠ .unknown) (k offs : Nat) :
    declaredNames (memberLines k el offs) = [] ∧
      (memberLines k el offs).flatMap uses = usedByMember k el := by
  obtain ⟨line, hline, hnone, hused⟩ := uses_attributeDecl hel k offs
  unfold memberLines declaredNames
  rw [hline]
  dsimp only
  rw [List.flatMap_singleton]
  refine ⟨?_, hused⟩
  simp only [List.filterMap_cons, hnone, List.filterMap_nil, List.map_nil]

theorem declaredNames_mapIdx {f g : Nat → FldDscr → List Str} {flds : List FldDscr}
    (h : ∀ k, ∀ el ∈ flds, declaredNames (f k el) = g k el) :
    declaredNames (flds.mapIdx f).flatten = (flds.mapIdx g).flatten := by
  induction flds generalizing f g with
  | nil => rfl
  | cons el rest ih =>
      have hrest := ih fun k e he => h (k + 1) e (List.mem_cons_of_mem el he)
      rw [List.mapIdx_cons, List.mapIdx_cons, List.flatten_cons, List.flatten_cons,
        declaredNames_append, h 0 el List.mem_cons_self, hrest]

/-- The names that the loops make for a position. -/
def OfPosition (k : Nat) (x : Str) : Prop := x = decName k ∨ x = lenName k ∨ x = typeAlias k

/-- No name is made for two positions. -/
theorem OfPosition.unique {j k : Nat} {x : Str} (h : OfPosition j x) (h' : OfPosition k x) :
    j = k := by
  rcases h with rfl | rfl | rfl
  · rcases h' with h | h | h
    · exact decName_injective h
    · simp [decName, lenName] at h
    · simp [decName, typeAlias] at h
  · rcases h' with h | h | h
    · simp [decName, lenName] at h
    · exact lenName_injective h
    · simp [lenName, typeAlias] at h
  · rcases h' with h | h | h
    · simp [decName, typeAlias] at h
    · simp [lenName, typeAlias] at h
    · exact typeAlias_injective h

theorem ofPosition_constantNames {k : Nat} {el : FldDscr} {x : Str}
    (h : x ∈ constantNames k el) : OfPosition k x ∧ x ≠ typeAlias k := by
  have hdec : decName k ≠ typeAlias k := by simp [decName, typeAlias]
  have hlen : lenName k ≠ typeAlias k := by simp [lenName, typeAlias]
  unfold constantNames at h
  cases hkind : attrType el.type.code with
  | unknown => simp [hkind] at h
  | atomic =>
      obtain rfl : x = decName k := by simpa [hkind] using h
      exact ⟨.inl rfl, hdec⟩
  | string =>
      rcases (by simpa [hkind] using h : x = decName k ∨ x = lenName k) with rfl | rfl
      · exact ⟨.inl rfl, hdec⟩
      · exact ⟨.inr (.inl rfl), hlen⟩
  | bstring =>
      obtain rfl : x = lenName k := by simpa [hkind] using h
      exact ⟨.inr (.inl rfl), hlen⟩

theorem nodup_constantNames (k : Nat) (el : FldDscr) : (constantNames k el).Nodup := by
  have hne : decName k ≠ lenName k := by simp [decName, lenName]
  unfold constantNames
  cases attrType el.type.code with
  | unknown => exact List.nodup_nil
  | atomic => exact List.nodup_singleton _
  | string => simp [hne]
  | bstring => exact List.nodup_singleton _

/-- Names of one position each, over all positions. -/
theorem nodup_flatten_mapIdx {g : Nat → FldDscr → List Str} {flds : List FldDscr}
    (hnodup : ∀ k el, (g k el).Nodup) (hof : ∀ k el, ∀ x ∈ g k el, OfPosition k x) :
    (flds.mapIdx g).flatten.Nodup := by
  rw [List.nodup_flatten]
  constructor
  · intro names hnames
    obtain ⟨k, hk, rfl⟩ := List.mem_mapIdx.mp hnames
    exact hnodup k _
  · rw [List.pairwise_iff_getElem]
    intro j k hj hk hlt x hx hx'
    rw [List.getElem_mapIdx] at hx hx'
    have := (hof j _ x hx).unique (hof k _ x hx')
    omega

/-- All constants and aliases of a class have different names. -/
theorem nodup_names (flds : List FldDscr) :
    ((flds.mapIdx constantNames).flatten ++
      (flds.mapIdx fun k _ => [typeAlias k]).flatten).Nodup := by
  refine List.Nodup.append ?_ ?_ ?_
  · exact nodup_flatten_mapIdx nodup_constantNames fun k el x hx =>
      (ofPosition_constantNames hx).1
  · refine nodup_flatten_mapIdx (fun k el => List.nodup_singleton _) fun k el x hx => ?_
    exact .inr (.inr (List.mem_singleton.mp hx))
  · intro x hx hx'
    obtain ⟨names, hnames, hx⟩ := List.mem_flatten.mp hx
    obtain ⟨j, hj, rfl⟩ := List.mem_mapIdx.mp hnames
    obtain ⟨names', hnames', hx'⟩ := List.mem_flatten.mp hx'
    obtain ⟨k, hk, rfl⟩ := List.mem_mapIdx.mp hnames'
    obtain ⟨hof, hne⟩ := ofPosition_constantNames hx
    obtain rfl := List.mem_singleton.mp hx'
    obtain rfl := hof.unique (.inr (.inr rfl))
    exact hne rfl

/-- The lines of a class: what the three loops print for each field, and the other lines. -/
def classLines (flds : List FldDscr) (offs : Nat) (before after : List Str) : List Str :=
  before ++ ((flds.mapIdx fun k el => constantLines k el offs).flatten ++
    ((flds.mapIdx fun k el => typeLines k el offs).flatten ++
      ((flds.mapIdx fun k el => memberLines k el offs).flatten ++ after)))

/-- Every name that the alias or the member of a field uses is declared once in the lines of the
class, by an earlier line of the field, and the constants of the field have its number of decimal
places and its width. -/
structure UsesOwn (k : Nat) (el : FldDscr) (offs : Nat) (lines : List Str) : Prop where
  usedByType : (typeLines k el offs).flatMap uses = usedByType k el
  usedByMember : (memberLines k el offs).flatMap uses = usedByMember k el
  ownForType : ∀ x ∈ (typeLines k el offs).flatMap uses,
    x ∈ declaredNames (constantLines k el offs)
  ownForMember : ∀ x ∈ (memberLines k el offs).flatMap uses,
    x ∈ declaredNames (constantLines k el offs ++ typeLines k el offs)
  once : ∀ x ∈ (typeLines k el offs).flatMap uses ++ (memberLines k el offs).flatMap uses,
    (declaredNames lines).count x = 1
  values : ∀ d ∈ (constantLines k el offs).filterMap declaration,
    d = (decName k, intDecimal el.dec) ∨ d = (lenName k, decimal el.width)

theorem isConstant_of_ofPosition {k : Nat} {x : Str} (h : OfPosition k x) :
    isConstant x = true := by
  rcases h with rfl | rfl | rfl
  · exact isConstant_decName k
  · exact isConstant_lenName k
  · exact isConstant_typeAlias k

theorem mem_constantNames_of_usedByType {k : Nat} {el : FldDscr} {x : Str}
    (h : x ∈ usedByType k el) : x ∈ constantNames k el := by
  unfold usedByType at h
  unfold constantNames
  cases hkind : attrType el.type.code with
  | unknown => simp [hkind] at h
  | atomic => simp [hkind] at h
  | string =>
      obtain rfl : x = lenName k := by simpa [hkind] using h
      simp
  | bstring => simpa [hkind] using h

theorem mem_of_usedByMember {k : Nat} {el : FldDscr} {x : Str} (h : x ∈ usedByMember k el) :
    x ∈ constantNames k el ++ [typeAlias k] := by
  unfold usedByMember at h
  unfold constantNames
  cases hkind : attrType el.type.code with
  | unknown => simp [hkind] at h
  | atomic =>
      rcases (by simpa [hkind] using h : x = typeAlias k ∨ x = decName k) with rfl | rfl
      · simp
      · simp
  | string =>
      rcases (by simpa [hkind] using h : x = typeAlias k ∨ x = decName k) with rfl | rfl
      · simp
      · simp
  | bstring =>
      obtain rfl : x = typeAlias k := by simpa [hkind] using h
      simp

theorem count_declaredNames_other {lines : List Str} (h : ∀ l ∈ lines, OtherLine l) {x : Str}
    (hx : isConstant x = true) : (declaredNames lines).count x = 0 := by
  apply List.count_eq_zero_of_not_mem
  intro hmem
  obtain ⟨d, hd, rfl⟩ := List.mem_map.mp hmem
  obtain ⟨l, hl, hdecl⟩ := List.mem_filterMap.mp hd
  rw [(h l hl).silent d hdecl] at hx
  cases hx

/-- In the lines of a class every name is declared once. -/
theorem count_declaredNames {flds : List FldDscr}
    (hflds : ∀ el ∈ flds, attrType el.type.code ≠ .unknown) {before after : List Str}
    (hbefore : ∀ l ∈ before, OtherLine l) (hafter : ∀ l ∈ after, OtherLine l) (offs : Nat)
    {k : Nat} {el : FldDscr} (hk : flds[k]? = some el) {x : Str}
    (hx : x ∈ constantNames k el ++ [typeAlias k]) :
    (declaredNames (classLines flds offs before after)).count x = 1 := by
  have hof : OfPosition k x := by
    rcases List.mem_append.mp hx with hx | hx
    · exact (ofPosition_constantNames hx).1
    · exact .inr (.inr (List.mem_singleton.mp hx))
  have hx' : isConstant x = true := isConstant_of_ofPosition hof
  obtain ⟨hlt, rfl⟩ := List.getElem?_eq_some_iff.mp hk
  have hconstants : declaredNames (flds.mapIdx fun k el => constantLines k el offs).flatten =
      (flds.mapIdx constantNames).flatten :=
    declaredNames_mapIdx fun k el _ => declaredNames_constantLines k el offs
  have htypes : declaredNames (flds.mapIdx fun k el => typeLines k el offs).flatten =
      (flds.mapIdx fun k _ => [typeAlias k]).flatten :=
    declaredNames_mapIdx fun k el hel => declaredNames_typeLines (hflds el hel) k offs
  have hmembers : declaredNames (flds.mapIdx fun k el => memberLines k el offs).flatten =
      (flds.mapIdx fun _ _ => []).flatten :=
    declaredNames_mapIdx fun k el hel => (memberLines_spec (hflds el hel) k offs).1
  have hnone : (flds.mapIdx fun _ _ => ([] : List Str)).flatten = [] := by
    rw [List.flatten_eq_nil_iff]
    intro names hnames
    obtain ⟨j, hj, rfl⟩ := List.mem_mapIdx.mp hnames
    rfl
  have hmem : x ∈ (flds.mapIdx constantNames).flatten ++
      (flds.mapIdx fun k _ => [typeAlias k]).flatten := by
    rcases List.mem_append.mp hx with hx | hx
    · exact List.mem_append_left _
        (List.mem_flatten_of_mem (List.mem_mapIdx.mpr ⟨k, hlt, rfl⟩) hx)
    · exact List.mem_append_right _
        (List.mem_flatten_of_mem (List.mem_mapIdx.mpr ⟨k, hlt, rfl⟩) hx)
  unfold classLines
  rw [declaredNames_append, declaredNames_append, declaredNames_append, declaredNames_append,
    hconstants, htypes, hmembers, hnone, List.nil_append, List.count_append,
    count_declaredNames_other hbefore hx', ← List.append_assoc, List.count_append,
    count_declaredNames_other hafter hx', List.count_eq_one_of_mem (nodup_names flds) hmem]

/-- A field uses its own names in the lines of a class. -/
theorem usesOwn_classLines {flds : List FldDscr}
    (hflds : ∀ el ∈ flds, attrType el.type.code ≠ .unknown) {before after : List Str}
    (hbefore : ∀ l ∈ before, OtherLine l) (hafter : ∀ l ∈ after, OtherLine l) (offs : Nat)
    {k : Nat} {el : FldDscr} (hk : flds[k]? = some el) :
    UsesOwn k el offs (classLines flds offs before after) := by
  have hel := hflds el (List.mem_of_getElem? hk)
  have htype := uses_typeLines hel k offs
  obtain ⟨-, hmember⟩ := memberLines_spec hel k offs
  refine ⟨htype, hmember, ?_, ?_, ?_, ?_⟩
  · rw [htype, declaredNames_constantLines]
    exact fun x hx => mem_constantNames_of_usedByType hx
  · rw [hmember, declaredNames_append, declaredNames_constantLines, declaredNames_typeLines hel]
    exact fun x hx => mem_of_usedByMember hx
  · rw [htype, hmember]
    intro x hx
    refine count_declaredNames hflds hbefore hafter offs hk ?_
    rcases List.mem_append.mp hx with hx | hx
    · exact List.mem_append_left _ (mem_constantNames_of_usedByType hx)
    · exact mem_of_usedByMember hx
  · rw [declaration_constantLines]
    intro d hd
    cases hkind : attrType el.type.code with
    | unknown => simp [hkind] at hd
    | atomic => exact .inl (by simpa [hkind] using hd)
    | string => simpa [hkind] using hd
    | bstring => exact .inr (by simpa [hkind] using hd)

/-- Every constant and type alias that is used in the class of a buffer is declared once in it:
in front of the line that uses it, for the same field, with the width or the number of decimal
places of the field. -/
theorem genBuf_usesOwn (q : GsqlQ) (bt : BufType) (offs : Nat) (text : Str)
    (h : genBuf q bt offs = .ok text) (hskip : (q.bufDscr bt).skip = false)
    (hne : (q.bufDscr bt).flds ≠ [])
    (hflds : ∀ el ∈ (q.bufDscr bt).flds, attrType el.type.code ≠ .unknown)
    (hid : ' ' ∉ (q.bufDscr bt).id) :
    let flds := (q.bufDscr bt).flds
    ∃ before after : List Str,
      text = (classLines flds (offs + 2) before after).flatten ∧
      (∀ l ∈ before ++ after, ∃ msg n, l = sl msg n) ∧
      defineAttributesConst flds (offs + 2) =
        .ok (flds.mapIdx fun k el => constantLines k el (offs + 2)).flatten.flatten ∧
      defineAttrTypes flds (offs + 2) =
        .ok (flds.mapIdx fun k el => typeLines k el (offs + 2)).flatten.flatten ∧
      defineAttributes flds (offs + 2) =
        .ok (flds.mapIdx fun k el => memberLines k el (offs + 2)).flatten.flatten ∧
      ∀ k el, flds[k]? = some el →
        UsesOwn k el (offs + 2) (classLines flds (offs + 2) before after) := by
  intro flds
  have hrequired : (q.bufDscr bt).isRequired = true := by
    simpa [GsqlQbufDscr.isRequired] using hne
  have hmust := (q.bufDscr bt).mustGenerate_iff.mpr ⟨hrequired, hskip⟩
  have hclass : genBufClass q bt offs = .ok text := (genBuf_of_mustGenerate hmust offs) ▸ h
  have htyped : ∀ el ∈ flds, ctName el.type.code ≠ none :=
    fun el hel => ctName_ne_none (hflds el hel)
  obtain ⟨_, constants, types, members, _, rfl, hconstants, htypes, hmembers,
    ⟨before, rfl, hbefore⟩, ⟨after, rfl, hafter⟩⟩ := genBufClass_parts hclass hne htyped hid
  obtain ⟨hconstants', htypes', hmembers'⟩ := loops_eq hflds (offs + 2)
  obtain rfl := Except.ok.inj (hconstants.symm.trans hconstants')
  obtain rfl := Except.ok.inj (htypes.symm.trans htypes')
  obtain rfl := Except.ok.inj (hmembers.symm.trans hmembers')
  refine ⟨before, after, ?_, ?_, hconstants, htypes, hmembers, fun k el hk => ?_⟩
  · simp only [classLines, List.flatten_append, flds]
  · exact List.forall_mem_append.mpr
      ⟨fun l hl => (hbefore l hl).printed, fun l hl => (hafter l hl).printed⟩
  · exact usesOwn_classLines hflds hbefore hafter (offs + 2) hk

/-- A query with a column of each kind: one with a number, one with characters, one with bytes. -/
def threeColumns : GsqlQ where
  id := "q"
  res := { id := "r", type := .res, flds := [
    FldDscr.new 1 "ID" .integer 10 0 .noNulls,
    FldDscr.new 2 "NAME" .varchar 20 0 .nullable,
    FldDscr.new 3 "DATA" .varbinary 100 0 .nullable] }
  sqlSet := { dbType := .db2 }

/-- The class for the three columns is printed, and each column uses its own names. -/
theorem genBuf_usesOwn_threeColumns :
    let flds := (threeColumns.bufDscr .res).flds
    flds.map (fun el => attrType el.type.code) = [.atomic, .string, .bstring] ∧
    ∃ text, genBuf threeColumns .res 4 = .ok text ∧ ∃ before after : List Str,
      text = (classLines flds (4 + 2) before after).flatten ∧
      (∀ l ∈ before ++ after, ∃ msg n, l = sl msg n) ∧
      defineAttributesConst flds (4 + 2) =
        .ok (flds.mapIdx fun k el => constantLines k el (4 + 2)).flatten.flatten ∧
      defineAttrTypes flds (4 + 2) =
        .ok (flds.mapIdx fun k el => typeLines k el (4 + 2)).flatten.flatten ∧
      defineAttributes flds (4 + 2) =
        .ok (flds.mapIdx fun k el => memberLines k el (4 + 2)).flatten.flatten ∧
      ∀ k el, flds[k]? = some el →
        UsesOwn k el (4 + 2) (classLines flds (4 + 2) before after) := by
  refine ⟨by decide, ?_⟩
  have hprinted : (genBuf threeColumns .res 4).isOk = true := by decide +kernel
  cases h : genBuf threeColumns .res 4 with
  | error e =>
      rw [h] at hprinted
      cases hprinted
  | ok text =>
      exact ⟨text, rfl, genBuf_usesOwn threeColumns .res 4 text h rfl (by decide) (by decide)
        (by decide)⟩

end Dbgen3.Generator
