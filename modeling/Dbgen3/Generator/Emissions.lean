import Dbgen3.Generator.Blocks
import Dbgen3.Generator.BufferClasses
import Dbgen3.Generator.MemberFunctions

/-!
# Names in the generated text

The lines of a generated file that declare what has a name of the user or of the
database: the include guard, namespaces, buffer classes and accessors. Each of
these lines stands in the text, and the name stands in its line.
-/

namespace Dbgen3.Generator

open Act Text
open Dbgen3.Runtime (BufType ctName)

/-- A line of the generated text and a name in it. -/
structure Emission where
  line : Str
  name : Str

/-- The line stands in the text, and the name in the line. -/
structure Emission.In (e : Emission) (text : Str) : Prop where
  line : e.line <:+: text
  name : e.name <:+: e.line

theorem Emission.In.trans {e : Emission} {text text' : Str} (h : e.In text)
    (htext : text <:+: text') : e.In text' :=
  ⟨h.line.trans htext, h.name⟩

/-- The accessors of a buffer. -/
def accessorEmissions (b : GsqlQbufDscr) (offs : Nat) : List Emission :=
  Accessor.families.flatMap fun f => b.flds.map fun el =>
    { line := sl (f.1.code f.2 b.maxNameLen b.maxCtypeLen el) offs
      name := f.1.stem ++ el.name }

/-- The class of a buffer and its accessors. -/
def classEmissions (q : GsqlQ) (offs : Nat) (c : BufClass) : List Emission :=
  { line := sl ("class " ++ c.name ++ " : public db::buffer_root<" ++ bufTypeName c.type ++ ", N>")
      offs
    name := c.name } :: accessorEmissions (q.bufDscr c.type) (offs + 2)

/-- The members of the class `utl` for a buffer class. -/
def utlEmissions (offs : Nat) (c : BufClass) : List Emission :=
  [{ line := getterLine offs c, name := c.name }, { line := memberLine offs c, name := c.name }]

/-- A query that has a text. -/
def queryEmissions (q : GsqlQ) (offs : Nat) : List Emission :=
  if q.sql = [] then []
  else
    { line := sl ("namespace " ++ q.namespaceStr) offs, name := q.namespaceStr } ::
      (q.defined.flatMap (classEmissions q (offs + 2)) ++
        q.referred.flatMap (utlEmissions (offs + 4)))

/-- The include guard of a set. -/
def guardName (set : GsqlQSet) : Str := "gen_" ++ set.namespaceStr ++ "_hpp"

/-- The names of a generated file. -/
def fileEmissions (set : GsqlQSet) (offs : Nat) : List Emission :=
  [{ line := sl ("#ifndef gen_" ++ set.namespaceStr ++ "_hpp"), name := guardName set },
   { line := sl ("#define gen_" ++ set.namespaceStr ++ "_hpp"), name := guardName set },
   { line := sl ("namespace " ++ set.namespaceStr) offs, name := set.namespaceStr }] ++
    set.qVec.flatMap fun q => queryEmissions q (offs + 2)

/-! ## Parts of a text -/

/-- Every part of a text that was printed was printed and stands in the text. -/
theorem infix_of_concat {parts : List (Except Exc Str)} {text : Str}
    (h : concat parts = .ok text) {part : Except Exc Str} (hpart : part ∈ parts) :
    ∃ t, part = .ok t ∧ t <:+: text := by
  obtain ⟨texts, rfl, rfl⟩ := concat_eq_ok h
  obtain ⟨t, ht, rfl⟩ := List.mem_map.mp hpart
  exact ⟨t, rfl, List.infix_of_mem_flatten ht⟩

/-- A part that is a text stands in the whole text. -/
theorem infix_of_concat_ok {parts : List (Except Exc Str)} {text t : Str}
    (h : concat parts = .ok text) (hpart : .ok t ∈ parts) : t <:+: text := by
  obtain ⟨t', heq, ht⟩ := infix_of_concat h hpart
  obtain rfl := Except.ok.inj heq
  exact ht

theorem infix_flatMap {α : Type} {f : α → Str} {l : List α} {a : α} (ha : a ∈ l) :
    f a <:+: l.flatMap f :=
  List.infix_of_mem_flatten (List.mem_map_of_mem ha)

theorem infix_sl {name msg : Str} (h : name <:+: msg) (offs : Nat) : name <:+: sl msg offs := by
  have hs : name <:+: s msg offs := List.infix_append_of_infix_right h
  exact List.infix_append_of_infix_left hs

/-! ## Accessors -/

/-- The name of an accessor stands in its code. -/
theorem Accessor.name_infix_code (a : Accessor) (indexed : Bool) (maxNameLen maxCtypeLen : Nat)
    (el : FldDscr) : a.stem ++ el.name <:+: a.code indexed maxNameLen maxCtypeLen el := by
  obtain ⟨returned, params, heq, -, -⟩ := a.signature_eq indexed maxNameLen maxCtypeLen el
  have hname : a.stem ++ el.name <:+:
      padRight (a.stem.length + maxNameLen) (a.function indexed el).name := by
    rw [function_name, padRight]
    exact List.infix_append_left
  rw [code, heq]
  apply List.infix_append_of_infix_left
  apply List.infix_append_of_infix_right
  apply List.infix_cons
  exact List.infix_append_of_infix_left hname

theorem infix_framed {title line : Str} {offs : Nat} {lines : List Str} (h : line ∈ lines) :
    line <:+: framed title offs lines := by
  have hne : lines ≠ [] := List.ne_nil_of_mem h
  rw [framed, if_neg hne]
  apply List.infix_append_of_infix_left
  exact List.infix_append_of_infix_right (List.infix_of_mem_flatten h)

/-- The accessors stand in the text of a class. -/
theorem accessorEmissions_in {q : GsqlQ} {bt : BufType} {offs : Nat} {text : Str}
    (h : genBufClass q bt offs = .ok text)
    (htyped : ∀ el ∈ (q.bufDscr bt).flds, ctName el.type.code ≠ none) :
    ∀ e ∈ accessorEmissions (q.bufDscr bt) (offs + 2), e.In text := by
  intro e he
  obtain ⟨⟨a, indexed⟩, -, he⟩ := List.mem_flatMap.mp he
  obtain ⟨el, hel, rfl⟩ := List.mem_map.mp he
  let b := q.bufDscr bt
  have htext := a.text_eq indexed htyped b.maxNameLen b.maxCtypeLen (offs + 2)
  have hinfix : framed (a.title indexed) (offs + 2)
      (b.flds.map fun el => sl (a.code indexed b.maxNameLen b.maxCtypeLen el) (offs + 2)) <:+:
        text := by
    apply infix_of_concat_ok h
    rw [← htext]
    -- the place of a family among the parts of a class
    match a, indexed with
    | .isNull, false => exact List.mem_of_getElem? (i := 7) rfl
    | .isNull, true => exact List.mem_of_getElem? (i := 8) rfl
    | .setNull, false => exact List.mem_of_getElem? (i := 9) rfl
    | .setNull, true => exact List.mem_of_getElem? (i := 10) rfl
    | .get, false => exact List.mem_of_getElem? (i := 11) rfl
    | .get, true => exact List.mem_of_getElem? (i := 12) rfl
    | .set, false => exact List.mem_of_getElem? (i := 13) rfl
    | .set, true => exact List.mem_of_getElem? (i := 14) rfl
  constructor
  · exact (infix_framed (List.mem_map_of_mem hel)).trans hinfix
  · exact infix_sl (a.name_infix_code indexed _ _ el) _

theorem classEmissions_in {q : GsqlQ} {bt : BufType} {offs : Nat} {text : Str}
    (h : genBufClass q bt offs = .ok text)
    (htyped : ∀ el ∈ (q.bufDscr bt).flds, ctName el.type.code ≠ none) :
    ∀ e ∈ classEmissions q offs (q.bufClass bt), e.In text := by
  intro e he
  rcases List.mem_cons.mp he with rfl | he
  · constructor
    · apply infix_of_concat_ok h
      exact List.mem_of_getElem? (i := 2) rfl
    · apply infix_sl
      apply List.infix_append_of_infix_left
      apply List.infix_append_of_infix_left
      exact List.infix_append "class ".toList _ _
  · exact accessorEmissions_in h htyped e he

theorem utlEmissions_in {q : GsqlQ} {offs : Nat} {text : Str} (h : genUtl q offs = .ok text) :
    ∀ e ∈ q.referred.flatMap (utlEmissions (offs + 2)), e.In text := by
  intro e he
  obtain ⟨c, hc, he⟩ := List.mem_flatMap.mp he
  have hgetters : genUtlGetters q (offs + 2) <:+: text :=
    infix_of_concat_ok h (List.mem_of_getElem? (i := 7) rfl)
  have hmembers : genUtlMemberVar q (offs + 2) <:+: text :=
    infix_of_concat_ok h (List.mem_of_getElem? (i := 10) rfl)
  have hgetter : getterLine (offs + 2) c <:+: genUtlGetters q (offs + 2) := by
    have heq : genUtlGetters q (offs + 2) = q.referred.flatMap (getterLine (offs + 2)) :=
      flatMap_requiredTypes q (getterLine (offs + 2))
    rw [heq]
    exact infix_flatMap hc
  have hmember : memberLine (offs + 2) c <:+: genUtlMemberVar q (offs + 2) := by
    have heq : genUtlMemberVar q (offs + 2) = q.referred.flatMap (memberLine (offs + 2)) :=
      flatMap_requiredTypes q (memberLine (offs + 2))
    rw [heq]
    exact infix_flatMap hc
  rcases List.mem_cons.mp he with rfl | he
  · constructor
    · exact hgetter.trans hgetters
    · apply infix_sl
      iterate 10 apply List.infix_append_of_infix_left
      exact List.infix_rfl
  · obtain rfl := List.mem_singleton.mp he
    constructor
    · exact hmember.trans hmembers
    · apply infix_sl
      iterate 5 apply List.infix_append_of_infix_left
      exact List.infix_append_right

/-- The names of a query with a text stand in its text. -/
theorem queryEmissions_in {q : GsqlQ} {offs : Nat} {text : Str} (h : genQuery q offs = .ok text)
    (htyped : ∀ bt, ∀ el ∈ (q.bufDscr bt).flds, ctName el.type.code ≠ none) :
    ∀ e ∈ queryEmissions q offs, e.In text := by
  intro e he
  rw [queryEmissions] at he
  split at he
  · cases he
  · next hsql =>
    rw [genQuery, if_pos hsql] at h
    rcases List.mem_cons.mp he with rfl | he
    · constructor
      · exact infix_of_concat_ok h (List.mem_of_getElem? (i := 1) rfl)
      · exact infix_sl List.infix_append_right offs
    rcases List.mem_append.mp he with he | he
    · obtain ⟨c, hc, he⟩ := List.mem_flatMap.mp he
      obtain ⟨bt, hbt, rfl⟩ := List.mem_map.mp hc
      obtain ⟨-, hgen⟩ := List.mem_filter.mp hbt
      have hpart : ∃ t, genBuf q bt (offs + 2) = .ok t ∧ t <:+: text := by
        cases bt with
        | par => exact infix_of_concat h (List.mem_of_getElem? (i := 3) rfl)
        | res => exact infix_of_concat h (List.mem_of_getElem? (i := 4) rfl)
      obtain ⟨t, ht, hinfix⟩ := hpart
      rw [genBuf_of_mustGenerate hgen] at ht
      exact (classEmissions_in ht (htyped bt) e he).trans hinfix
    · obtain ⟨t, ht, hinfix⟩ := infix_of_concat h (List.mem_of_getElem? (i := 5) rfl)
      exact (utlEmissions_in ht e he).trans hinfix

/-- The include guard behind a directive. -/
theorem infix_guardName (set : GsqlQSet) {directive start : Str}
    (h : start = directive ++ "gen_".toList) :
    guardName set <:+: sl (start ++ set.namespaceStr ++ "_hpp") := by
  subst h
  apply infix_sl
  refine ⟨directive, [], ?_⟩
  rw [guardName]
  simp

/-- The names of a generated file stand in its text. -/
theorem fileEmissions_in {set : GsqlQSet} {timeStr text : Str} {offs : Nat}
    (h : genFile set timeStr offs = .ok text)
    (htyped : ∀ q ∈ set.qVec, ∀ bt, ∀ el ∈ (q.bufDscr bt).flds, ctName el.type.code ≠ none) :
    ∀ e ∈ fileEmissions set offs, e.In text := by
  intro e he
  rcases List.mem_append.mp he with he | he
  · simp only [List.mem_cons, List.not_mem_nil, or_false] at he
    rcases he with rfl | rfl | rfl
    · constructor
      · exact infix_of_concat_ok h (List.mem_of_getElem? (i := 1) rfl)
      · exact infix_guardName set (by decide : _ = "#ifndef ".toList ++ "gen_".toList)
    · constructor
      · exact infix_of_concat_ok h (List.mem_of_getElem? (i := 2) rfl)
      · exact infix_guardName set (by decide : _ = "#define ".toList ++ "gen_".toList)
    · constructor
      · exact infix_of_concat_ok h (List.mem_of_getElem? (i := 5) rfl)
      · exact infix_sl List.infix_append_right offs
  · obtain ⟨q, hq, he⟩ := List.mem_flatMap.mp he
    obtain ⟨queries, hqueries, hall⟩ := infix_of_concat h (List.mem_of_getElem? (i := 12) rfl)
    obtain ⟨t, ht, hinfix⟩ := infix_of_concat hqueries (List.mem_map_of_mem hq)
    exact ((queryEmissions_in ht (htyped q hq) e he).trans hinfix).trans hall

/-! ## The names -/

section Names

variable {P : Str → Prop}

theorem forall_accessorEmissions (b : GsqlQbufDscr) (offs : Nat) :
    (∀ e ∈ accessorEmissions b offs, P e.name) ↔
      ∀ el ∈ b.flds, ∀ a : Accessor, P (a.stem ++ el.name) := by
  constructor
  · intro h el hel a
    have hfirst : (a, false) ∈ Accessor.families := by
      cases a <;> decide
    exact h _ (List.mem_flatMap.mpr ⟨(a, false), hfirst, List.mem_map_of_mem hel⟩)
  · intro h e he
    obtain ⟨f, -, he⟩ := List.mem_flatMap.mp he
    obtain ⟨el, hel, rfl⟩ := List.mem_map.mp he
    exact h el hel f.1

theorem forall_queryEmissions (q : GsqlQ) (offs : Nat) :
    (∀ e ∈ queryEmissions q offs, P e.name) ↔
      (q.sql ≠ [] → P q.namespaceStr ∧
        (∀ bt, (q.bufDscr bt).mustGenerate = true → P (q.bufDscr bt).className ∧
          ∀ el ∈ (q.bufDscr bt).flds, ∀ a : Accessor, P (a.stem ++ el.name)) ∧
        ∀ bt, (q.bufDscr bt).isRequired = true → P (q.bufDscr bt).className) := by
  rw [queryEmissions]
  split
  · next hsql => exact iff_of_true nofun fun h => absurd hsql h
  · next hsql =>
    simp only [List.forall_mem_cons, List.forall_mem_append, List.forall_mem_flatMap,
      classEmissions, utlEmissions, forall_accessorEmissions, GsqlQ.defined, GsqlQ.referred,
      List.forall_mem_map, List.mem_filter, mem_bufTypes, GsqlQ.bufClass]
    simp [hsql]

theorem forall_fileEmissions (set : GsqlQSet) (offs : Nat) :
    (∀ e ∈ fileEmissions set offs, P e.name) ↔
      P (guardName set) ∧ P set.namespaceStr ∧
        ∀ q ∈ set.qVec, ∀ e ∈ queryEmissions q (offs + 2), P e.name := by
  rw [fileEmissions, List.forall_mem_append, List.forall_mem_flatMap]
  simp [and_assoc]

end Names

end Dbgen3.Generator
