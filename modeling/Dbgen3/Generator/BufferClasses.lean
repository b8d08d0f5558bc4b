import Dbgen3.Generator.GenCpp

/-!
# The classes of a query namespace

The namespace of a query has a class for each buffer that is generated and the
class `utl`, which has a member for each buffer that has fields. Whether a buffer
is skipped is looked at for its class only.
-/

namespace Dbgen3.Generator

open Text
open Dbgen3.Runtime (BufType)

/-- `gsql_qbuf_dscr::must_generate`. -/
def GsqlQbufDscr.mustGenerate (b : GsqlQbufDscr) : Bool := ! b.skip && ! b.flds.isEmpty

theorem GsqlQbufDscr.mustGenerate_iff (b : GsqlQbufDscr) :
    b.mustGenerate = true ↔ b.isRequired = true ∧ b.skip = false := by
  simp [mustGenerate, isRequired, and_comm]

theorem genBuf_of_mustGenerate {q : GsqlQ} {bt : BufType}
    (h : (q.bufDscr bt).mustGenerate = true) (offs : Nat) :
    genBuf q bt offs = genBufClass q bt offs := by
  obtain ⟨hreq, hskip⟩ := (q.bufDscr bt).mustGenerate_iff.mp h
  have hempty : (q.bufDscr bt).flds.isEmpty = false := by
    simpa [GsqlQbufDscr.isRequired] using hreq
  rw [genBuf, hskip, hempty]
  rfl

/-- A buffer class: the buffer it is for and its name. -/
structure BufClass where
  type : BufType
  name : Str
  deriving DecidableEq, Repr

/-- The types of buffers in order. -/
def bufTypes : List BufType := [.par, .res]

theorem mem_bufTypes (bt : BufType) : bt ∈ bufTypes := by
  cases bt <;> decide

namespace GsqlQ

/-- The class of the buffer of a type. -/
def bufClass (q : GsqlQ) (bt : BufType) : BufClass := ⟨bt, (q.bufDscr bt).className⟩

/-- The buffer classes that `gen_buf` defines. -/
def defined (q : GsqlQ) : List BufClass :=
  (bufTypes.filter fun bt => (q.bufDscr bt).mustGenerate).map q.bufClass

/-- The buffer classes that the class `utl` refers to. -/
def referred (q : GsqlQ) : List BufClass :=
  (bufTypes.filter fun bt => (q.bufDscr bt).isRequired).map q.bufClass

/-- The names of the classes in the namespace of the query. -/
def classNames (q : GsqlQ) : List Str := q.defined.map BufClass.name ++ ["utl".toList]

/-- Every entry of the buffer array is of its type. -/
structure Typed (q : GsqlQ) : Prop where
  par : q.par.type = .par
  res : q.res.type = .res

end GsqlQ

/-! ## What is printed -/

/-- The template parameter for the size of a buffer, with the separator behind it. -/
def sizeParam (bt : BufType) : Str := "std::size_t N_" ++ bt.name ++ " = 1, "

/-- The template header for buffer classes: a size for each of them. -/
def headerFor (classes : List BufClass) : Str :=
  let r := classes.flatMap fun c => sizeParam c.type
  let r := r.take (r.length - 2)
  if r = [] then [] else "template<" ++ r ++ ">"

/-- The line of the constructor for a buffer class. -/
def ctorLine (offs : Nat) (c : BufClass) : Str :=
  sl ("  set_" ++ c.type.name ++ "_buf(&" ++ c.type.name ++ "_);") offs

/-- The getter of a buffer class. -/
def getterLine (offs : Nat) (c : BufClass) : Str :=
  sl (c.name ++ "<N_" ++ c.type.name ++ ">*" ++ " " ++ c.type.name ++
    "_buf() override \x7breturn dynamic_cast<" ++ (c.name ++ "<N_" ++ c.type.name ++ ">*") ++
    ">(db::utl::" ++ c.type.name ++ "_buf());\x7d") offs

/-- The member variable of a buffer class. -/
def memberLine (offs : Nat) (c : BufClass) : Str :=
  sl ("  " ++ c.name ++ "<N_" ++ c.type.name ++ "> " ++ c.type.name ++ "_\x7b\x7d;") offs

/-- The texts of the query class as texts of the buffer classes it refers to, and the buffers
that have a class of their own. -/
structure Prints (q : GsqlQ) (offs : Nat) : Prop where
  header : genTemplHdr q = headerFor q.referred
  ctor : genUtlCtor q offs =
    sl "explicit utl(db::connection* c)" offs ++ sl ": db::utl(c, sql_)" offs ++
      sl "\x7b" offs ++ q.referred.flatMap (ctorLine offs) ++ sl "\x7d" offs
  getters : genUtlGetters q offs = q.referred.flatMap (getterLine offs)
  members : genUtlMemberVar q offs = q.referred.flatMap (memberLine offs)
  classes : ∀ bt, genBuf q bt offs = if q.bufClass bt ∈ q.defined then genBufClass q bt offs
    else lineText (if (q.bufDscr bt).skip then (q.bufDscr bt).className ++ "  explicitly skipped"
      else (q.bufDscr bt).className ++ " no " ++ bt.name) offs

/-- A text with one piece for each required buffer, in both orders the source uses. -/
theorem flatMap_requiredBufs {q : GsqlQ} (hq : q.Typed) (f : BufType → Str) :
    (requiredBufs q).flatMap (fun b => f b.type) = q.referred.flatMap fun c => f c.type := by
  have hpar : q.bufDscr .par = q.par := rfl
  have hres : q.bufDscr .res = q.res := rfl
  unfold requiredBufs GsqlQ.referred GsqlQ.buf bufTypes
  simp only [List.filter_cons, List.filter_nil, hpar, hres]
  cases q.par.isRequired <;> cases q.res.isRequired <;>
    simp [GsqlQ.bufClass, hq.par, hq.res]

theorem flatMap_requiredTypes (q : GsqlQ) (f : BufClass → Str) :
    (requiredTypes q).flatMap (fun bt => f (q.bufClass bt)) = q.referred.flatMap f := by
  rw [GsqlQ.referred, List.flatMap_map]
  rfl

theorem bufClass_mem_defined (q : GsqlQ) (bt : BufType) :
    q.bufClass bt ∈ q.defined ↔ (q.bufDscr bt).mustGenerate = true := by
  simp only [GsqlQ.defined, List.mem_map, List.mem_filter]
  constructor
  · rintro ⟨bt', ⟨-, hgen⟩, heq⟩
    obtain rfl : bt' = bt := congrArg BufClass.type heq
    exact hgen
  · exact fun h => ⟨bt, ⟨mem_bufTypes bt, h⟩, rfl⟩

theorem prints {q : GsqlQ} (hq : q.Typed) (offs : Nat) : Prints q offs where
  header := by
    rw [headerFor, ← flatMap_requiredBufs hq sizeParam]
    rfl
  ctor := by
    have hlines := flatMap_requiredBufs hq fun bt => ctorLine offs ⟨bt, []⟩
    change _ ++ (requiredBufs q).flatMap (fun b => ctorLine offs ⟨b.type, []⟩) ++ _ = _
    rw [hlines]
    rfl
  getters := flatMap_requiredTypes q (getterLine offs)
  members := flatMap_requiredTypes q (memberLine offs)
  classes := by
    intro bt
    have hdef := bufClass_mem_defined q bt
    rw [genBuf, GsqlQbufDscr.className]
    cases hskip : (q.bufDscr bt).skip with
    | true =>
        have hno : q.bufClass bt ∉ q.defined := by
          rw [hdef, GsqlQbufDscr.mustGenerate, hskip]
          exact nofun
        rw [if_pos rfl, if_neg hno, if_pos rfl]
    | false =>
        rw [GsqlQbufDscr.mustGenerate, hskip] at hdef
        rw [if_neg nofun]
        cases hempty : (q.bufDscr bt).flds.isEmpty with
        | true =>
            rw [hempty] at hdef
            rw [if_pos rfl, if_neg (hdef.not.mpr nofun), if_neg nofun]
        | false =>
            rw [hempty] at hdef
            rw [if_neg nofun, if_pos (hdef.mpr rfl)]

/-! ## Names -/

/-- The other buffer type. -/
def otherType : BufType → BufType
  | .par => .res
  | .res => .par

theorem eq_or_eq_otherType (bt bt' : BufType) : bt' = bt ∨ bt' = otherType bt := by
  cases bt <;> cases bt' <;> simp [otherType]

variable {q : GsqlQ}

theorem mem_names_defined {name : Str} : name ∈ q.defined.map BufClass.name ↔
    ∃ bt, (q.bufDscr bt).mustGenerate = true ∧ (q.bufDscr bt).className = name := by
  simp [GsqlQ.defined, GsqlQ.bufClass, mem_bufTypes]

theorem mem_names_referred {name : Str} : name ∈ q.referred.map BufClass.name ↔
    ∃ bt, (q.bufDscr bt).isRequired = true ∧ (q.bufDscr bt).className = name := by
  simp [GsqlQ.referred, GsqlQ.bufClass, mem_bufTypes]

/-- The class that the name of a buffer with fields stands for is defined: the buffer is not
skipped, or the other one is generated under the same name. -/
def NameDefined (q : GsqlQ) (bt : BufType) : Prop :=
  (q.bufDscr bt).isRequired = true → (q.bufDscr bt).skip = false ∨
    (q.bufDscr (otherType bt)).mustGenerate = true ∧
      (q.bufDscr (otherType bt)).className = (q.bufDscr bt).className

theorem names_eq_iff :
    (∀ name, name ∈ q.referred.map BufClass.name ↔ name ∈ q.defined.map BufClass.name) ↔
      ∀ bt, NameDefined q bt := by
  simp only [mem_names_defined, mem_names_referred]
  constructor
  · intro h bt hreq
    obtain ⟨bt', hgen, hname⟩ := (h (q.bufDscr bt).className).mp ⟨bt, hreq, rfl⟩
    rcases eq_or_eq_otherType bt bt' with rfl | rfl
    · exact .inl ((q.bufDscr bt').mustGenerate_iff.mp hgen).2
    · exact .inr ⟨hgen, hname⟩
  · intro h name
    constructor
    · rintro ⟨bt, hreq, rfl⟩
      rcases h bt hreq with hskip | ⟨hgen, hname⟩
      · exact ⟨bt, (q.bufDscr bt).mustGenerate_iff.mpr ⟨hreq, hskip⟩, rfl⟩
      · exact ⟨otherType bt, hgen, hname⟩
    · rintro ⟨bt, hgen, rfl⟩
      exact ⟨bt, ((q.bufDscr bt).mustGenerate_iff.mp hgen).1, rfl⟩

theorem nodup_names_defined : (q.defined.map BufClass.name).Nodup ↔
    (q.par.mustGenerate = true → q.res.mustGenerate = true →
      q.par.className ≠ q.res.className) := by
  have hpar : q.bufDscr .par = q.par := rfl
  have hres : q.bufDscr .res = q.res := rfl
  unfold GsqlQ.defined bufTypes
  simp only [List.filter_cons, List.filter_nil, hpar, hres]
  cases q.par.mustGenerate <;> cases q.res.mustGenerate <;>
    simp [GsqlQ.bufClass, hpar, hres]

theorem nodup_classNames : q.classNames.Nodup ↔
    (q.par.mustGenerate = true → q.res.mustGenerate = true →
      q.par.className ≠ q.res.className) ∧
    ∀ bt, (q.bufDscr bt).mustGenerate = true → (q.bufDscr bt).className ≠ "utl".toList := by
  have hutl : (q.defined.map BufClass.name).Disjoint ["utl".toList] ↔
      ∀ bt, (q.bufDscr bt).mustGenerate = true → (q.bufDscr bt).className ≠ "utl".toList := by
    rw [List.disjoint_singleton, mem_names_defined]
    simp
  rw [GsqlQ.classNames, List.nodup_append', nodup_names_defined, hutl]
  simp

/-- The class `utl` refers to the buffer classes that are defined, and the classes of the
namespace have different names. -/
structure ConsistentClasses (q : GsqlQ) : Prop where
  names : ∀ name, name ∈ q.referred.map BufClass.name ↔ name ∈ q.defined.map BufClass.name
  nodup : q.classNames.Nodup

/-- The texts of a query are made of the buffer classes that `utl` refers to and of those that
are defined. These agree under different names exactly where no buffer with fields is
skipped, unless the other one has its class name, and where the class names of the generated
buffers differ from each other and from `utl`. -/
theorem consistentClasses_iff (q : GsqlQ) (hq : q.Typed) (offs : Nat) :
    Prints q offs ∧
      (ConsistentClasses q ↔
        (∀ bt, NameDefined q bt) ∧
        (q.par.mustGenerate = true → q.res.mustGenerate = true →
          q.par.className ≠ q.res.className) ∧
        ∀ bt, (q.bufDscr bt).mustGenerate = true → (q.bufDscr bt).className ≠ "utl".toList) := by
  refine ⟨prints hq offs, ?_⟩
  rw [← names_eq_iff, ← nodup_classNames]
  exact ⟨fun h => ⟨h.names, h.nodup⟩, fun h => ⟨h.1, h.2⟩⟩

/-- A query with one result column and the attributes of its result buffer. -/
def oneColumn (id : Str) (skip : Bool) : GsqlQ :=
  { id := "q"
    par := .new .par false
    res :=
      { type := .res, id, skip
        flds := [.new 1 "c" .integer 4 0 .noNulls] }
    sqlSet := { dbType := .db2 } }

/-- A result buffer that is not skipped and has a name of its own. -/
theorem consistentClasses_res : ConsistentClasses (oneColumn "res" false) := by
  have hiff := (consistentClasses_iff (oneColumn "res" false) ⟨rfl, rfl⟩ 0).2
  refine hiff.mpr ⟨fun bt => ?_, by decide, fun bt => ?_⟩
  · cases bt with
    | par => exact nofun
    | res => exact fun _ => .inl rfl
  · cases bt with
    | par => decide
    | res => decide

/-- A skipped buffer with fields has no class, and buffers may have the name of each other and
of the query class. -/
theorem not_consistentClasses :
    ¬ ConsistentClasses (oneColumn "res" true) ∧
    ¬ ConsistentClasses { oneColumn "b" false with
      par := { (oneColumn "b" false).res with type := .par } } ∧
    ¬ ConsistentClasses (oneColumn "utl" false) := by
  refine ⟨fun h => ?_, fun h => ?_, fun h => ?_⟩
  · have hmem : "res".toList ∈ (oneColumn "res" true).defined.map BufClass.name :=
      (h.names "res").mp (by decide)
    revert hmem
    decide
  · have hnodup := h.nodup
    revert hnodup
    decide
  · have hnodup := h.nodup
    revert hnodup
    decide

end Dbgen3.Generator
