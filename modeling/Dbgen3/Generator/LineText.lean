import Dbgen3.Generator.Identifiers

/-!
# Lines of one width

The comment lines of a generated file are filled up to one width. The number of
fill characters is an unsigned difference, and the messages are made of ids. A
message that is too long ends the generation of the whole file.
-/

namespace Dbgen3.Generator

open Act Text
open Dbgen3.Runtime (BufType Cli World Handle attrType ctName)

/-! ## Calls -/

/-- A call of `line_text`. -/
structure LineCall where
  msg : Str
  offs : Nat
  ch : Char := '.'

namespace LineCall

/-- What the call returns. -/
def result (c : LineCall) : Except Exc Str := lineText c.msg c.offs c.ch

/-- The number of fill characters is not below zero, and the call returns a line of the
intended width: the generated width, with the marks of the comment beside it. -/
structure Fits (c : LineCall) : Prop where
  room : c.msg.length + 4 + c.offs ≤ generatedWidth
  line : ∃ line, c.result = .ok (line ++ ['\n']) ∧ line.length = generatedWidth + 4

variable {c : LineCall}

theorem result_of_room (h : c.msg.length + 4 + c.offs ≤ generatedWidth) :
    c.result = .ok (sl ("/*" ++ List.replicate 4 c.ch ++ c.msg ++
      List.replicate (generatedWidth - c.msg.length - 4 - c.offs) c.ch ++ "*/") c.offs) := by
  have hlen : (List.replicate 4 c.ch).length = 4 := List.length_replicate
  rw [result, lineText, hlen]
  exact if_neg (Nat.not_lt.mpr h)

theorem fits_iff : c.Fits ↔ c.msg.length + 4 + c.offs ≤ generatedWidth := by
  refine ⟨Fits.room, fun h => ⟨h, _, result_of_room h, ?_⟩⟩
  have hmark : ∀ t : Str, t = "/*".toList ∨ t = "*/".toList → t.length = 2 := by
    rintro t (rfl | rfl)
    · rfl
    · rfl
  have hoffs : c.offs % 256 = c.offs := by
    apply Nat.mod_eq_of_lt
    unfold generatedWidth at h
    omega
  simp only [s, blanks, hoffs, List.length_append, List.length_replicate, hmark _ (.inl rfl),
    hmark _ (.inr rfl)]
  omega

instance : DecidablePred Fits := fun _ => decidable_of_iff _ fits_iff.symm

theorem isOk_result : c.result.isOk = true ↔ c.Fits := by
  constructor
  · intro h
    apply fits_iff.mpr
    by_contra hroom
    have herror : c.result = .error (.stdExc .lengthError) := by
      have hlen : (List.replicate 4 c.ch).length = 4 := List.length_replicate
      rw [result, lineText, hlen]
      exact if_pos (Nat.not_le.mp hroom)
    rw [herror] at h
    cases h
  · intro h
    obtain ⟨line, hline, -⟩ := h.line
    rw [hline]
    rfl

end LineCall

/-! ## Traces -/

/-- A part of the text or the exception that ends it, and the calls of `line_text` made for
it. -/
structure Traced where
  text : Except Exc Str
  calls : List LineCall

namespace Traced

/-- A part without calls. -/
def quiet (text : Except Exc Str) : Traced := ⟨text, []⟩

/-- A part that is a line. -/
def line (c : LineCall) : Traced := ⟨c.result, [c]⟩

/-- `concat` with its calls: nothing is called behind the first exception. -/
def concat : List Traced → Traced
  | [] => quiet (.ok [])
  | part :: parts =>
      match part.text with
      | .error e => ⟨.error e, part.calls⟩
      | .ok text => ⟨do pure (text ++ (← (concat parts).text)), part.calls ++ (concat parts).calls⟩

/-- Without the calls it is the text. -/
theorem concat_text (parts : List Traced) :
    (concat parts).text = Generator.concat (parts.map text) := by
  induction parts with
  | nil => rfl
  | cons part parts ih =>
      rw [concat, List.map_cons, Generator.concat]
      cases part.text with
      | error e => rfl
      | ok text =>
          dsimp only
          rw [ih]
          rfl

/-- Every call returns a line of the intended width. -/
def AllFit (t : Traced) : Prop := ∀ c ∈ t.calls, c.Fits

theorem allFit_quiet (text : Except Exc Str) : (quiet text).AllFit := fun _ hc => nomatch hc

theorem allFit_singleton {text : Except Exc Str} {c : LineCall} :
    AllFit ⟨text, [c]⟩ ↔ c.Fits := List.forall_mem_singleton

/-- The parts behind a part are reached where it has no exception. -/
theorem allFit_concat_cons {part : Traced} {parts : List Traced} :
    (concat (part :: parts)).AllFit ↔
      part.AllFit ∧ (part.text.isOk = true → (concat parts).AllFit) := by
  unfold AllFit
  rw [concat]
  cases part.text with
  | error e =>
      refine ⟨fun h => ⟨h, fun hok => ?_⟩, And.left⟩
      cases hok
  | ok text =>
      rw [List.forall_mem_append]
      exact and_congr_right fun _ => ⟨fun h _ => h, fun h => h rfl⟩

end Traced

/-! ## Traces of the generator -/

/-- The call of `gen_buf`. -/
def bufCall (q : GsqlQ) (bt : BufType) (offs : Nat) : LineCall :=
  let bd := q.bufDscr bt
  let cName := snakeCase bd.id
  if bd.skip then ⟨cName ++ "  explicitly skipped", offs, '.'⟩
  else if bd.flds.isEmpty then ⟨cName ++ " no " ++ bt.name, offs, '.'⟩
  else ⟨q.id ++ "::" ++ bt.name, offs, '.'⟩

/-- `gen_buf` with its call. -/
def traceBuf (q : GsqlQ) (bt : BufType) (offs : Nat) : Traced :=
  ⟨genBuf q bt offs, [bufCall q bt offs]⟩

/-- The call of `gen_utl`. -/
def utlCall (q : GsqlQ) (offs : Nat) : LineCall := ⟨q.namespaceStr ++ "::utl", offs, '.'⟩

/-- `gen_utl` with its call. -/
def traceUtl (q : GsqlQ) (offs : Nat) : Traced := ⟨genUtl q offs, [utlCall q offs]⟩

/-- The call of `gen_query` for a query without a text. -/
def commentCall (q : GsqlQ) (offs : Nat) : LineCall :=
  ⟨" There is no valid SQL statement in query '" ++ snakeCase q.id ++
    "'. No code is generated. ", offs, '!'⟩

/-- `gen_query` with its calls. -/
def traceQuery (q : GsqlQ) (offs : Nat) : Traced :=
  let ns := snakeCase q.id
  if q.sql ≠ [] then
    .concat [
      .line ⟨ns, offs, '.'⟩,
      .quiet (.ok (sl ("namespace " ++ ns) offs)),
      .quiet (.ok (sl "\x7b" offs)),
      traceBuf q .par (offs + 2),
      traceBuf q .res (offs + 2),
      traceUtl q (offs + 2),
      .quiet (.ok (sl ("\x7d; //namespace " ++ ns) offs))]
  else .line (commentCall q offs)

/-- `gen_queries` with its calls. -/
def traceQueries (set : GsqlQSet) (offs : Nat) : Traced :=
  .concat (set.qVec.map fun q => traceQuery q (offs + 2))

/-- `gen_file` with its calls. -/
def traceFile (set : GsqlQSet) (timeStr : Str) (offs : Nat) : Traced :=
  .concat [.quiet (.ok (fileHead set timeStr offs)), traceQueries set offs,
    .quiet (.ok (fileTail set offs))]

theorem traceQuery_text (q : GsqlQ) (offs : Nat) : (traceQuery q offs).text = genQuery q offs := by
  unfold traceQuery genQuery
  split
  · rw [Traced.concat_text]
    rfl
  · rfl

theorem traceQueries_text (set : GsqlQSet) (offs : Nat) :
    (traceQueries set offs).text = genQueries set offs := by
  have hmap : (set.qVec.map fun q => traceQuery q (offs + 2)).map Traced.text =
      set.qVec.map fun q => genQuery q (offs + 2) := by
    rw [List.map_map]
    exact List.map_congr_left fun q _ => traceQuery_text q (offs + 2)
  rw [traceQueries, Traced.concat_text, hmap, genQueries]

/-- The text of a file is the head, the queries and the tail. -/
theorem genFile_eq (set : GsqlQSet) (timeStr : Str) (offs : Nat) :
    genFile set timeStr offs = concat [.ok (fileHead set timeStr offs), genQueries set offs,
      .ok (fileTail set offs)] := by
  unfold genFile
  cases genQueries set offs with
  | error e => rfl
  | ok text =>
      simp only [concat, fileHead, fileTail, bind, Except.bind, pure, Except.pure,
        List.append_assoc, List.append_nil]

/-- Without the calls the traced generator is the generator. -/
theorem traceFile_text (set : GsqlQSet) (timeStr : Str) (offs : Nat) :
    (traceFile set timeStr offs).text = genFile set timeStr offs := by
  rw [traceFile, Traced.concat_text, genFile_eq, ← traceQueries_text]
  rfl

/-! ## Parts that succeed -/

/-- A list of parts succeeds where each of them does. -/
theorem isOk_concat {parts : List (Except Exc Str)} :
    (concat parts).isOk = true ↔ ∀ part ∈ parts, part.isOk = true := by
  induction parts with
  | nil => exact iff_of_true rfl (List.forall_mem_nil _)
  | cons part parts ih =>
      rw [List.forall_mem_cons, ← ih, concat]
      cases part with
      | error e => exact iff_of_false Bool.false_ne_true fun h => Bool.false_ne_true h.1
      | ok text =>
          cases concat parts with
          | error e => exact iff_of_false Bool.false_ne_true fun h => Bool.false_ne_true h.2
          | ok texts => exact iff_of_true rfl ⟨rfl, rfl⟩

theorem isOk_fieldsFrom {line : Nat → FldDscr → Except Exc Str} {P : FldDscr → Prop}
    (h : ∀ ndx el, (line ndx el).isOk = true ↔ P el) {flds : List FldDscr} {ndx : Nat} :
    (fieldsFrom line ndx flds).isOk = true ↔ ∀ el ∈ flds, P el := by
  induction flds generalizing ndx with
  | nil => exact iff_of_true rfl (List.forall_mem_nil _)
  | cons el rest ih =>
      rw [List.forall_mem_cons, ← h ndx el, ← @ih (ndx + 1), fieldsFrom]
      cases line ndx el with
      | error e => exact iff_of_false Bool.false_ne_true fun h => Bool.false_ne_true h.1
      | ok text =>
          cases fieldsFrom line (ndx + 1) rest with
          | error e => exact iff_of_false Bool.false_ne_true fun h => Bool.false_ne_true h.2
          | ok texts => exact iff_of_true rfl ⟨rfl, rfl⟩

theorem isOk_accessors {title : Str} {line : FldDscr → Except Exc Str} {flds : List FldDscr}
    {offs : Nat} (h : ∀ el ∈ flds, (line el).isOk = true) :
    (accessors title line flds offs).isOk = true := by
  unfold accessors
  split
  · rw [isOk_concat]
    have hlines : (concat (flds.map fun el => do pure (sl (← line el) offs))).isOk = true := by
      rw [isOk_concat, List.forall_mem_map]
      intro el hel
      have hline := h el hel
      cases hl : line el with
      | error e =>
          rw [hl] at hline
          cases hline
      | ok text => rfl
    simp only [List.forall_mem_cons]
    exact ⟨rfl, rfl, hlines, rfl, nofun⟩
  · rfl

/-- A field whose type has a storage kind. -/
def FldDscr.Stored (el : FldDscr) : Prop := attrType el.type.code ≠ .unknown

/-- A field that is stored has a C type. -/
theorem FldDscr.Stored.exists_typeName {el : FldDscr} (h : el.Stored) :
    ∃ name, ctName el.type.code = some name ∧ formattedTypeName el = .ok name ∧
      assignedTypeName el = .ok name := by
  obtain ⟨name, -, hname, -⟩ := Runtime.names_of_attrType h
  exact ⟨name, hname, typeNames_eq hname⟩

theorem isOk_defineAttributesConst {flds : List FldDscr} {offs : Nat} :
    (defineAttributesConst flds offs).isOk = true ↔ ∀ el ∈ flds, el.Stored := by
  refine isOk_fieldsFrom fun ndx el => ?_
  unfold FldDscr.Stored
  cases attrType el.type.code with
  | atomic => exact iff_of_true rfl nofun
  | string => exact iff_of_true rfl nofun
  | bstring => exact iff_of_true rfl nofun
  | unknown => exact iff_of_false nofun (fun h => h rfl)

theorem isOk_defineAttrTypes {flds : List FldDscr} {offs : Nat} :
    (defineAttrTypes flds offs).isOk = true ↔ ∀ el ∈ flds, el.Stored := by
  refine isOk_fieldsFrom fun ndx el => ?_
  have htype : (aliasedType ndx el).isOk = true ↔ el.Stored := by
    constructor
    · intro hok hunknown
      unfold aliasedType at hok
      rw [hunknown] at hok
      cases hname : ctName el.type.code with
      | none =>
          rw [hname] at hok
          cases hok
      | some name =>
          rw [hname] at hok
          cases hok
    · intro h
      obtain ⟨name, hname, -⟩ := h.exists_typeName
      unfold FldDscr.Stored at h
      unfold aliasedType
      rw [hname]
      cases htype : attrType el.type.code with
      | atomic => rfl
      | string => rfl
      | bstring => rfl
      | unknown => exact absurd htype h
  rw [← htype]
  cases aliasedType ndx el with
  | error e => exact iff_of_false nofun nofun
  | ok type => exact iff_of_true rfl rfl

theorem isOk_defineAttributes {flds : List FldDscr} {offs : Nat} :
    (defineAttributes flds offs).isOk = true ↔ ∀ el ∈ flds, el.Stored := by
  refine isOk_fieldsFrom fun ndx el => ?_
  unfold FldDscr.Stored attributeDecl
  cases attrType el.type.code with
  | atomic => exact iff_of_true rfl nofun
  | string => exact iff_of_true rfl nofun
  | bstring => exact iff_of_true rfl nofun
  | unknown => exact iff_of_false nofun (fun h => h rfl)

/-- All accessors of stored fields are there. -/
theorem isOk_allAccessors {flds : List FldDscr} (h : ∀ el ∈ flds, el.Stored)
    (ml mctl offs : Nat) :
    ∀ part ∈ [defineTrivialNullGetters flds ml offs, defineNullGetters flds ml offs,
      defineTrivialNullSetters flds ml offs, defineNullSetters flds ml offs,
      defineTrivialGetters flds ml mctl offs, defineGetters flds ml mctl offs,
      defineTrivialSetters flds ml mctl offs, defineSetters flds ml mctl offs],
      part.isOk = true := by
  have hformatted : ∀ {el : FldDscr} {rest : Str → Str}, el ∈ flds →
      (do let name ← formattedTypeName el; pure (rest name) : Except Exc Str).isOk = true := by
    intro el rest hel
    obtain ⟨name, -, hname, -⟩ := (h el hel).exists_typeName
    rw [hname]
    rfl
  have hassigned : ∀ {el : FldDscr} {rest : Str → Str}, el ∈ flds →
      (do let name ← assignedTypeName el; pure (rest name) : Except Exc Str).isOk = true := by
    intro el rest hel
    obtain ⟨name, -, -, hname⟩ := (h el hel).exists_typeName
    rw [hname]
    rfl
  simp only [List.forall_mem_cons]
  refine ⟨isOk_accessors fun el hel => rfl, isOk_accessors fun el hel => rfl,
    isOk_accessors fun el hel => ?_, isOk_accessors fun el hel => ?_,
    isOk_accessors fun el hel => ?_, isOk_accessors fun el hel => ?_,
    isOk_accessors fun el hel => ?_, isOk_accessors fun el hel => ?_, nofun⟩
  · exact hassigned hel
  · exact hassigned hel
  · exact hformatted hel
  · exact hformatted hel
  · exact hassigned hel
  · exact hassigned hel

/-- The three ways of `gen_buf`: it starts with its call in each. -/
theorem genBuf_cases (q : GsqlQ) (bt : BufType) (offs : Nat) :
    (q.bufDscr bt).mustGenerate = false ∧
      (bufCall q bt offs = ⟨snakeCase (q.bufDscr bt).id ++ "  explicitly skipped", offs, '.'⟩ ∨
        bufCall q bt offs = ⟨snakeCase (q.bufDscr bt).id ++ " no " ++ bt.name, offs, '.'⟩) ∧
      genBuf q bt offs = (bufCall q bt offs).result ∨
    (q.bufDscr bt).mustGenerate = true ∧ bufCall q bt offs = ⟨q.id ++ "::" ++ bt.name, offs, '.'⟩ ∧
      genBuf q bt offs = genBufClass q bt offs := by
  unfold genBuf bufCall GsqlQbufDscr.mustGenerate
  dsimp only
  cases (q.bufDscr bt).skip with
  | true => exact .inl ⟨rfl, .inl rfl, rfl⟩
  | false =>
      cases (q.bufDscr bt).flds.isEmpty with
      | true => exact .inl ⟨rfl, .inr rfl, rfl⟩
      | false => exact .inr ⟨rfl, rfl, rfl⟩

theorem isOk_genBufClass {q : GsqlQ} {bt : BufType} {offs : Nat} :
    (genBufClass q bt offs).isOk = true ↔
      LineCall.Fits ⟨q.id ++ "::" ++ bt.name, offs, '.'⟩ ∧
      ∀ el ∈ (q.bufDscr bt).flds, el.Stored := by
  unfold genBufClass
  dsimp only
  rw [isOk_concat, List.forall_mem_cons]
  refine and_congr (@LineCall.isOk_result ⟨_, _, _⟩) ⟨fun h => ?_, fun hstored => ?_⟩
  · simp only [List.forall_mem_cons] at h
    obtain ⟨-, -, -, -, -, -, -, -, -, -, -, -, -, -, -, -, -, hconst, -⟩ := h
    exact isOk_defineAttributesConst.mp hconst
  · have hall := isOk_allAccessors hstored (q.bufDscr bt).maxNameLen
      (q.bufDscr bt).maxCtypeLen (offs + 2)
    simp only [List.forall_mem_cons] at hall ⊢
    obtain ⟨h₁, h₂, h₃, h₄, h₅, h₆, h₇, h₈, -⟩ := hall
    exact ⟨rfl, rfl, rfl, rfl, rfl, rfl, h₁, h₂, h₃, h₄, h₅, h₆, h₇, h₈, rfl, rfl, rfl,
      isOk_defineAttributesConst.mpr hstored, isOk_defineAttrTypes.mpr hstored,
      isOk_defineAttributes.mpr hstored, rfl, rfl, rfl, nofun⟩

theorem isOk_genBuf {q : GsqlQ} {bt : BufType} {offs : Nat} :
    (genBuf q bt offs).isOk = true ↔ (bufCall q bt offs).Fits ∧
      ((q.bufDscr bt).mustGenerate = true → ∀ el ∈ (q.bufDscr bt).flds, el.Stored) := by
  rcases genBuf_cases q bt offs with ⟨hgen, -, hbuf⟩ | ⟨hgen, hcall, hbuf⟩
  · rw [hbuf, hgen, LineCall.isOk_result]
    exact (and_iff_left nofun).symm
  · rw [hbuf, hgen, hcall, isOk_genBufClass]
    exact and_congr_right fun _ => ⟨fun h _ => h, fun h => h rfl⟩

theorem isOk_genUtl {q : GsqlQ} {offs : Nat} :
    (genUtl q offs).isOk = true ↔ (utlCall q offs).Fits := by
  unfold genUtl
  rw [isOk_concat, List.forall_mem_cons]
  refine (and_iff_left ?_).trans (@LineCall.isOk_result (utlCall q offs))
  simp only [List.forall_mem_cons]
  exact ⟨rfl, rfl, rfl, rfl, rfl, rfl, rfl, rfl, rfl, rfl, rfl, rfl, nofun⟩

/-! ## Ids that fit -/

/-- The length of the longest id that the lines of a query have room for. -/
def GsqlQ.room (q : GsqlQ) : Nat := if q.sql = [] then 26 else 87

/-- A class of the query has a field without a storage kind: it cannot be generated. -/
def GsqlQ.Aborts (q : GsqlQ) : Prop :=
  q.sql ≠ [] ∧ ∃ bt, (q.bufDscr bt).mustGenerate = true ∧
    ∃ el ∈ (q.bufDscr bt).flds, ¬ el.Stored

theorem length_snakeCase (s : Str) : (snakeCase s).length = s.length := List.length_map _

theorem length_bufTypeName (bt : BufType) : bt.name.length = 3 := by
  cases bt with
  | par => rfl
  | res => rfl

theorem length_commentCall (q : GsqlQ) : (commentCall q 2).msg.length = q.id.length + 68 := by
  have hpre : " There is no valid SQL statement in query '".toList.length = 43 := by decide
  have hpost : "'. No code is generated. ".toList.length = 25 := by decide
  have hmsg : (commentCall q 2).msg = " There is no valid SQL statement in query '" ++
      snakeCase q.id ++ "'. No code is generated. " := rfl
  rw [hmsg, List.length_append, List.length_append, hpre, hpost, length_snakeCase,
    Nat.add_comm 43]

theorem fits_commentCall {q : GsqlQ} : (commentCall q 2).Fits ↔ q.id.length ≤ 26 := by
  have hoffs : (commentCall q 2).offs = 2 := rfl
  rw [LineCall.fits_iff, length_commentCall, hoffs, generatedWidth]
  omega

theorem fits_utlCall {q : GsqlQ} : (utlCall q 4).Fits ↔ q.id.length ≤ 87 := by
  have hmsg : (utlCall q 4).msg.length = q.id.length + 5 := by
    rw [utlCall, List.length_append, GsqlQ.namespaceStr, length_snakeCase]
    rfl
  have hoffs : (utlCall q 4).offs = 4 := rfl
  rw [LineCall.fits_iff, hmsg, hoffs, generatedWidth]
  omega

/-- A class has a title of the id of its query. The lines of the other buffers have room for
every id of the grammar. -/
theorem fits_bufCall {q : GsqlQ} {bt : BufType} (hid : (q.bufDscr bt).id.length ≤ 32) :
    (bufCall q bt 4).Fits ↔ ((q.bufDscr bt).mustGenerate = true → q.id.length ≤ 87) := by
  rw [LineCall.fits_iff]
  rcases genBuf_cases q bt 4 with ⟨hgen, hcall | hcall, -⟩ | ⟨hgen, hcall, -⟩
  · have hmsg : (bufCall q bt 4).msg.length = (q.bufDscr bt).id.length + 20 := by
      rw [hcall, List.length_append, length_snakeCase]
      rfl
    have hoffs : (bufCall q bt 4).offs = 4 := congrArg LineCall.offs hcall
    rw [hmsg, hoffs, hgen, generatedWidth]
    exact iff_of_true (by omega) nofun
  · have hmsg : (bufCall q bt 4).msg.length = (q.bufDscr bt).id.length + 7 := by
      rw [hcall, List.length_append, List.length_append, length_snakeCase, length_bufTypeName]
      rfl
    have hoffs : (bufCall q bt 4).offs = 4 := congrArg LineCall.offs hcall
    rw [hmsg, hoffs, hgen, generatedWidth]
    exact iff_of_true (by omega) nofun
  · have hmsg : (bufCall q bt 4).msg.length = q.id.length + 5 := by
      rw [hcall, List.length_append, List.length_append, length_bufTypeName]
      rfl
    have hoffs : (bufCall q bt 4).offs = 4 := congrArg LineCall.offs hcall
    rw [hmsg, hoffs, hgen, generatedWidth]
    refine ⟨fun h _ => ?_, fun h => ?_⟩
    · omega
    · have hroom := h rfl
      omega

/-- The call of `gen_query` for a query with a text. -/
theorem fits_title {q : GsqlQ} : LineCall.Fits ⟨snakeCase q.id, 2, '.'⟩ ↔ q.id.length ≤ 94 := by
  rw [LineCall.fits_iff]
  simp only [length_snakeCase, generatedWidth]
  omega

section

variable {q : GsqlQ} (hid : ∀ bt, (q.bufDscr bt).id.length ≤ 32)
include hid

/-- A buffer that is not generated has a line that fits, and nothing else. -/
theorem isOk_genBuf_of_long (hlong : 87 < q.id.length) {bt : BufType}
    (h : (bufCall q bt 4).Fits) : (genBuf q bt 4).isOk = true := by
  refine isOk_genBuf.mpr ⟨h, fun hgen => ?_⟩
  have hroom := (fits_bufCall (hid bt)).mp h hgen
  omega

theorem allFit_code :
    (Traced.concat [.line ⟨snakeCase q.id, 2, '.'⟩,
      .quiet (.ok (sl ("namespace " ++ snakeCase q.id) 2)), .quiet (.ok (sl "\x7b" 2)),
      traceBuf q .par 4, traceBuf q .res 4, traceUtl q 4,
      .quiet (.ok (sl ("\x7d; //namespace " ++ snakeCase q.id) 2))]).AllFit ↔
      q.id.length ≤ 87 := by
  have hnil : (Traced.concat []).AllFit := Traced.allFit_quiet _
  simp only [Traced.allFit_concat_cons, Traced.allFit_quiet, true_and, hnil, implies_true,
    and_true]
  rw [Traced.line, Traced.allFit_singleton, traceBuf, traceBuf, traceUtl,
    Traced.allFit_singleton, Traced.allFit_singleton, Traced.allFit_singleton]
  constructor
  · rintro ⟨htitle, h⟩
    by_contra hlong
    rw [Nat.not_le] at hlong
    obtain ⟨hpar, h⟩ := h (LineCall.isOk_result.mpr htitle) rfl rfl
    obtain ⟨hres, h⟩ := h (isOk_genBuf_of_long hid hlong hpar)
    have hutl := fits_utlCall.mp (h (isOk_genBuf_of_long hid hlong hres))
    omega
  · intro hlen
    have hbuf : ∀ bt, (bufCall q bt 4).Fits := fun bt => (fits_bufCall (hid bt)).mpr fun _ => hlen
    exact ⟨fits_title.mpr (by omega), fun _ _ _ => ⟨hbuf .par, fun _ => ⟨hbuf .res, fun _ =>
      fits_utlCall.mpr hlen⟩⟩⟩

/-- All lines of a query fit where it has room for its id. -/
theorem allFit_traceQuery : (traceQuery q 2).AllFit ↔ q.id.length ≤ q.room := by
  unfold traceQuery GsqlQ.room
  by_cases hsql : q.sql = []
  · rw [if_neg (not_not_intro hsql), if_pos hsql]
    exact Traced.allFit_singleton.trans fits_commentCall
  · rw [if_pos hsql, if_neg hsql]
    exact allFit_code hid

/-- A query is generated where it has room for its id and all fields of its classes are
stored. -/
theorem isOk_genQuery : (genQuery q 2).isOk = true ↔ q.id.length ≤ q.room ∧ ¬ q.Aborts := by
  unfold genQuery GsqlQ.room GsqlQ.Aborts
  by_cases hsql : q.sql = []
  · rw [if_neg (not_not_intro hsql), if_pos hsql, ← fits_commentCall]
    exact (@LineCall.isOk_result (commentCall q 2)).trans
      (and_iff_left fun h => h.1 hsql).symm
  · rw [if_pos hsql, if_neg hsql]
    rw [isOk_concat]
    constructor
    · intro h
      simp only [List.forall_mem_cons] at h
      obtain ⟨-, -, -, hpar, hres, hutl, -⟩ := h
      refine ⟨fits_utlCall.mp (isOk_genUtl.mp hutl), ?_⟩
      rintro ⟨-, bt, hgen, el, hel, hstored⟩
      have hbuf : (genBuf q bt 4).isOk = true := by
        cases bt with
        | par => exact hpar
        | res => exact hres
      exact hstored ((isOk_genBuf.mp hbuf).2 hgen el hel)
    · rintro ⟨hlen, habort⟩
      have htitle := fits_title.mpr (hlen.trans (by omega : 87 ≤ 94))
      have hbuf : ∀ bt, (genBuf q bt 4).isOk = true := by
        intro bt
        refine isOk_genBuf.mpr ⟨(fits_bufCall (hid bt)).mpr fun _ => hlen, fun hgen el hel => ?_⟩
        exact by_contra fun hstored => habort ⟨hsql, bt, hgen, el, hel, hstored⟩
      simp only [List.forall_mem_cons]
      exact ⟨LineCall.isOk_result.mpr htitle, rfl, rfl, hbuf .par, hbuf .res,
        isOk_genUtl.mpr (fits_utlCall.mpr hlen), rfl, nofun⟩

end

/-! ## Files -/

/-- Every query has room for its id, unless the file ends in front of it with a query that
cannot be generated. -/
def RoomInTurn (qs : List GsqlQ) : Prop :=
  ∀ pre q post, qs = pre ++ q :: post → (∀ p ∈ pre, ¬ p.Aborts) → q.id.length ≤ q.room

theorem roomInTurn_cons {q : GsqlQ} {qs : List GsqlQ} :
    RoomInTurn (q :: qs) ↔ q.id.length ≤ q.room ∧ (¬ q.Aborts → RoomInTurn qs) := by
  constructor
  · intro h
    refine ⟨h [] q qs rfl nofun, fun hq pre p post hqs hpre => ?_⟩
    exact h (q :: pre) p post (congrArg (q :: ·) hqs) (List.forall_mem_cons.mpr ⟨hq, hpre⟩)
  · rintro ⟨hq, h⟩ pre p post hqs hpre
    cases pre with
    | nil =>
        obtain ⟨rfl, -⟩ := List.cons.inj hqs
        exact hq
    | cons p' pre =>
        obtain ⟨rfl, htail⟩ := List.cons.inj hqs
        obtain ⟨hfirst, hpre⟩ := List.forall_mem_cons.mp hpre
        exact h hfirst pre p post htail hpre

theorem allFit_queries {qs : List GsqlQ} (hid : ∀ q ∈ qs, ∀ bt, (q.bufDscr bt).id.length ≤ 32) :
    (Traced.concat (qs.map fun q => traceQuery q 2)).AllFit ↔ RoomInTurn qs := by
  induction qs with
  | nil =>
      refine iff_of_true (Traced.allFit_quiet _) fun pre q post h _ => ?_
      exact absurd h.symm (List.append_ne_nil_of_right_ne_nil pre (List.cons_ne_nil q post))
  | cons q qs ih =>
      obtain ⟨hq, hqs⟩ := List.forall_mem_cons.mp hid
      rw [List.map_cons, Traced.allFit_concat_cons, roomInTurn_cons, allFit_traceQuery hq,
        traceQuery_text, isOk_genQuery hq, ih hqs]
      exact and_congr_right fun hlen => imp_congr_left (and_iff_right hlen)

theorem allFit_traceFile {set : GsqlQSet} {timeStr : Str}
    (hid : ∀ q ∈ set.qVec, ∀ bt, (q.bufDscr bt).id.length ≤ 32) :
    (traceFile set timeStr 0).AllFit ↔ RoomInTurn set.qVec := by
  have hnil : (Traced.concat []).AllFit := Traced.allFit_quiet _
  unfold traceFile
  simp only [Traced.allFit_concat_cons, Traced.allFit_quiet, true_and, hnil, implies_true,
    and_true]
  exact ⟨fun h => (allFit_queries hid).mp (h rfl), fun h _ => (allFit_queries hid).mpr h⟩

/-! ## Ids of the grammar -/

/-- An id that is read has at most 32 characters, or it is the one that stands for none. -/
theorem length_attrValue_id {decls : AttrDecls} {attrs : Attrs} (h : ValidAttrs decls attrs)
    (hdecls : ∀ d ∈ decls, d.1 = "id".toList → d.2 = IdName) (default : Str) :
    (attrValue attrs "id" default).length ≤ 32 ∨ attrValue attrs "id" default = default := by
  unfold attrValue
  by_cases hne : getAttribute attrs "id" = []
  · rw [if_neg (not_not_intro hne)]
    exact .inr rfl
  · rw [if_pos hne]
    obtain ⟨d, hd, hname, hvalue⟩ := h.getAttribute (by decide) hne
    rw [hdecls d hd hname] at hvalue
    exact .inl hvalue.2

theorem length_queryId {el : QElement} (h : queryType el.attrs el.children) :
    el.id.length ≤ 32 ∨ el.id = "q_" ++ decimal el.ndx :=
  length_attrValue_id h.1 (by simp) _

theorem LoadedQuery.Ok.length_bufId {σ : Type} {cli : Cli σ} {l : LoadedQuery} (hl : l.Ok cli)
    (hvalid : queryType l.el.attrs l.el.children) (bt : BufType) :
    (l.q.bufDscr bt).id.length ≤ 32 := by
  rw [(hl.buf bt).id]
  rcases length_attrValue_id (validAttrs_bufAttrs hvalid bt) (by simp) bt.name with h | h
  · exact h
  · have hid : (loadBuf bt (l.bufAttrs bt)).id = bt.name := h
    rw [hid, length_bufTypeName]
    decide

/-- Generating a file makes the calls of its trace. Each of them returns a line of the intended
width exactly where every query that is reached has room for its id. An id of the grammar has
at most 32 characters and the number of a query stands for none, so that only a query without
a text can lack room. -/
theorem lineText_fits_iff {σ : Type} {cli : Cli σ} (attrs : Attrs) (children : List Dom)
    (filename : Str) (db : Handle) (target : Rdbms) (hvalid : querySetType attrs children)
    {w w' : World σ} {set : GsqlQSet}
    (hload : runOn (loadQSet cli attrs children filename db target) w = (.ok set, w'))
    (timeStr : Str) :
    (traceFile set timeStr 0).text = genFile set timeStr 0 ∧
    (∀ q ∈ set.qVec, q.id.length ≤ 32 ∨
      ∃ el ∈ qElements 0 children, q.id = "q_" ++ decimal el.ndx) ∧
    ((∀ c ∈ (traceFile set timeStr 0).calls, c.Fits) ↔ RoomInTurn set.qVec) := by
  obtain ⟨-, ls, hels, hmap, hall⟩ := exists_queries (LoadedQuery.Ok cli)
    (fun el => yields_loadQ_bufs el.attrs el.children el.ndx _ db) hvalid hload
  have hel : ∀ l ∈ ls, l.el ∈ qElements 0 children := fun l hl => hels ▸ List.mem_map_of_mem hl
  have hok : ∀ l ∈ ls, l.Ok cli := fun l hl => (hall l hl).1
  have hquery : ∀ l ∈ ls, queryType l.el.attrs l.el.children := fun l hl => (hall l hl).2
  refine ⟨traceFile_text set timeStr 0, ?_, allFit_traceFile ?_⟩
  · rw [← hmap, List.forall_mem_map]
    intro l hl
    rw [(hok l hl).id]
    exact (length_queryId (hquery l hl)).imp_right fun h => ⟨l.el, hel l hl, h⟩
  · rw [← hmap, List.forall_mem_map]
    exact fun l hl => (hok l hl).length_bufId (hquery l hl)

/-- A document with one query that has an id and a text. -/
def namedText (id sql : Str) : List Dom :=
  [.element "q" [("id", id)] [.element "sql" [] [.text (.ok sql)]]]

theorem querySetType_namedText {id : Str} (hid : IdName id) (sql : Str) :
    querySetType [] (namedText id sql) := by
  have hattrs : ValidAttrs [("id", IdName), ("allowed", IntegerList)] [("id".toList, id)] := by
    refine ⟨List.nodup_singleton _, fun a ha => ?_⟩
    obtain rfl := List.mem_singleton.mp ha
    exact .inr (.inr ⟨("id", IdName), List.mem_cons_self, rfl, hid⟩)
  have hsql : sqlType [] [.text (.ok sql)] := by
    refine ⟨validAttrs_nil _, fun n hn => ?_, Sequence.skip rfl rfl⟩
    exact .inr (.inr ⟨sql, fun _ _ => trivial, .inl (List.mem_singleton.mp hn)⟩)
  have hq : queryType [("id", id)] [.element "sql" [] [.text (.ok sql)]] := by
    refine ⟨hattrs, elementContent_singleton (.inl (isElement_element _ _ _)),
      Sequence.skip (Sequence.skip ?_ rfl) rfl⟩
    refine Sequence.last (Nat.zero_le _) nofun fun el hel => ?_
    obtain rfl := List.mem_singleton.mp hel
    exact ⟨rfl, hsql⟩
  refine querySetType_of_one ?_ rfl ⟨[], _, rfl, Nat.zero_le _, nofun, rfl, hq⟩
  exact elementContent_singleton (.inl (isElement_element _ _ _))

/-- A document that is loaded. -/
theorem exists_loaded {cli : Cli Unit} {children : List Dom} {P : GsqlQSet → Prop}
    [DecidablePred P]
    (h : ((runOn (loadQSet cli [] children "x.xml" 1 .db2) (World.start ())).1.map
      fun set => decide (P set)) = .ok true) :
    ∃ set w, runOn (loadQSet cli [] children "x.xml" 1 .db2) (World.start ()) = (.ok set, w) ∧
      P set := by
  rcases hload : runOn (loadQSet cli [] children "x.xml" 1 .db2) (World.start ()) with ⟨e | set, w⟩
  · rw [hload] at h
    cases h
  · rw [hload] at h
    exact ⟨set, w, rfl, of_decide_eq_true (Except.ok.inj h)⟩

theorem idName_replicate {n : Nat} (h : n + 1 ≤ 32) : IdName (List.replicate (n + 1) 'a') := by
  refine ⟨⟨'a', List.replicate n 'a', rfl, .inl (by decide), fun x hx => ?_⟩, ?_⟩
  · obtain rfl := List.eq_of_mem_replicate hx
    exact .inl (by decide)
  · rw [List.length_replicate]
    exact h

/-- The longest id of the grammar and a text. -/
theorem lineText_fits_longest :
    ∃ set w, runOn (loadQSet describing [] (namedText (List.replicate 32 'a') "select 1") "x.xml" 1
        .db2) (World.start ()) = (.ok set, w) ∧
      ∀ c ∈ (traceFile set "now" 0).calls, c.Fits := by
  obtain ⟨set, w, hload, hroom⟩ :=
    @exists_loaded describing (namedText (List.replicate 32 'a') "select 1")
      (fun set => ∀ q ∈ set.qVec, q.id.length ≤ q.room) _ (by decide +kernel)
  refine ⟨set, w, hload, ?_⟩
  have hvalid := querySetType_namedText (idName_replicate (by decide : 31 + 1 ≤ 32)) "select 1"
  refine (lineText_fits_iff [] _ "x.xml" 1 .db2 hvalid hload "now").2.2.mpr ?_
  exact fun pre q post hqs _ => hroom q (hqs ▸ List.mem_append_right pre List.mem_cons_self)

/-- An id of 27 characters and a blank text. -/
theorem lineText_underflows :
    querySetType [] (namedText (List.replicate 27 'a') " ") ∧
    ∃ set w, runOn (loadQSet Cli.silent [] (namedText (List.replicate 27 'a') " ") "x.xml" 1 .db2)
        (World.start ()) = (.ok set, w) ∧
      (∃ c ∈ (traceFile set "now" 0).calls, ¬ c.Fits) ∧
      genFile set "now" 0 = .error (.stdExc .lengthError) := by
  refine ⟨querySetType_namedText (idName_replicate (by decide : 26 + 1 ≤ 32)) " ", ?_⟩
  exact exists_loaded (by decide +kernel)

end Dbgen3.Generator
