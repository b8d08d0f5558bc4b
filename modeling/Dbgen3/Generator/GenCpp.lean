import Dbgen3.Generator.Dscr

/-!
# The C++ code generator

Every function returns the text it adds, or the exception that ends it. The
eight families of accessors differ in their title and in the line they print for
a field; the two arrays differ in the item they print.
-/

namespace Dbgen3.Generator

open Text
open Dbgen3.Runtime (BufType ctName dbtName attrType)

/-- The parts in order, up to the first exception. -/
def concat : List (Except Exc Str) → Except Exc Str
  | [] => .ok []
  | part :: parts => do
      let text ← part
      let texts ← concat parts
      pure (text ++ texts)

/-! ## Lines of text -/

/-- `gen::generated_width`. -/
def generatedWidth : Nat := 100

/-- `gen::line_text`. The number of fill characters is an unsigned difference: where it
would be negative no string is that long. -/
def lineText (msg : Str) (offs : Nat) (ch : Char := '.') : Except Exc Str :=
  let pre := List.replicate 4 ch
  if generatedWidth < msg.length + pre.length + offs then .error (.stdExc .lengthError)
  else
    let actLen := generatedWidth - msg.length - pre.length - offs
    .ok (sl ("/*" ++ pre ++ msg ++ List.replicate actLen ch ++ "*/") offs)

/-! ## Accessors -/

/-- The lines of one family of accessors: nothing for a buffer without fields. -/
def accessors (title : Str) (line : FldDscr → Except Exc Str) (flds : List FldDscr)
    (offs : Nat) : Except Exc Str :=
  if flds ≠ [] then
    concat [.ok (sl title offs), .ok (sl "//@\x7b" offs),
      concat (flds.map fun el => do pure (sl (← line el) offs)),
      .ok (sl "//@\x7d" offs)]
  else .ok []

/-- The C type name as a format argument: a null pointer is refused by the formatter. -/
def formattedTypeName (el : FldDscr) : Except Exc Str :=
  match ctName el.type.code with
  | none => .error (.runtimeError "string pointer is null")
  | some name => .ok name

/-- The assignment `type_name = db::ct_name(…)`: nothing can be said about a null pointer. -/
def assignedTypeName (el : FldDscr) : Except Exc Str :=
  match ctName el.type.code with
  | none => .error .terminated
  | some name => .ok name

/-- Both give the name in the table. -/
theorem typeNames_eq {el : FldDscr} {name : Str} (h : ctName el.type.code = some name) :
    formattedTypeName el = .ok name ∧ assignedTypeName el = .ok name := by
  constructor
  · rw [formattedTypeName, h]
  · rw [assignedTypeName, h]

/-- `define_trivial_null_getters`. -/
def defineTrivialNullGetters (flds : List FldDscr) (maxNameLen offs : Nat) : Except Exc Str :=
  accessors "/// @brief trivial null getters" (fun el => .ok
    ("bool is_null_" ++ padRight maxNameLen el.name ++ "() const \x7breturn " ++ el.aName ++
      ".is_null(0);\x7d")) flds offs

/-- `define_trivial_getters`. -/
def defineTrivialGetters (flds : List FldDscr) (maxNameLen maxCtypeLen offs : Nat) :
    Except Exc Str :=
  accessors "/// @brief trivial getters" (fun el => do
    let typeName ← formattedTypeName el
    pure (padRight maxCtypeLen typeName ++ " " ++ padRight maxNameLen el.name ++
      "() const \x7breturn " ++ el.aName ++ ".value(0);\x7d")) flds offs

/-- `define_null_getters`. -/
def defineNullGetters (flds : List FldDscr) (maxNameLen offs : Nat) : Except Exc Str :=
  accessors "/// @brief null getters" (fun el => .ok
    ("bool is_null_" ++ padRight maxNameLen el.name ++ "(uint ndx) const \x7breturn " ++
      el.aName ++ ".is_null(ndx);\x7d")) flds offs

/-- `define_getters`. -/
def defineGetters (flds : List FldDscr) (maxNameLen maxCtypeLen offs : Nat) : Except Exc Str :=
  accessors "/// @brief getters" (fun el => do
    let typeName ← formattedTypeName el
    pure (padRight maxCtypeLen typeName ++ " " ++ padRight maxNameLen el.name ++
      "(uint ndx) const \x7breturn " ++ el.aName ++ ".value(ndx);\x7d")) flds offs

/-- `define_trivial_null_setters`. -/
def defineTrivialNullSetters (flds : List FldDscr) (maxNameLen offs : Nat) : Except Exc Str :=
  accessors "/// @brief trivial null setters" (fun el => do
    let _ ← assignedTypeName el
    pure ("void set_null_" ++ padRight maxNameLen el.name ++ "() \x7b" ++ el.aName ++
      ".set_null(0);\x7d")) flds offs

/-- `define_trivial_setters`. -/
def defineTrivialSetters (flds : List FldDscr) (maxNameLen maxCtypeLen offs : Nat) :
    Except Exc Str :=
  accessors "/// @brief trivial setters" (fun el => do
    let typeName ← assignedTypeName el
    pure ("void set_" ++ padRight maxNameLen el.name ++ "(" ++ padRight maxCtypeLen typeName ++
      " v) \x7b" ++ el.aName ++ ".set_value(v, 0);\x7d")) flds offs

/-- `define_null_setters`. -/
def defineNullSetters (flds : List FldDscr) (maxNameLen offs : Nat) : Except Exc Str :=
  accessors "/// @brief null setters" (fun el => do
    let _ ← assignedTypeName el
    pure ("void set_null_" ++ padRight maxNameLen el.name ++ "(uint ndx) \x7b" ++ el.aName ++
      ".set_null(ndx);\x7d")) flds offs

/-- `define_setters`. -/
def defineSetters (flds : List FldDscr) (maxNameLen maxCtypeLen offs : Nat) : Except Exc Str :=
  accessors "/// @brief setters" (fun el => do
    let typeName ← assignedTypeName el
    pure ("void set_" ++ padRight maxNameLen el.name ++ "(" ++ padRight maxCtypeLen typeName ++
      " v, uint ndx) \x7b" ++ el.aName ++ ".set_value(v, ndx);\x7d")) flds offs

/-- `define_allowed_codes`. -/
def defineAllowedCodes (allowedCodes : List Int) (offs : Nat) : Str :=
  sl "/// return codes that do not triger an exception" offs ++
  sl "std::vector<int> allowed_codes()const override" offs ++
  sl ("  \x7breturn \x7b" ++ joinWith ", " (allowedCodes.map intDecimal) ++
    "\x7d;\x7d //NOLINT clang-tidy(cppcoreguidelines-avoid-magic-numbers)") offs

/-! ## Members -/

/-- The exception for a field whose type has no storage kind. -/
def unknownAttributeType (el : FldDscr) : Exc :=
  .runtimeError ("unknown attribute type " ++ el.dump)

/-- The texts of the fields from position `ndx` on, in order. -/
def fieldsFrom (line : Nat → FldDscr → Except Exc Str) : Nat → List FldDscr → Except Exc Str
  | _, [] => .ok []
  | ndx, el :: rest => do
      let text ← line ndx el
      let texts ← fieldsFrom line (ndx + 1) rest
      pure (text ++ texts)

/-- The name of the type alias at a position. -/
def typeAlias (ndx : Nat) : Str := "T_" ++ zeroPadded 2 ndx

/-- The name of the constant for the decimal places at a position. -/
def decName (ndx : Nat) : Str := "dec_" ++ zeroPadded 2 ndx

/-- The name of the constant for the width at a position. -/
def lenName (ndx : Nat) : Str := "len_" ++ zeroPadded 2 ndx

/-- The line of a constant for the decimal places. -/
def decLine (ndx : Nat) (el : FldDscr) (offs : Nat) : Str :=
  sl ("constexpr static const uint " ++ decName ndx ++ " = " ++ padLeft 2 (intDecimal el.dec) ++
    "; // number of decimal places") offs

/-- The line of a constant for the width. -/
def lenLine (ndx : Nat) (el : FldDscr) (offs : Nat) : Str :=
  sl ("constexpr static const uint " ++ lenName ndx ++ " = " ++ padLeft 2 (decimal el.width) ++
    "; // width of the attribute") offs

/-- `define_attributes_const`. -/
def defineAttributesConst (flds : List FldDscr) (offs : Nat) : Except Exc Str :=
  fieldsFrom (fun ndx el =>
    match attrType el.type.code with
    | .atomic => .ok (decLine ndx el offs)
    | .string => .ok (decLine ndx el offs ++ lenLine ndx el offs)
    | .bstring => .ok (lenLine ndx el offs)
    | .unknown => .error (unknownAttributeType el)) 0 flds

/-- The C type that an alias of `define_attr_types` stands for. -/
def aliasedType (ndx : Nat) (el : FldDscr) : Except Exc Str :=
  match ctName el.type.code with
  | none => .error (.stdExc .logicError)
  | some name =>
      match attrType el.type.code with
      | .atomic => .ok (name ++ ";")
      | .string => .ok ("std::array<char, " ++ lenName ndx ++ " + 1>;")
      | .bstring => .ok ("std::array<uint8_t, " ++ lenName ndx ++ ">;")
      | .unknown => .error (unknownAttributeType el)

/-- `define_attr_types`. -/
def defineAttrTypes (flds : List FldDscr) (offs : Nat) : Except Exc Str :=
  fieldsFrom (fun ndx el => do
    let type ← aliasedType ndx el
    pure (sl ("using " ++ typeAlias ndx ++ " = " ++ type) offs)) 0 flds

/-- The declaration of the member at a position. -/
def attributeDecl (ndx : Nat) (el : FldDscr) : Except Exc Str :=
  let dbName := padRight 18 ((dbtName el.type.code).getD [])
  let attrName := "a_" ++ zeroPadded 2 ndx
  match attrType el.type.code with
  | .atomic =>
      .ok ("db::atomic <" ++ typeAlias ndx ++ ", " ++ dbName ++ ", N, " ++ decName ndx ++ "> " ++
        attrName ++ "_\x7b\x7d; ")
  | .string =>
      .ok ("db::string <" ++ typeAlias ndx ++ ", " ++ dbName ++ ", N, " ++ decName ndx ++
        ", char> " ++ attrName ++ "_\x7b\x7d;")
  | .bstring =>
      .ok ("db::bstring<" ++ typeAlias ndx ++ ", " ++ dbName ++ ", N, uint8_t> " ++ attrName ++
        "_\x7b\x7d; ")
  | .unknown => .error (unknownAttributeType el)

/-- `define_attributes`. A type without a name in the table has no storage kind either. -/
def defineAttributes (flds : List FldDscr) (offs : Nat) : Except Exc Str :=
  fieldsFrom (fun ndx el => do pure (sl (← attributeDecl ndx el) offs)) 0 flds

/-! ## Arrays -/

/-- The loop that prints one item after another and breaks the line `s` when it is
longer than `maxWidth`; then the last line without its comma. -/
def wrapFrom (item : FldDscr → Str) (maxWidth offs : Nat) : Str → List FldDscr → Str
  | s, [] =>
      let s := s.take (s.length - 2)
      if s ≠ [] then sl s (offs + 2) else []
  | s, el :: rest =>
      let s := s ++ item el
      if s.length > maxWidth then
        sl (s.take (s.length - 1)) (offs + 2) ++ wrapFrom item maxWidth offs [] rest
      else wrapFrom item maxWidth offs s rest

/-- `define_attr_array`. -/
def defineAttrArray (flds : List FldDscr) (maxWidth offs : Nat) : Str :=
  if flds ≠ [] then
    sl "attr_vec_t A_" offs ++ sl "\x7b" offs ++
    wrapFrom (fun el => "&" ++ el.aName ++ ", ") maxWidth offs [] flds ++ sl "\x7d;" offs
  else []

/-- `define_attr_name_array`. -/
def defineAttrNameArray (flds : List FldDscr) (maxWidth offs : Nat) : Str :=
  if flds ≠ [] then
    sl ("constexpr static const std::array<const cstr_t, " ++ decimal flds.length ++ "> N_") offs ++
    sl "\x7b\x7b" offs ++
    wrapFrom (fun el => "\"" ++ el.name ++ "\", ") maxWidth offs [] flds ++ sl "\x7d\x7d;" offs
  else []

/-! ## Buffers -/

/-- The name of a buffer type as a template argument. -/
def bufTypeName (bt : BufType) : Str := "db::BUF_TYPE::" ++ bt.name

/-- `define_default_ctor`. -/
def defineDefaultCtor (cName : Str) (bt : BufType) (offs : Nat) : Str :=
  sl ("constexpr " ++ cName ++ "() : db::buffer_root<" ++ bufTypeName bt ++ ", N>()") offs ++
  sl "\x7b" offs ++ sl "\x7d" offs

/-- `define_attribute_access`. -/
def defineAttributeAccess (offs : Nat) : Str :=
  sl "      attr_vec_t&       attributes()       override \x7breturn A_;\x7d" offs ++
  sl "const attr_vec_t&       attributes() const override \x7breturn A_;\x7d" offs ++
  sl "std::span<const cstr_t> attr_names() const override \x7breturn N_;\x7d" offs

/-- The class of a buffer that has fields. -/
def genBufClass (q : GsqlQ) (bt : BufType) (offs : Nat) : Except Exc Str :=
  let bd := q.bufDscr bt
  let cName := snakeCase bd.id
  let ml := bd.maxNameLen
  let mctl := bd.maxCtypeLen
  let flds := bd.flds
  concat [
    lineText (q.id ++ "::" ++ bt.name) offs,
    .ok (sl "template <std::size_t N = 1>" offs),
    .ok (sl ("class " ++ cName ++ " : public db::buffer_root<" ++ bufTypeName bt ++ ", N>") offs),
    .ok (sl "\x7b" offs),
    .ok (sl "public: /*...public methods...*/" offs),
    .ok (sl "  using attr_vec_t = std::vector<db::attr_root_root<N>*>;" offs),
    .ok (defineDefaultCtor cName bt (offs + 2)),
    defineTrivialNullGetters flds ml (offs + 2),
    defineNullGetters flds ml (offs + 2),
    defineTrivialNullSetters flds ml (offs + 2),
    defineNullSetters flds ml (offs + 2),
    defineTrivialGetters flds ml mctl (offs + 2),
    defineGetters flds ml mctl (offs + 2),
    defineTrivialSetters flds ml mctl (offs + 2),
    defineSetters flds ml mctl (offs + 2),
    .ok (sl "protected:/*...protected methods..............*/" offs),
    .ok (defineAttributeAccess (offs + 2)),
    .ok (sl "private:  /*...private methods & attributes...*/" offs),
    defineAttributesConst flds (offs + 2),
    defineAttrTypes flds (offs + 2),
    defineAttributes flds (offs + 2),
    .ok (defineAttrArray flds (generatedWidth - 8) (offs + 2)),
    .ok (defineAttrNameArray flds (generatedWidth - 8) (offs + 2)),
    .ok (sl ("\x7d; // class " ++ cName) offs)]

/-- `gen_buf`. -/
def genBuf (q : GsqlQ) (bt : BufType) (offs : Nat) : Except Exc Str :=
  let bd := q.bufDscr bt
  let cName := snakeCase bd.id
  if bd.skip then lineText (cName ++ "  explicitly skipped") offs
  else if bd.flds.isEmpty then lineText (cName ++ " no " ++ bt.name) offs
  else genBufClass q bt offs

/-! ## Queries -/

/-- The delimiter of the raw string literal. -/
def rawDelimiter : Str := "k0a1f2k3a4"

/-- `gen_const_sql`. -/
def genConstSql (q : GsqlQ) (offs : Nat) : Str :=
  sl "constexpr static const cstr_t sql_ =" offs ++
  sl "R\"k0a1f2k3a4(" offs ++
  q.sqlSet.sqlDscr.mlSql.lines.flatMap (fun l => sl l (offs + 2)) ++
  sl ")k0a1f2k3a4\";" offs

/-- The buffers a query class has members for. -/
def requiredBufs (q : GsqlQ) : List GsqlQbufDscr := q.buf.filter GsqlQbufDscr.isRequired

/-- `gen_templ_hdr`. -/
def genTemplHdr (q : GsqlQ) : Str :=
  let r := (requiredBufs q).flatMap fun b => "std::size_t N_" ++ b.type.name ++ " = 1, "
  let r := r.take (r.length - 2)
  if r = [] then [] else "template<" ++ r ++ ">"

/-- `gen_utl_ctor`. -/
def genUtlCtor (q : GsqlQ) (offs : Nat) : Str :=
  sl "explicit utl(db::connection* c)" offs ++
  sl ": db::utl(c, sql_)" offs ++
  sl "\x7b" offs ++
  (requiredBufs q).flatMap (fun b =>
    sl ("  set_" ++ b.type.name ++ "_buf(&" ++ b.type.name ++ "_);") offs) ++
  sl "\x7d" offs

/-- The buffer types whose buffer a query class has a member for. -/
def requiredTypes (q : GsqlQ) : List BufType :=
  [BufType.par, BufType.res].filter fun bt => (q.bufDscr bt).isRequired

/-- `gen_utl_getters`. -/
def genUtlGetters (q : GsqlQ) (offs : Nat) : Str :=
  (requiredTypes q).flatMap fun bt =>
    let template := (q.bufDscr bt).className ++ "<N_" ++ bt.name ++ ">*"
    sl (template ++ " " ++ bt.name ++ "_buf() override \x7breturn dynamic_cast<" ++ template ++
      ">(db::utl::" ++ bt.name ++ "_buf());\x7d") offs

/-- `gen_utl_member_var`. -/
def genUtlMemberVar (q : GsqlQ) (offs : Nat) : Str :=
  (requiredTypes q).flatMap fun bt =>
    sl ("  " ++ (q.bufDscr bt).className ++ "<N_" ++ bt.name ++ "> " ++ bt.name ++
      "_\x7b\x7d;") offs

/-- `gen_utl`. -/
def genUtl (q : GsqlQ) (offs : Nat) : Except Exc Str :=
  concat [
    lineText (q.namespaceStr ++ "::utl") offs,
    .ok (sl (genTemplHdr q) offs),
    .ok (sl "class utl: public db::utl" offs),
    .ok (sl "\x7b" offs),
    .ok (sl "public:" offs),
    .ok (sl "  using brr = db::buffer_root_root;" offs),
    .ok (genUtlCtor q (offs + 2)),
    .ok (genUtlGetters q (offs + 2)),
    .ok (defineAllowedCodes q.allowed (offs + 2)),
    .ok (sl "private:" offs),
    .ok (genUtlMemberVar q (offs + 2)),
    .ok (genConstSql q (offs + 2)),
    .ok (sl "\x7d;" offs)]

/-- `gen_includes`. -/
def genIncludes (offs : Nat) : Str :=
  sl "#include <array>" offs ++
  sl "#include <span>" offs ++
  sl "#include <string>" offs ++
  sl "#include <string_view>" offs ++
  sl "" offs ++
  sl "#include \"runtime/dbgen3_templ.hpp\"" offs

/-- `gen_query`. -/
def genQuery (q : GsqlQ) (offs : Nat) : Except Exc Str :=
  let ns := snakeCase q.id
  if q.sql ≠ [] then
    concat [
      lineText ns offs,
      .ok (sl ("namespace " ++ ns) offs),
      .ok (sl "\x7b" offs),
      genBuf q .par (offs + 2),
      genBuf q .res (offs + 2),
      genUtl q (offs + 2),
      .ok (sl ("\x7d; //namespace " ++ ns) offs)]
  else
    lineText (" There is no valid SQL statement in query '" ++ ns ++
      "'. No code is generated. ") offs '!'

/-- `gen_queries`. -/
def genQueries (set : GsqlQSet) (offs : Nat) : Except Exc Str :=
  concat (set.qVec.map fun q => genQuery q (offs + 2))

/-- `gen_custom_header`. -/
def genCustomHeader (set : GsqlQSet) (offs : Nat) : Str :=
  set.header.lines.flatMap fun line => sl line offs

/-- `gen_file`. `timeStr` is what `ctime_r` made of the current time. -/
def genFile (set : GsqlQSet) (timeStr : Str) (offs : Nat) : Except Exc Str :=
  let ns := set.namespaceStr
  concat [
    .ok (sl ("/* auto generated '" ++ timeStr.take (timeStr.length - 1) ++
      "' - do not alter */") offs),
    .ok (sl ("#ifndef gen_" ++ ns ++ "_hpp")),
    .ok (sl ("#define gen_" ++ ns ++ "_hpp")),
    .ok (genIncludes offs),
    .ok (genCustomHeader set offs),
    .ok (sl ("namespace " ++ ns) offs),
    .ok (sl "\x7b" offs),
    .ok (sl "  using uint       = std::size_t;" offs),
    .ok (sl "  using str_t      = std::string;" offs),
    .ok (sl "  using cstr_t     = std::string_view;" offs),
    .ok (sl "  using bstr_t     = std::span<uint8_t>;" offs),
    .ok (sl "  using cbstr_t    = std::span<const uint8_t>;" offs),
    genQueries set offs,
    .ok (sl ("\x7d; //namespace " ++ ns) offs),
    .ok (sl ("#endif // gen_" ++ ns ++ "_hpp"))]

end Dbgen3.Generator
