import Dbgen3.Exceptions

/-!
# The table of database types

Each row pairs a database type with its C type, the kind of attribute that
stores it and the names used in generated code. The lookups scan the table in
order and report a missing type by a null pointer or the unknown kind.
-/

namespace Dbgen3.Runtime

/-- `BUF_TYPE`: parameter or result buffer. -/
inductive BufType
  | par | res
  deriving DecidableEq, Repr

/-- The enumerator's name, as `enum_name` gives it. -/
def BufType.name : BufType → Str
  | .par => "par"
  | .res => "res"

/-- `ATTR_TYPE`: how an attribute stores its values. -/
inductive AttrType
  | unknown | atomic | string | bstring
  deriving DecidableEq, Repr

/-- The C type codes the table uses. -/
inductive CType
  | unknown | tinyint | short | long | sbigint | float | double | char | binary
  | typeDate | typeTime | typeTimestamp
  deriving DecidableEq, Repr

/-- `type_dscr`: one row of the table. -/
structure TypeDscr where
  dbType : Int
  cType : CType
  attrType : AttrType
  ctName : Str
  dbtName : Str

/-- `dscr_`: the supported database types. -/
def dscr : List TypeDscr :=
  [⟨0, .unknown, .unknown, "unknown", "unknown"⟩,
   ⟨16, .tinyint, .atomic, "int", "SQL_BOOLEAN"⟩,
   ⟨-6, .tinyint, .atomic, "int8_t", "SQL_TINYINT"⟩,
   ⟨5, .short, .atomic, "int16_t", "SQL_SMALLINT"⟩,
   ⟨4, .long, .atomic, "int32_t", "SQL_INTEGER"⟩,
   ⟨-5, .sbigint, .atomic, "int64_t", "SQL_BIGINT"⟩,
   ⟨7, .float, .atomic, "float", "SQL_REAL"⟩,
   ⟨6, .float, .atomic, "float", "SQL_FLOAT"⟩,
   ⟨8, .double, .atomic, "double", "SQL_DOUBLE"⟩,
   ⟨1, .char, .string, "cstr_t", "SQL_CHAR"⟩,
   ⟨12, .char, .string, "cstr_t", "SQL_VARCHAR"⟩,
   ⟨-1, .char, .string, "cstr_t", "SQL_LONGVARCHAR"⟩,
   ⟨-2, .binary, .bstring, "cbstr_t", "SQL_BINARY"⟩,
   ⟨-3, .binary, .bstring, "cbstr_t", "SQL_VARBINARY"⟩,
   ⟨-4, .binary, .bstring, "cbstr_t", "SQL_LONGVARBINARY"⟩,
   ⟨3, .char, .string, "cstr_t", "SQL_DECIMAL"⟩,
   ⟨2, .char, .string, "cstr_t", "SQL_NUMERIC"⟩,
   ⟨-360, .char, .string, "cstr_t", "SQL_DECFLOAT"⟩,
   ⟨91, .typeDate, .atomic, "DATE_STRUCT", "SQL_TYPE_DATE"⟩,
   ⟨92, .typeTime, .atomic, "TIME_STRUCT", "SQL_TYPE_TIME"⟩,
   ⟨93, .typeTimestamp, .atomic, "TIMESTAMP_STRUCT", "SQL_TYPE_TIMESTAMP"⟩,
   ⟨-98, .binary, .bstring, "cbstr_t", "SQL_BLOB"⟩,
   ⟨-99, .char, .string, "cstr_t", "SQL_CLOB"⟩]

/-- The first row for a database type. -/
def findDscr (dbType : Int) : Option TypeDscr := dscr.find? fun d => d.dbType == dbType

/-- `c_type`: `SQL_UNKNOWN_TYPE` for a type outside the table. -/
def cType (dbType : Int) : CType := ((findDscr dbType).map TypeDscr.cType).getD .unknown

/-- `ct_name`: a null pointer for a type outside the table. -/
def ctName (dbType : Int) : Option Str := (findDscr dbType).map TypeDscr.ctName

/-- `dbt_name`: a null pointer for a type outside the table. -/
def dbtName (dbType : Int) : Option Str := (findDscr dbType).map TypeDscr.dbtName

/-- `attr_type`: the unknown kind for a type outside the table. -/
def attrType (dbType : Int) : AttrType := ((findDscr dbType).map TypeDscr.attrType).getD .unknown

/-- A type with a storage kind has both of its names in the table. -/
theorem names_of_attrType {dbType : Int} (h : attrType dbType ≠ .unknown) :
    ∃ c d, ctName dbType = some c ∧ dbtName dbType = some d := by
  unfold attrType at h
  unfold ctName dbtName
  cases hf : findDscr dbType with
  | none => simp [hf] at h
  | some d => exact ⟨d.ctName, d.dbtName, rfl, rfl⟩

theorem ctName_ne_none {dbType : Int} (h : attrType dbType ≠ .unknown) : ctName dbType ≠ none := by
  obtain ⟨name, -, hname, -⟩ := names_of_attrType h
  rw [hname]
  exact Option.some_ne_none name

end Dbgen3.Runtime
