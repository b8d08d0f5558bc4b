import Dbgen3.Generator.Common

/-!
# Enumerations of the generator

Each enumeration has the integer values of the source and, where the generator
prints or parses it, the names of its enumerators. A cast from an integer or a
name finds the enumerator that has it.
-/

namespace Dbgen3.Generator

/-- `RDBMS`. -/
inductive Rdbms
  | sql | db2 | oracle | mssql | mariadb
  deriving DecidableEq, Repr

namespace Rdbms

def all : List Rdbms := [sql, db2, oracle, mssql, mariadb]

def code : Rdbms → Nat
  | sql => 0
  | db2 => 1
  | oracle => 2
  | mssql => 3
  | mariadb => 4

def name : Rdbms → Str
  | sql => "sql"
  | db2 => "db2"
  | oracle => "oracle"
  | mssql => "mssql"
  | mariadb => "mariadb"

/-- `enum_cast<RDBMS>` of a name. -/
def ofName (token : Str) : Option Rdbms := all.find? fun r => r.name == token

theorem sql_lt_code {r : Rdbms} (h : r ≠ sql) : sql.code < r.code := by
  cases r with
  | sql => exact absurd rfl h
  | db2 => decide
  | oracle => decide
  | mssql => decide
  | mariadb => decide

end Rdbms

/-- `DBN`: whether a column takes null values. -/
inductive Dbn
  | noNulls | nullable | nullableUnknown
  deriving DecidableEq, Repr

namespace Dbn

def all : List Dbn := [noNulls, nullable, nullableUnknown]

def code : Dbn → Int
  | noNulls => 0
  | nullable => 1
  | nullableUnknown => 2

def name : Dbn → Str
  | noNulls => "NO_NULLS"
  | nullable => "NULLABLE"
  | nullableUnknown => "NULLABLE_UNKNOWN"

/-- `enum_cast<DBN>`. -/
def ofCode (v : Int) : Option Dbn := all.find? fun n => n.code == v

end Dbn

/-- `ODBC_TYPE`: the column types the generator knows. -/
inductive OdbcType
  | unknownType | char | numeric | decimal | integer | smallint | float | real | double
  | datetime | interval | timestamp | varchar | boolean | row | typeDate | typeTime
  | typeTimestamp | typeTimestampWithTimezone | longvarchar | binary | varbinary
  | longvarbinary | bigint | tinyint | bit | wchar | wvarchar | wlongvarchar | guid | graphic
  | vargraphic | longvargraphic | blob | clob | dbclob | decfloat | xml | cursorhandle
  | datalink | userDefinedType
  deriving DecidableEq, Repr

namespace OdbcType

/-- Every enumerator with its value and its name. -/
def table : List (OdbcType × Int × String) :=
  [(unknownType, 0, "UNKNOWN_TYPE"), (char, 1, "CHAR"), (numeric, 2, "NUMERIC"),
   (decimal, 3, "DECIMAL"), (integer, 4, "INTEGER"), (smallint, 5, "SMALLINT"),
   (float, 6, "FLOAT"), (real, 7, "REAL"), (double, 8, "DOUBLE"), (datetime, 9, "DATETIME"),
   (interval, 10, "INTERVAL"), (timestamp, 11, "TIMESTAMP"), (varchar, 12, "VARCHAR"),
   (boolean, 16, "BOOLEAN"), (row, 19, "ROW"), (typeDate, 91, "TYPE_DATE"),
   (typeTime, 92, "TYPE_TIME"), (typeTimestamp, 93, "TYPE_TIMESTAMP"),
   (typeTimestampWithTimezone, 95, "TYPE_TIMESTAMP_WITH_TIMEZONE"),
   (longvarchar, -1, "LONGVARCHAR"), (binary, -2, "BINARY"), (varbinary, -3, "VARBINARY"),
   (longvarbinary, -4, "LONGVARBINARY"), (bigint, -5, "BIGINT"), (tinyint, -6, "TINYINT"),
   (bit, -7, "BIT"), (wchar, -8, "WCHAR"), (wvarchar, -9, "WVARCHAR"),
   (wlongvarchar, -10, "WLONGVARCHAR"), (guid, -11, "GUID"), (graphic, -95, "GRAPHIC"),
   (vargraphic, -96, "VARGRAPHIC"), (longvargraphic, -97, "LONGVARGRAPHIC"),
   (blob, -98, "BLOB"), (clob, -99, "CLOB"), (dbclob, -350, "DBCLOB"),
   (decfloat, -360, "DECFLOAT"), (xml, -370, "XML"), (cursorhandle, -380, "CURSORHANDLE"),
   (datalink, -400, "DATALINK"), (userDefinedType, -450, "USER_DEFINED_TYPE")]

/-- `enum_integer<ODBC_TYPE>`. -/
def code (t : OdbcType) : Int := ((table.find? fun row => row.1 == t).map fun row => row.2.1).getD 0

/-- `enum_name<ODBC_TYPE>`. -/
def name (t : OdbcType) : Str := ((table.find? fun row => row.1 == t).map fun row => row.2.2).getD ""

/-- `enum_cast<ODBC_TYPE>`. -/
def ofCode (v : Int) : Option OdbcType := (table.find? fun row => row.2.1 == v).map Prod.fst

end OdbcType

/-- `INS_OP`: what `gsql_sql_set::put` did. -/
inductive InsOp
  | inserted | ambiguous | specific | skip
  deriving DecidableEq, Repr

/-- `NT`: the node types of a document. -/
inductive NodeType
  | elementNode | attributeNode | textNode | cdataSectionNode | entityReferenceNode | entityNode
  | processingInstructionNode | commentNode | documentNode | documentTypeNode
  | documentFragmentNode | notationNode
  deriving DecidableEq, Repr

def NodeType.name : NodeType → Str
  | .elementNode => "ELEMENT_NODE"
  | .attributeNode => "ATTRIBUTE_NODE"
  | .textNode => "TEXT_NODE"
  | .cdataSectionNode => "CDATA_SECTION_NODE"
  | .entityReferenceNode => "ENTITY_REFERENCE_NODE"
  | .entityNode => "ENTITY_NODE"
  | .processingInstructionNode => "PROCESSING_INSTRUCTION_NODE"
  | .commentNode => "COMMENT_NODE"
  | .documentNode => "DOCUMENT_NODE"
  | .documentTypeNode => "DOCUMENT_TYPE_NODE"
  | .documentFragmentNode => "DOCUMENT_FRAGMENT_NODE"
  | .notationNode => "NOTATION_NODE"

/-- `program_status::dscr` of the statuses that the generator raises. -/
def dscr : PSts → Str
  | .gsqlFileNotExists => "Provided GSQL file '\x7b\x7d' does not exist or is not accesible."
  | .duplicateSqlBufDef =>
      "Duplicate SQL buffer definition. query id: \x7b\x7d sql#: \x7b\x7d rdbms: \x7b\x7d"
  | .duplicateSqlDscrDef => "Duplicate SQL description definition. query id: \x7b\x7d"
  | .sqlStatTooLong =>
      "SQL statement length exceeds hard limit \x7b\x7d. Shorten it. query id: \x7b\x7d sql#: \x7b\x7d"
  | .invGsqlSyntax =>
      "Invalid file syntax:'\x7b\x7d' line:\x7b\x7d col:\x7b\x7d type:\x7b\x7d dscr:'\x7b\x7d'"
  | .invGrammarSyntax =>
      "Invalid grammar syntax: line:\x7b\x7d col:\x7b\x7d dscr:'\x7b\x7d'"
  | .success => "Program successfuly finished"
  | .noDbName => "Database name was not provided"
  | .unknownDbType => "Datatbase type was not provided or unknown. '\x7b\x7d'"
  | .unknownLang => "Target programming language was not provided or unknown. '\x7b\x7d'"
  | .outFolderNotExist => "Output folder was not provided or does not exist. '\x7b\x7d'"
  | .noGsqlFiles => "No gsql filenames provided."
  | .unkDbName => "Unknown db name provided. '\x7b\x7d'"
  | .unkException => "Unknown exception"
  | .cantOpenForWriting => "Can't open file '\x7b\x7d' for  writing."
  | .unknownError => "Unknown error (no description)"

/-- `fmt::format(fg(fmt::color::crimson), dscr(status), …)`: the text of a raised status. -/
def message (status : PSts) (args : List Str) : Str := crimson (Text.format (dscr status) args)

end Dbgen3.Generator
