import Dbgen3.Runtime.FetchLoop
import Dbgen3.Generator.Common
import Dbgen3.Generator.MultiLine
import Dbgen3.Lib.RawString
import Dbgen3.Lib.SqlLex
import Dbgen3.Generator.Enums
import Dbgen3.Generator.Dscr
import Dbgen3.Generator.GenCpp
import Dbgen3.Generator.ConstSql
import Dbgen3.Lib.Path
import Dbgen3.Runtime.Connection
import Dbgen3.Generator.CoreParser
import Dbgen3.Generator.Duplicates
import Dbgen3.Generator.Executor
import Dbgen3.Generator.FileRuns
import Dbgen3.Generator.Failures
import Dbgen3.Generator.Outputs
import Dbgen3.Generator.Accessors
import Dbgen3.Generator.Columns
import Dbgen3.Runtime.Opening
import Dbgen3.Runtime.Books
import Dbgen3.Runtime.Restoring
import Dbgen3.Runtime.Session
import Dbgen3.Runtime.Calls
import Dbgen3.Runtime.EnvRelease
import Dbgen3.Runtime.Settled
import Dbgen3.Runtime.Counting
import Dbgen3.Runtime.Ledger
import Dbgen3.Runtime.Ownership
import Dbgen3.Generator.Loading
import Dbgen3.Generator.Namespaces
import Dbgen3.Generator.Blocks
import Dbgen3.Generator.Answering
import Dbgen3.Generator.Grammar
import Dbgen3.Generator.Structure
import Dbgen3.Generator.BufferClasses
import Dbgen3.Generator.MemberFunctions
import Dbgen3.Generator.Buffers
import Dbgen3.Generator.Emissions
import Dbgen3.Generator.Identifiers
import Dbgen3.Runtime.Diagnostics
import Dbgen3.Runtime.ReturnCodes
import Dbgen3.Runtime.NoThrow
import Dbgen3.Runtime.Cursors
import Dbgen3.Runtime.Elements
import Dbgen3.Generator.Storage
import Dbgen3.Lib.Hex
import Dbgen3.Runtime.Serialize
import Dbgen3.Lib.Lockstep
import Dbgen3.Generator.Rollback
import Dbgen3.Generator.Independence
import Dbgen3.Generator.Transactions
import Dbgen3.Generator.Minimal
import Dbgen3.Generator.Trailing
import Dbgen3.Generator.AllowedCodes
import Dbgen3.Generator.EmbeddedSql
import Dbgen3.Generator.LineText
import Dbgen3.Generator.Selection
import Dbgen3.Runtime.Slots
import Dbgen3.Runtime.Bounds
import Dbgen3.Runtime.Prepared
import Dbgen3.Generator.QueryDictionary
import Dbgen3.Generator.Reports
import Dbgen3.Generator.ArrayText
import Dbgen3.Generator.Constants
import Dbgen3.Runtime.Dump
import Dbgen3.Generator.FileOrder
import Dbgen3.Generator.ExitCodes
import Dbgen3.Generator.Durability
import Dbgen3.Generator.ClassLines
import Dbgen3.Generator.ClassReader
import Dbgen3.Generator.GeneratedSelect
import Dbgen3.Generator.GeneratedInsert
import Dbgen3.Runtime.Interleaving
import Dbgen3.Generator.HeaderReader
import Dbgen3.Generator.DocumentReader
