import Dbgen3.Lib.Text
import Mathlib.Algebra.Group.Int.Defs
import Mathlib.Algebra.Group.Nat.Defs

/-!
# Program status codes and exceptions

One type holds everything a function of the program can throw. What the
`catch` clauses tell apart is the base class, not the thrown object.
-/

namespace Dbgen3

/-- `P_STS`: the exit statuses of the program. -/
inductive PSts
  | success | noDbName | unknownDbType | unknownLang | outFolderNotExist | noGsqlFiles
  | unkDbName | unkException | gsqlFileNotExists | duplicateSqlBufDef | duplicateSqlDscrDef
  | sqlStatTooLong | cantOpenForWriting | invGsqlSyntax | invGrammarSyntax | unknownError
  deriving DecidableEq, Repr

/-- The integer value of a status. -/
def PSts.code : PSts → Nat
  | .success => 0
  | .noDbName => 1
  | .unknownDbType => 2
  | .unknownLang => 3
  | .outFolderNotExist => 4
  | .noGsqlFiles => 5
  | .unkDbName => 6
  | .unkException => 7
  | .gsqlFileNotExists => 8
  | .duplicateSqlBufDef => 9
  | .duplicateSqlDscrDef => 10
  | .sqlStatTooLong => 11
  | .cantOpenForWriting => 12
  | .invGsqlSyntax => 13
  | .invGrammarSyntax => 14
  | .unknownError => 255

/-- Exceptions of the standard library that do not derive from `std::runtime_error`. -/
inductive StdExc
  | logicError | lengthError | outOfRange | badOptionalAccess
  deriving DecidableEq, Repr

/-- Everything that can end a function other than by a return. -/
inductive Exc
  /-- `db::error_exception`, derived from `std::runtime_error`. -/
  | errorException (what : Str)
  | runtimeError (what : Str)
  /-- `dbgen3_exc`, derived from `std::runtime_error`. -/
  | dbgen3Exc (status : PSts) (what : Str)
  | xmlException (what : Str)
  | domException (what : Str)
  | stdExc (kind : StdExc)
  /-- An object of any other type, thrown by code outside the repository. -/
  | foreign
  /-- `std::terminate` or a failed `assert`: no `catch` clause sees it. -/
  | terminated
  deriving DecidableEq, Repr

/-- The exceptions that `catch (const std::runtime_error&)` accepts. -/
def Exc.isRuntimeError : Exc → Bool
  | .errorException _ | .runtimeError _ | .dbgen3Exc _ _ => true
  | _ => false

/-- Truncation to `int16_t`. -/
def int16 (v : Int) : Int := v.bmod (2 ^ 16)

/-- Truncation to a 32-bit `int`. -/
def int32 (v : Int) : Int := v.bmod (2 ^ 32)

theorem int16_eq_self {v : Int} (h₁ : -(2 ^ 15) ≤ v) (h₂ : v < 2 ^ 15) : int16 v = v := by
  unfold int16
  exact Int.bmod_eq_of_le (by omega) (by omega)

theorem int32_eq_self {v : Int} (h₁ : -(2 ^ 31) ≤ v) (h₂ : v < 2 ^ 31) : int32 v = v := by
  unfold int32
  exact Int.bmod_eq_of_le (by omega) (by omega)

theorem int16_lt (v : Int) : int16 v < 2 ^ 15 := by
  have h : int16 v < ((2 ^ 16 : Nat) + 1) / 2 := Int.bmod_lt (by decide)
  omega

theorem int32_lt (v : Int) : int32 v < 2 ^ 31 := by
  have h : int32 v < ((2 ^ 32 : Nat) + 1) / 2 := Int.bmod_lt (by decide)
  omega

/-- A number is kept in an `int` when it is small enough. -/
theorem int32_natCast_eq_self_iff (m : Nat) : int32 m = m ↔ m < 2 ^ 31 := by
  constructor
  · intro h
    have hlt := int32_lt m
    omega
  · intro h
    exact int32_eq_self (by omega) (by omega)

end Dbgen3
