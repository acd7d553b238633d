/-
`type_traits`: what the driver says about a JDBC type.

Types are the numbers the drivers exchange. `binaryToSqlType` is the only table
over `JDBC_TYPE_…`; the others go through it and look at `SQL_…`.
-/
import DocumentDbOdbc.CommonUtils

namespace DocumentDbOdbc

/-- `DOCUMENTDB_SQL_MAX_LENGTH`. -/
def sqlMaxLength : Int := 65532

/-- `BinaryTypeToSqlTypeName`, by the values of `JDBC_TYPE_…`. -/
def binaryTypeToSqlTypeName (binaryType : Option Int) : Option Str :=
  binaryType.map fun
    | -7 | 16 => ascii "BIT"
    | 5 => ascii "SMALLINT"
    | -6 => ascii "TINYINT"
    | 4 => ascii "INTEGER"
    | -5 => ascii "BIGINT"
    | 6 => ascii "FLOAT"
    | 7 => ascii "REAL"
    | 8 => ascii "DOUBLE"
    | 2 => ascii "NUMERIC"
    | 3 => ascii "DECIMAL"
    | 1 => ascii "CHAR"
    | -15 => ascii "NCHAR"
    | 12 => ascii "VARCHAR"
    | -9 => ascii "NVARCHAR"
    | -1 => ascii "LONGVARCHAR"
    | -16 => ascii "LONGNVARCHAR"
    | 91 => ascii "DATE"
    | 92 => ascii "TIME"
    | 93 => ascii "TIMESTAMP"
    | -4 => ascii "LONGVARBINARY"
    | 0 => ascii "NULL"
    | -3 => ascii "VARBINARY"
    | _ => ascii "BINARY"

/-- `BinaryToSqlType`, from the values of `JDBC_TYPE_…` to those of `SQL_…`. -/
def binaryToSqlType (binaryType : Option Int) : Option Int :=
  binaryType.map fun
    | -7 | 16 => -7
    | -6 => -6
    | 5 => 5
    | 4 => 4
    | -5 => -5
    | 6 => 6
    | 7 => 7
    | 8 => 8
    | 2 => 2
    | 3 => 3
    | 1 => 1
    | -15 => -8
    | 12 => 12
    | -9 => -9
    | -1 => -1
    | -16 => -10
    | 91 => 91
    | 92 => 92
    | 93 => 93
    | -4 => -4
    | 0 => 0
    | -3 => -3
    | _ => -2

/-- `NullabilityToIsNullable`. -/
def nullabilityToIsNullable (nullability : Option Int) : Option Str :=
  nullability.bind fun
    | 0 => some (ascii "NO")
    | 1 => some (ascii "YES")
    | _ => none

/-- `SqlTypeColumnSize`, by the values of `SQL_…`. -/
def sqlTypeColumnSize (type : Option Int) : Option Int :=
  type.map fun
    | 12 | -9 | 1 | -8 | -1 | -10 | -4 | -2 | -3 | 3 | 2 => sqlMaxLength
    | -7 | 0 => 1
    | -6 => 3
    | 5 => 5
    | 4 => 10
    | -5 => 19
    | 7 => 7
    | 6 | 8 => 15
    | 91 => 10
    | 92 => 8
    | 93 => 19
    | -11 => 36
    | _ => 0

def binaryTypeColumnSize (type : Option Int) : Option Int := sqlTypeColumnSize (binaryToSqlType type)

/-- `SqlTypeTransferLength`, by the values of `SQL_…`. -/
def sqlTypeTransferLength (type : Option Int) : Option Int :=
  type.map fun
    | 12 | -9 | 1 | -8 | -1 | -10 | -4 | -2 | -3 | 3 | 2 => sqlMaxLength
    | -7 | -6 | 0 => 1
    | 5 => 2
    | 4 => 4
    | -5 => 8
    | 6 | 7 => 4
    | 8 => 8
    | 91 | 92 => 6
    | 93 => 16
    | -11 => 16
    | _ => 0

def binaryTypeTransferLength (type : Option Int) : Option Int := sqlTypeTransferLength (binaryToSqlType type)

/-- `SqlTypeNumPrecRadix`, by the values of `SQL_…`. -/
def sqlTypeNumPrecRadix (type : Option Int) : Option Int :=
  type.map fun
    | 7 | 6 | 8 => 2
    | -7 | -6 | 5 | 4 | -5 => 10
    | _ => 0

def binaryTypeNumPrecRadix (type : Option Int) : Option Int := sqlTypeNumPrecRadix (binaryToSqlType type)

/-- `SqlTypeDecimalDigits`, by the values of `SQL_…`. -/
def sqlTypeDecimalDigits (type : Option Int) : Option Int :=
  type.map fun
    | -6 | 5 | 4 | -5 => 0
    | _ => -1

def binaryTypeDecimalDigits (type : Option Int) : Option Int := sqlTypeDecimalDigits (binaryToSqlType type)

/-- `SqlTypeCharOctetLength`, by the values of `SQL_…`; `wcharBytes` is
`sizeof(SQLWCHAR)`. -/
def sqlTypeCharOctetLength (wcharBytes : Nat) (type : Option Int) : Option Int :=
  type.map fun
    | 1 | 12 | -1 | -2 | -4 => sqlMaxLength
    | -8 | -9 | -10 => wcharBytes * sqlMaxLength
    | _ => 0

def binaryTypeCharOctetLength (wcharBytes : Nat) (type : Option Int) : Option Int :=
  sqlTypeCharOctetLength wcharBytes (binaryToSqlType type)

/-- `SQL_NULLABLE` for every type. -/
def binaryTypeNullability (_type : Int) : Int := 1

/-- `SqlTypeUnsigned`, by the values of `SQL_…`. -/
def sqlTypeUnsigned : Option Int → Bool
  | none => false
  | some (-7) | some (-6) | some 5 | some 4 | some (-5) | some 7 | some 6 | some 8 | some 3 | some 2 => false
  | some _ => true

def binaryTypeUnsigned (type : Option Int) : Bool := sqlTypeUnsigned (binaryToSqlType type)

end DocumentDbOdbc
