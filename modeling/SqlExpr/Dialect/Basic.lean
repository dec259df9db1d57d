-- SUMMARY: The target dialects and what each of them spells its own way: quotes, placeholders, function names, literals.
import SqlExpr.Operator
import SqlExpr.Text.Quoted

/-!
# Dialects

A dialect is a plain name. What varies between dialects is looked up from it: here
the spelling of small things, in `SqlExpr.Dialect.Support` which constructs it can
write at all.
-/

namespace SqlExpr

inductive Dialect
  | generic
  | postgres
  | mysql
  | mariadb
  | sqlite
  | duckdb
  | h2
  | hsqldb
  | derby
  | firebird
  | cubrid
  | clickhouse
  | trino
  | ignite
  | oracle
  deriving DecidableEq, Repr

/-- How a dialect concatenates strings. -/
inductive ConcatStyle
  /-- `CONCAT(a, b)`. -/
  | function
  /-- `(a || b)`. -/
  | operator
  deriving DecidableEq, Repr

namespace Dialect

/-- Plain SQL, for which nothing has to be rewritten. -/
instance : Inhabited Dialect := ⟨.generic⟩

/-- Every dialect, in declaration order. -/
def all : List Dialect :=
  [.generic, .postgres, .mysql, .mariadb, .sqlite, .duckdb, .h2, .hsqldb, .derby, .firebird,
    .cubrid, .clickhouse, .trino, .ignite, .oracle]

def name : Dialect → String
  | .generic => "generic"
  | .postgres => "postgres"
  | .mysql => "mysql"
  | .mariadb => "mariadb"
  | .sqlite => "sqlite"
  | .duckdb => "duckdb"
  | .h2 => "h2"
  | .hsqldb => "hsqldb"
  | .derby => "derby"
  | .firebird => "firebird"
  | .cubrid => "cubrid"
  | .clickhouse => "clickhouse"
  | .trino => "trino"
  | .ignite => "ignite"
  | .oracle => "oracle"

/-! ## Identifiers and placeholders -/

/-- The character around quoted identifiers: a grave accent (`\x60`) or a double quote. -/
def identifierQuote : Dialect → Char
  | .mysql | .mariadb | .clickhouse => '\x60'
  | _ => '"'

def quoteIdentifier (d : Dialect) (name : String) : String :=
  Quoted.encode d.identifierQuote name

/-- The placeholder for the `index`-th bind parameter, counted from 1. -/
def placeholder (index : Nat) : Dialect → String
  | .postgres => s!"${index}"
  | .oracle => s!":{index}"
  | _ => "?"

/-! ## Functions -/

def functionName : Dialect → Builtin → String
  | .sqlite, .charLength | .duckdb, .charLength | .derby, .charLength | .oracle, .charLength
  | .trino, .charLength => "LENGTH"
  | _, .charLength => "CHAR_LENGTH"
  | .sqlite, .octetLength => "LENGTH"
  | .oracle, .octetLength => "LENGTHB"
  | _, .octetLength => "OCTET_LENGTH"
  | .sqlite, .substring | .derby, .substring | .oracle, .substring => "SUBSTR"
  | _, .substring => "SUBSTRING"
  | _, .concat | _, .binaryConcat => "CONCAT"
  | _, .insert => "INSERT"

/-- How character strings are concatenated. -/
def concatStyle : Dialect → ConcatStyle
  | .derby | .firebird | .sqlite => .operator
  | _ => .function

/-- How binary strings are concatenated. MySQL and MariaDB read `||` as a logical OR. -/
def binaryConcatStyle : Dialect → ConcatStyle
  | .mysql | .mariadb => .function
  | _ => .operator

/-- Whether a call of the function is written as a chain of `||`. -/
def callStyle (d : Dialect) : Builtin → ConcatStyle
  | .concat => d.concatStyle
  | .binaryConcat => d.binaryConcatStyle
  | _ => .function

/-! ## Literals -/

/-- Oracle has no boolean literals. -/
def booleanLiteral : Dialect → Bool → String
  | .oracle, true => "1"
  | .oracle, false => "0"
  | _, true => "TRUE"
  | _, false => "FALSE"

end Dialect

end SqlExpr
