import SqlConsole.Number.Decimal
/-!
# Values and rows

The cells of query results, the rows they stand in, and the columns they stand under.  A row says
what it does to a result: it adds a row, or it takes one back.
-/

namespace SqlConsole

/-- A cell of a result. -/
inductive Value where
  | null
  | bool (b : Bool)
  | int (i : Int64)
  | double (d : Double)
  | string (s : Text)
  deriving DecidableEq, Repr

namespace Value

def typeName : Value → Text
  | null => "NULL"
  | bool _ => "BOOLEAN"
  | int _ => "BIGINT"
  | double _ => "DOUBLE"
  | string _ => "STRING"

/-- Whether a value is a number; numbers are printed at the right of their column. -/
def isNumeric : Value → Bool
  | int _ | double _ => true
  | _ => false

/-- Whether a value is missing. -/
def isNull : Value → Bool
  | null => true
  | _ => false

/-- A value as it is printed: strings without quotes, a missing value as `<NULL>`. -/
def render : Value → Text
  | null => "<NULL>"
  | bool true => "TRUE"
  | bool false => "FALSE"
  | int i => Text.ofInt i.toInt
  | double d => Decimal.render d
  | string s => s

/-- Whether two values are equal.  Doubles are compared as numbers, and values of different types
are never equal. -/
def same : Value → Value → Bool
  | null, null => true
  | bool a, bool b => a == b
  | int a, int b => a == b
  | double a, double b => a.same b
  | string a, string b => a == b
  | _, _ => false

end Value

/-- Whether two lists of values have the same length and equal values at each place. -/
def sameValues : List Value → List Value → Bool
  | [], [] => true
  | a :: as, b :: bs => a.same b && sameValues as bs
  | _, _ => false

/-- What a row does to a result. -/
inductive RowKind where
  | insert
  | updateBefore
  | updateAfter
  | delete
  deriving DecidableEq, Repr

def RowKind.short : RowKind → Text
  | insert => "+I"
  | updateBefore => "-U"
  | updateAfter => "+U"
  | delete => "-D"

/-- Whether rows of a kind add a row; the others take one back. -/
def RowKind.adds : RowKind → Bool
  | insert | updateAfter => true
  | updateBefore | delete => false

/-- A row of a result. -/
structure Row where
  kind : RowKind
  values : List Value
  deriving DecidableEq, Repr

def Row.insert (values : List Value) : Row := ⟨.insert, values⟩

/-- A column of a result. -/
structure Column where
  name : Text
  type : Text
  deriving DecidableEq, Repr

/-- The columns of a result. -/
abbrev Schema := List Column

/-- A single column of strings. -/
def Schema.single (name : Text) : Schema := [⟨name, "STRING"⟩]

end SqlConsole
