import SqlConsole.Gateway.Result
import SqlConsole.Statement.Cursor
/-!
# Plans of queries

Without an engine only constant queries can be answered: `SELECT` of literals and lists of
`VALUES`.  A `SELECT … FROM table` is read as a scan of that table.  `Query.plan` says which of
these a statement is, or why it is none of them.

Every literal plan is rectangular: `planProjection` gives its single row a column for each value,
and `planValues` accepts only rows that are as long as the first one.
-/

namespace SqlConsole.Query

/-- How a query is answered. -/
inductive Plan where
  /-- With rows of literals. -/
  | literal (schema : Schema) (rows : List Row)
  /-- With the rows of a table. -/
  | scan (table : Text)
  deriving DecidableEq, Repr

/-! ## Tokens outside of parentheses -/

/-- How deep the parentheses are behind a token.  A parenthesis that closes nothing counts for
nothing. -/
def depthBehind (depth : Nat) (t : Located) : Nat :=
  if t.token = .symbol '(' then depth + 1
  else if t.token = .symbol ')' then depth - 1
  else depth

/-- The tokens behind the first keyword that stands outside of parentheses. -/
def behindKeyword? (keyword : Text) (depth : Nat) : List Located → Option (List Located)
  | [] => none
  | t :: ts =>
    if depth = 0 ∧ t.token.isKeyword keyword then some ts
    else behindKeyword? keyword (depthBehind depth t) ts

/-- The tokens between the commas that stand outside of parentheses, always at least one part. -/
def splitCommas (depth : Nat) : List Located → List (List Located)
  | [] => [[]]
  | t :: ts =>
    if depth = 0 ∧ t.token = .symbol ',' then [] :: splitCommas depth ts
    else match splitCommas (depthBehind depth t) ts with
      | [] => [[t]]
      | part :: parts => (t :: part) :: parts

/-- The text from the first to the last of some tokens. -/
def sourceText (statement : Text) (tokens : List Located) : Text :=
  match tokens.head?, tokens.getLast? with
  | some first, some last =>
    (Text.slice? first.span.start.offset last.span.stop statement).getD []
  | _, _ => []

/-! ## Literals -/

/-- The integer that digits spell, if it fits into 64 bits. -/
def int64? (negative : Bool) (digits : Text) : Option Int64 :=
  let n := Text.decimalValue digits
  if !Text.isDigits digits then none
  else if negative then if n ≤ 0x8000000000000000 then some (Int64.ofInt (-n)) else none
  else if n < 0x8000000000000000 then some (Int64.ofNat n) else none

/-- The number that digits and points spell: an integer if they can be one, a double otherwise. -/
def number? (negative : Bool) (digits : Text) : Option Value :=
  match int64? negative digits with
  | some i => some (.int i)
  | none => (Decimal.read? (if negative then '-' :: digits else digits)).map .double

def literal? (tokens : List Located) : Option Value :=
  match tokens.map Located.token with
  | [.number digits] => number? false digits
  | [.string s] => some (.string s)
  | [.word w] =>
    if Text.sameWord w "TRUE" then some (.bool true)
    else if Text.sameWord w "FALSE" then some (.bool false)
    else if Text.sameWord w "NULL" then some .null
    else none
  | [.symbol '-', .number digits] => number? true digits
  | [.symbol '+', .number digits] => number? false digits
  | _ => none

/-- The name that tokens give to what stands before it: `AS name` or just `name`. -/
def aliased? (tokens : List Located) : Option (Value × Text) :=
  match tokens.getLast?.bind (·.token.identifier?) with
  | none => none
  | some name =>
    let before := tokens.dropLast
    let withAs :=
      if before.getLast?.any (·.token.isKeyword "AS") then literal? before.dropLast else none
    (withAs <|> literal? before).map (·, name)

/-! ## Plans -/

/-- The statement is neither constant nor a scan. -/
def unsupported (statement : Text) : GatewayError :=
  .execution ("the local gateway can only evaluate constant SELECT and VALUES queries, got: " ++
    Text.trim statement)

/-- The tokens are no literal. -/
def notConstant (statement : Text) (tokens : List Located) : GatewayError :=
  .execution ("cannot evaluate expression '" ++ sourceText statement tokens ++ "' locally")

/-- The name of a column that was given none. -/
def columnName (index : Nat) : Text := "EXPR$" ++ Text.ofNat index

/-- The value of an item of a projection and the name it was given. -/
def projectionItem (statement : Text) (tokens : List Located) :
    Except GatewayError (Value × Option Text) :=
  match literal? tokens with
  | some v => .ok (v, none)
  | none =>
    match aliased? tokens with
    | some (v, name) => .ok (v, some name)
    | none => .error (notConstant statement tokens)

/-- The columns and values of the items of a projection, the first of which has an index. -/
def projectionItems (statement : Text) (index : Nat) :
    List (List Located) → Except GatewayError (Schema × List Value)
  | [] => .ok ([], [])
  | item :: items => do
    let (v, name) ← projectionItem statement item
    let (columns, values) ← projectionItems statement (index + 1) items
    return (⟨name.getD (columnName index), v.typeName⟩ :: columns, v :: values)

/-- The plan of `SELECT` and the tokens behind it. -/
def planProjection (statement : Text) (tokens : List Located) : Except GatewayError Plan := do
  if tokens.isEmpty then throw (unsupported statement)
  let (schema, values) ← projectionItems statement 0 (splitCommas 0 tokens)
  return .literal schema [.insert values]

def rowValues (statement : Text) : List (List Located) → Except GatewayError (List Value)
  | [] => .ok []
  | item :: items =>
    match literal? item with
    | none => .error (notConstant statement item)
    | some v => return v :: (← rowValues statement items)

/-- The tokens between the parentheses that stand at both ends. -/
def betweenParentheses? (tokens : List Located) : Option (List Located) :=
  match tokens with
  | first :: rest =>
    if first.token = .symbol '(' ∧ rest.getLast?.any (·.token == .symbol ')') then
      some rest.dropLast
    else none
  | [] => none

/-- The rows that parenthesised groups spell.  Behind a first row all rows have its width. -/
def rowsOf (statement : Text) (width : Option Nat) :
    List (List Located) → Except GatewayError (List (List Value))
  | [] => .ok []
  | group :: groups => do
    let some inner := betweenParentheses? group | throw (unsupported statement)
    let values ← rowValues statement (splitCommas 0 inner)
    if width.any (· != values.length) then
      throw (.execution "all rows of a VALUES list must have the same number of columns")
    return values :: (← rowsOf statement (width <|> some values.length) groups)

/-- Columns without given names for a row of values, the first of which has an index. -/
def columnsOf (index : Nat) : List Value → Schema
  | [] => []
  | v :: values => ⟨columnName index, v.typeName⟩ :: columnsOf (index + 1) values

def planValues (statement : Text) (tokens : List Located) : Except GatewayError Plan := do
  let rows ← rowsOf statement none (splitCommas 0 tokens)
  match rows with
  | [] => throw (unsupported statement)
  | first :: _ => return .literal (columnsOf 0 first) (rows.map .insert)

/-- The parts of the dotted name at the front of some tokens, unless it ends with a point. -/
def nameParts? : List Located → Option (List Text)
  | [] => none
  | [part] => part.token.identifier?.map ([·])
  | part :: point :: rest =>
    match part.token.identifier? with
    | none => none
    | some name =>
      if point.token = .symbol '.' then (nameParts? rest).map (name :: ·) else some [name]

/-- How a statement is answered. -/
def plan (statement : Text) : Except GatewayError Plan :=
  match Source.ofText statement with
  | .error e => .error (.execution e.message)
  | .ok src =>
    match src.tokens.filter (·.token != .symbol ';') with
    | [] => .error (.execution "empty query")
    | first :: body =>
      if first.token.isKeyword "VALUES" then planValues statement body
      else if !first.token.isKeyword "SELECT" then .error (unsupported statement)
      else match behindKeyword? "FROM" 0 body with
        | none => planProjection statement body
        | some rest =>
          match nameParts? rest with
          | some parts => .ok (.scan (Text.join ['.'] parts))
          | none => .error (unsupported statement)

end SqlConsole.Query
