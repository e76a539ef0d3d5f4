import SqlConsole.Operation
import SqlConsole.Script
import SqlConsole.Statement.Cursor
/-!
# What a statement asks for

`Statement.parse` turns the text of one statement into an operation.  The first word decides what
kind of statement it is (`Opening`).  Only as much of a statement is read as the client needs; the
rest of it is kept as text for the gateway.

The inner statements of an `EXECUTE STATEMENT SET` block are parsed by the same function, on
texts that are shorter than the block.
-/

namespace SqlConsole

namespace Statement

/-- What the first word of a statement says about it. -/
inductive Opening where
  | quit | clear | help | set | reset | insert | query | explain | beginSet | endSet | execute
  | addJar | removeJar | showing | create | drop | alter | use | load | unload | stop
  /-- The gateway executes the statement by itself. -/
  | passed
  deriving DecidableEq, Repr

/-- The words that statements begin with. -/
def openings : List (Text × Opening) := [
  ("QUIT", .quit), ("EXIT", .quit), ("CLEAR", .clear), ("HELP", .help), ("SET", .set),
  ("RESET", .reset), ("INSERT", .insert), ("SELECT", .query), ("WITH", .query),
  ("VALUES", .query), ("EXPLAIN", .explain), ("BEGIN", .beginSet), ("END", .endSet),
  ("EXECUTE", .execute), ("ADD", .addJar), ("REMOVE", .removeJar), ("SHOW", .showing),
  ("CREATE", .create), ("DROP", .drop), ("ALTER", .alter), ("USE", .use), ("LOAD", .load),
  ("UNLOAD", .unload), ("STOP", .stop), ("DESCRIBE", .passed), ("DESC", .passed),
  ("ANALYZE", .passed), ("CALL", .passed), ("TRUNCATE", .passed), ("UPDATE", .passed),
  ("DELETE", .passed)]

/-- What a first word, in any letter case, says about its statement. -/
def Opening.ofWord? (word : Text) : Option Opening := openings.lookup (Text.upper word)

open StatementParser

/-- A command without arguments. -/
def bareCommand (op : Operation) : StatementParser Operation := do
  advance
  expectEnd
  return op

/-! ## Properties -/

/-- Leave out the tokens in front of the first `=`, or of the end of the statement. -/
def skipToEquals : List Located → List Located
  | [] => []
  | t :: ts => if t.token = .symbol '=' || atEnd (t :: ts) then t :: ts else skipToEquals ts

/-- The key of a property: a string literal, or the text up to the `=`. -/
def propertyKey : StatementParser Text := do
  match (← get).head?.bind (·.token.string?) with
  | some key => advance; return key
  | none =>
    let start := (← here).start.offset
    goto (skipToEquals (← get))
    return (← read).textBetween start (← here).start.offset

/-- A string literal that ends the statement, or the rest of its text. -/
def lastValue : StatementParser Text := do
  match (← get).head?.bind (·.token.string?) with
  | some value => advance; expectEnd; return value
  | none => restText

/-- `SET` or `SET key = value`. -/
def set : StatementParser Operation := do
  advance
  if atEnd (← get) then return .set none none
  let key ← propertyKey
  expectSymbol '='
  if atEnd (← get) then unexpected "value"
  let value ← lastValue
  return .set (some (Text.trim key)) (some (Text.trim value))

/-- `RESET` or `RESET key`. -/
def reset : StatementParser Operation := do
  advance
  if atEnd (← get) then return .reset none
  let key ← lastValue
  return .reset (some (Text.trim key))

/-! ## Modifications -/

/-- `INSERT INTO|OVERWRITE [TABLE] name …`. -/
def insert : StatementParser Modify := do
  let start := (← here).start.offset
  expectKeyword "INSERT"
  let kind ← do
    if ← eatKeyword "INTO" then pure .insertInto
    else if ← eatKeyword "OVERWRITE" then pure .insertOverwrite
    else unexpected "INTO or OVERWRITE"
  let _ ← eatKeyword "TABLE"
  let target ← expectName
  if atEnd (← get) then unexpected "query or VALUES"
  let src ← read
  return ⟨kind, target, src.textBetween start src.bodyEnd⟩

/-- The inserts that the inner statements of a block ask for. -/
def insertsOf (parse : Text → Except ParseError (Option Operation)) (place : Span) :
    List Text → Except ParseError (List Modify)
  | [] => .ok []
  | s :: rest => do
    match ← parse s with
    | none => insertsOf parse place rest
    | some (.insert m) => return m :: (← insertsOf parse place rest)
    | some _ => throw ⟨.notAnInsert (Text.dropTerminators s), place⟩

/-- Where the last word `END` begins, if it is not in front of an offset. -/
def lastEnd? (start : Nat) (tokens : List Located) : Option Nat :=
  ((tokens.reverse.find? (·.token.isKeyword "END")).map (·.span.start.offset)).filter (start ≤ ·)

/-- The statements of a block up to its `END`, behind the word `BEGIN`. -/
def block (parse : Text → Except ParseError (Option Operation)) : StatementParser Operation := do
  let src ← read
  let place ← here
  let start := place.start.offset
  match lastEnd? start src.tokens with
  | none => throw ⟨.endOfStatement "END", src.finish.span⟩
  | some stop =>
    let modifies ← insertsOf parse place (Script.split (src.textBetween start stop))
    goto ((← get).dropWhile fun t => !(t.token.isKeyword "END" && t.span.start.offset == stop))
    advance
    expectEnd
    return .statementSet modifies

/-- `EXECUTE STATEMENT SET BEGIN … END` or `EXECUTE INSERT …`. -/
def execute (parse : Text → Except ParseError (Option Operation)) : StatementParser Operation := do
  advance
  if ← eatKeywords ["STATEMENT", "SET", "BEGIN"] then block parse
  else if startsWith ["INSERT"] (← get) then return .insert (← insert)
  else unexpected "STATEMENT SET or INSERT"

/-! ## Plans and definitions -/

/-- The details that may be asked for between `EXPLAIN` and the statement. -/
def explainDetails : List Text :=
  ["ESTIMATED_COST", "CHANGELOG_MODE", "JSON_EXECUTION_PLAN", "PLAN_ADVICE"]

/-- Leave out details, and one comma behind each of them. -/
def skipDetails (afterDetail : Bool) : List Located → List Located
  | [] => []
  | t :: ts =>
    if explainDetails.any t.token.isKeyword then skipDetails true ts
    else if afterDetail && t.token == .symbol ',' then skipDetails false ts
    else t :: ts

/-- `EXPLAIN [PLAN FOR | details] statement`. -/
def explain : StatementParser Operation := do
  advance
  if !(← eatKeywords ["PLAN", "FOR"]) then goto (skipDetails false (← get))
  if atEnd (← get) then unexpected "statement to explain"
  return .explain (← restText)

/-- `SHOW CREATE TABLE|VIEW name`. -/
def showCreate : StatementParser Operation := do
  advance
  expectKeyword "CREATE"
  let op ← do
    if ← eatKeyword "TABLE" then pure (.showCreateTable (← expectName))
    else if ← eatKeyword "VIEW" then pure (.showCreateView (← expectName))
    else unexpected "TABLE or VIEW"
  expectEnd
  return op

def objectKind : StatementParser ObjectKind := do
  if ← eatKeyword "TABLE" then return .table
  if ← eatKeyword "VIEW" then return .view
  if ← eatKeyword "FUNCTION" then return .function
  if ← eatKeyword "DATABASE" then return .database
  if ← eatKeyword "CATALOG" then return .catalog
  unexpected "TABLE, VIEW, FUNCTION, DATABASE or CATALOG"

/-- `verb [OR REPLACE] [TEMPORARY] [SYSTEM] object [guard] name …`. -/
def definition (verb : Text) (guard : List Text) : StatementParser Definition := do
  expectKeyword verb
  let _ ← eatKeywords ["OR", "REPLACE"]
  let _ ← eatKeyword "TEMPORARY"
  let _ ← eatKeyword "SYSTEM"
  let object ← objectKind
  let guarded ← eatKeywords guard
  let name ← expectName
  return ⟨object, name, guarded, (← read).body⟩

def beginsQuery (t : Located) : Bool :=
  t.token.isKeyword "SELECT" || t.token.isKeyword "WITH" || t.token.isKeyword "VALUES" ||
    t.token == .symbol '('

/-- Whether the word `AS` and the beginning of a query follow outside of parentheses. -/
def hasQuery (depth : Nat) : List Located → Bool
  | [] => false
  | t :: ts =>
    if t.token = .symbol '(' then hasQuery (depth + 1) ts
    else if t.token = .symbol ')' then hasQuery (depth - 1) ts
    else (depth == 0 && t.token.isKeyword "AS" && ts.head?.any beginsQuery) || hasQuery depth ts

/-- `CREATE …`; a table with a query behind `AS` is written as it is created. -/
def create : StatementParser Operation := do
  let d ← definition "CREATE" ["IF", "NOT", "EXISTS"]
  if d.object = .table && hasQuery 0 (← get) then
    return .createTableAs ⟨.createTableAs, d.name, d.statement⟩
  return .create d

/-- `USE CATALOG name`, `USE MODULES name, …` or `USE name`. -/
def use : StatementParser Operation := do
  advance
  let target ← do
    if ← eatKeyword "CATALOG" then pure (.catalog (← expectIdentifier))
    else if ← eatKeyword "MODULES" then pure (.modules (← expectIdentifiers ','))
    else pure (.database (← expectName))
  expectEnd
  return .use target (← read).body

/-! ## Jars, modules and jobs -/

/-- `JAR 'path'` behind the first word. -/
def jarPath : StatementParser Text := do
  advance
  expectKeyword "JAR"
  let path ← expectString "jar path"
  expectEnd
  return path

/-- `MODULE name` behind the first word. -/
def moduleName : StatementParser Text := do
  advance
  expectKeyword "MODULE"
  expectIdentifier

/-- What a job is stopped with, and the tokens behind it; or the tokens where neither `SAVEPOINT`
nor `DRAIN` follows a `WITH`. -/
def stopFlags (savepoint drain : Bool) :
    List Located → Except (List Located) ((Bool × Bool) × List Located)
  | w :: flag :: rest =>
    if w.token.isKeyword "WITH" then
      if flag.token.isKeyword "SAVEPOINT" then stopFlags true drain rest
      else if flag.token.isKeyword "DRAIN" then stopFlags savepoint true rest
      else .error (flag :: rest)
    else .ok ((savepoint, drain), w :: flag :: rest)
  | [w] => if w.token.isKeyword "WITH" then .error [] else .ok ((savepoint, drain), [w])
  | [] => .ok ((savepoint, drain), [])

/-- `STOP JOB 'id' [WITH SAVEPOINT] [WITH DRAIN]`. -/
def stopJob : StatementParser Operation := do
  advance
  expectKeyword "JOB"
  let job ← expectString "job id"
  match stopFlags false false (← get) with
  | .error rest => goto rest; unexpected "SAVEPOINT or DRAIN"
  | .ok ((savepoint, drain), rest) =>
    goto rest
    expectEnd
    return .stopJob job savepoint drain

/-! ## Statements -/

/-- Only a block may hold terminators in front of its last token. -/
def rejectInnerTerminators : StatementParser Unit := do
  let tokens := (← read).tokens
  if !startsWith ["EXECUTE", "STATEMENT"] tokens then
    match tokens.dropLast.find? (·.token == .symbol ';') with
    | some t => throw ⟨.severalStatements, t.span⟩
    | none => pure ()

/-- The operation of a statement that begins in a certain way. -/
def ofOpening (parse : Text → Except ParseError (Option Operation)) :
    Opening → StatementParser Operation
  | .quit => bareCommand .quit
  | .clear => bareCommand .clear
  | .help => bareCommand .help
  | .set => set
  | .reset => reset
  | .insert => return .insert (← insert)
  | .query => return .query (← read).body
  | .explain => explain
  | .beginSet => do
    advance
    expectKeyword "STATEMENT"
    expectKeyword "SET"
    expectEnd
    return .beginStatementSet
  | .endSet => bareCommand .endStatementSet
  | .execute => execute parse
  | .addJar => return .addJar (← jarPath)
  | .removeJar => return .removeJar (← jarPath)
  | .showing => do
    if startsWith ["SHOW", "CREATE"] (← get) then showCreate else return .other (← read).body
  | .create => create
  | .drop => return .drop (← definition "DROP" ["IF", "EXISTS"])
  | .alter => return .alter (← definition "ALTER" ["IF", "EXISTS"])
  | .use => use
  | .load => return .loadModule (← moduleName)
  | .unload => do
    let name ← moduleName
    expectEnd
    return .unloadModule name
  | .stop => stopJob
  | .passed => return .other (← read).body

/-- The operation of a statement, given how the inner statements of a block are parsed.  There is
none where the statement is blank. -/
def operation (parse : Text → Except ParseError (Option Operation)) :
    StatementParser (Option Operation) := do
  if atEnd (← get) then return none
  rejectInnerTerminators
  match (← get) with
  | [] => return none
  | t :: _ =>
    match t.token with
    | .word w =>
      match Opening.ofWord? w with
      | some opening => return some (← ofOpening parse opening)
      | none => throw ⟨.unsupported w, t.span⟩
    | .symbol '(' => return some (.query (← read).body)
    | _ => unexpected "statement keyword"

/-- The operation that a text asks for; none where it holds at most blanks, comments and a
terminator.  The statements inside of a block are shorter than the block. -/
def parse (t : Text) : Except ParseError (Option Operation) := do
  let src ← Source.ofText t
  let inner s := if _h : s.length < t.length then parse s else .ok none
  let (op, _) ← (operation inner).run src |>.run src.tokens
  return op
termination_by t.length

end Statement

end SqlConsole
