import SqlConsole.Text.Basic
/-!
# Operations

An operation is what one statement asks for.  Some operations are the client's own business
(`QUIT`, `HELP`, statement sets), some change the session, and the others are handed to the
gateway with the text that spells them.
-/

namespace SqlConsole

/-- How a modification writes into its target. -/
inductive ModifyKind where
  | insertInto
  | insertOverwrite
  | createTableAs
  deriving DecidableEq, Repr

/-- A write that runs as a job once it is submitted. -/
structure Modify where
  kind : ModifyKind
  /-- Name of the table that is written. -/
  target : Text
  /-- The statement without its terminator. -/
  statement : Text
  deriving DecidableEq, Repr

/-- The kinds of objects that definitions are about. -/
inductive ObjectKind where
  | table
  | view
  | function
  | database
  | catalog
  deriving DecidableEq, Repr

def ObjectKind.keyword : ObjectKind → Text
  | .table => "TABLE"
  | .view => "VIEW"
  | .function => "FUNCTION"
  | .database => "DATABASE"
  | .catalog => "CATALOG"

/-- The word for a kind of object in messages. -/
def ObjectKind.label (k : ObjectKind) : Text := Text.lower k.keyword

/-- A `CREATE`, `DROP` or `ALTER` of a named object. -/
structure Definition where
  object : ObjectKind
  name : Text
  /-- `IF EXISTS` or `IF NOT EXISTS` was given. -/
  guarded : Bool
  /-- The statement without its terminator. -/
  statement : Text
  deriving DecidableEq, Repr

/-- What a `USE` statement selects. -/
inductive UseTarget where
  | catalog (name : Text)
  | database (name : Text)
  | modules (names : List Text)
  deriving DecidableEq, Repr

/-- What one statement asks for. -/
inductive Operation where
  | quit
  | clear
  | help
  /-- Set a property, or list all properties where key or value is missing. -/
  | set (key value : Option Text)
  /-- Reset a property, or all of them. -/
  | reset (key : Option Text)
  | insert (modify : Modify)
  | createTableAs (modify : Modify)
  | query (statement : Text)
  /-- Show the plan of the given statement. -/
  | explain (statement : Text)
  | beginStatementSet
  | endStatementSet
  /-- Submit a whole block of modifications at once. -/
  | statementSet (modifies : List Modify)
  | addJar (path : Text)
  | removeJar (path : Text)
  | showCreateTable (name : Text)
  | showCreateView (name : Text)
  | stopJob (job : Text) (savepoint drain : Bool)
  | create (definition : Definition)
  | drop (definition : Definition)
  | alter (definition : Definition)
  | use (target : UseTarget) (statement : Text)
  | loadModule (name : Text)
  | unloadModule (name : Text)
  /-- Any other statement that the gateway executes by itself. -/
  | other (statement : Text)
  deriving DecidableEq, Repr

namespace Operation

/-- What kind of operation it is, whatever it is about. -/
inductive Kind where
  | quit | clear | help | set | reset | insert | createTableAs | query | explain
  | beginStatementSet | endStatementSet | statementSet | addJar | removeJar
  | showCreateTable | showCreateView | stopJob | create | drop | alter | use
  | loadModule | unloadModule | other
  deriving DecidableEq, Repr

def Kind.name : Kind → Text
  | .quit => "QUIT"
  | .clear => "CLEAR"
  | .help => "HELP"
  | .set => "SET"
  | .reset => "RESET"
  | .insert => "INSERT"
  | .createTableAs => "CREATE TABLE AS"
  | .query => "QUERY"
  | .explain => "EXPLAIN"
  | .beginStatementSet => "BEGIN STATEMENT SET"
  | .endStatementSet => "END"
  | .statementSet => "EXECUTE STATEMENT SET"
  | .addJar => "ADD JAR"
  | .removeJar => "REMOVE JAR"
  | .showCreateTable => "SHOW CREATE TABLE"
  | .showCreateView => "SHOW CREATE VIEW"
  | .stopJob => "STOP JOB"
  | .create => "CREATE"
  | .drop => "DROP"
  | .alter => "ALTER"
  | .use => "USE"
  | .loadModule => "LOAD MODULE"
  | .unloadModule => "UNLOAD MODULE"
  | .other => "OTHER"

def kind : Operation → Kind
  | quit => .quit
  | clear => .clear
  | help => .help
  | set .. => .set
  | reset .. => .reset
  | insert .. => .insert
  | createTableAs .. => .createTableAs
  | query .. => .query
  | explain .. => .explain
  | beginStatementSet => .beginStatementSet
  | endStatementSet => .endStatementSet
  | statementSet .. => .statementSet
  | addJar .. => .addJar
  | removeJar .. => .removeJar
  | showCreateTable .. => .showCreateTable
  | showCreateView .. => .showCreateView
  | stopJob .. => .stopJob
  | create .. => .create
  | drop .. => .drop
  | alter .. => .alter
  | use .. => .use
  | loadModule .. => .loadModule
  | unloadModule .. => .unloadModule
  | other .. => .other

/-- A line about an operation for error messages. -/
def summary : Operation → Text
  | set (some key) (some value) => "SET " ++ key ++ "=" ++ value
  | reset (some key) => "RESET " ++ key
  | insert m | createTableAs m => m.statement
  | query s | use _ s | other s => s
  | explain s => "EXPLAIN " ++ s
  | statementSet ms => "EXECUTE STATEMENT SET (" ++ Text.ofNat ms.length ++ " statements)"
  | addJar path => "ADD JAR '" ++ path ++ "'"
  | removeJar path => "REMOVE JAR '" ++ path ++ "'"
  | showCreateTable name => "SHOW CREATE TABLE " ++ name
  | showCreateView name => "SHOW CREATE VIEW " ++ name
  | stopJob job _ _ => "STOP JOB '" ++ job ++ "'"
  | create d | drop d | alter d => d.statement
  | loadModule name => "LOAD MODULE " ++ name
  | unloadModule name => "UNLOAD MODULE " ++ name
  | op => op.kind.name

end Operation

end SqlConsole
