import SqlConsole.Catalog.Modules
import SqlConsole.Gateway.Request
import SqlConsole.Query
/-!
# The local gateway

A gateway that lives in the client: properties over their defaults, a catalog, jars, and the jobs
that modifications submit.  It moves no data.  A job runs until it is stopped, or is over at once
where the session waits for modifications.

Each operation is a function of its own on `Local`, which either fails or answers with what it
found and the changed state; the state behind a failed request is the state before it.
-/

namespace SqlConsole

/-- How far a job has come. -/
inductive JobStatus where
  | running
  | finished
  | stopped
  deriving DecidableEq, Repr

def JobStatus.name : JobStatus → Text
  | running => "RUNNING"
  | finished => "FINISHED"
  | stopped => "CANCELED"

/-- A submitted job. -/
structure Job where
  name : Text
  status : JobStatus
  deriving DecidableEq, Repr

/-- Where the ids of jobs come from: a list of ids, and the count of the ids that were drawn once
the list is used up. -/
structure JobIds where
  given : List Text := []
  drawn : Nat := 0
  deriving DecidableEq, Repr

/-- Draw an id. -/
def JobIds.next (ids : JobIds) : Text × JobIds :=
  match ids.given with
  | id :: rest => (id, ⟨rest, ids.drawn + 1⟩)
  | [] => (Text.ofNatHex 32 (ids.drawn + 1), ⟨[], ids.drawn + 1⟩)

/-- The state of a local gateway. -/
structure Local where
  defaults : Properties
  /-- Properties that were set and not reset since. -/
  overrides : Properties
  catalog : Catalog
  jars : Std.TreeSet Text
  /-- Jobs by their ids. -/
  jobs : Std.TreeMap Text Job
  /-- Where savepoints are written. -/
  savepointDir : Text
  /-- The number of queries that were started. -/
  queries : Nat
  /-- The number of savepoints that were taken. -/
  savepoints : Nat
  ids : JobIds

namespace Local

/-- The defaults that a session has if it is given none. -/
def builtinDefaults : Properties :=
  (∅ : Properties)
    |>.insert Setting.resultMode.key "table"
    |>.insert Setting.dmlSync.key "false"
    |>.insert Setting.runtimeMode.key "streaming"
    |>.insert Setting.maxColumnWidth.key "30"

/-- Where savepoints are written if nothing else is said. -/
def defaultSavepointDir : Text := "file:///tmp/sqlcli/savepoints"

/-- A gateway without any objects and jobs, whose defaults are the given ones and those that it
always has. -/
def ofDefaults (defaults : Properties) (savepointDir : Text) (ids : JobIds) : Local where
  defaults := builtinDefaults ∪ defaults
  overrides := ∅
  catalog := .empty
  jars := ∅
  jobs := ∅
  savepointDir
  queries := 0
  savepoints := 0
  ids

/-- The effective properties. -/
def properties (g : Local) : Properties := g.defaults ∪ g.overrides

/-! ## Properties -/

/-- Set a property to a value that it may have. -/
def setProperty (g : Local) (key value : Text) : Except GatewayError Local :=
  match Property.check key value with
  | .ok () => .ok { g with overrides := g.overrides.insert key value }
  | .error fault => .error (.invalidProperty fault)

/-! ## Queries and modifications -/

/-- The columns and rows of a query.  A table has no rows here. -/
def answerQuery (g : Local) (statement : Text) : Except GatewayError (Schema × List Row) := do
  match ← Query.plan statement with
  | .literal schema rows => return (schema, rows)
  | .scan table =>
    match g.catalog.get? table with
    | some ⟨.table, _⟩ | some ⟨.view, _⟩ => return ([], [])
    | _ => throw (.notFound .table (g.catalog.qualify table))

/-- Start a query.  Rows that arrive one by one are batches of their own. -/
def query (g : Local) (statement : Text) : Except GatewayError (Descriptor × Local) := do
  let (schema, rows) ← g.answerQuery statement
  let properties := g.properties
  let streaming := Setting.runtimeMode.get properties = .streaming
  let g := { g with queries := g.queries + 1 }
  let descriptor : Descriptor := {
    resultId := "result-" ++ Text.ofNat g.queries
    schema
    mode := Setting.resultMode.get properties
    streaming
    maxColumnWidth := Setting.maxColumnWidth.get properties
    source := { batches := if streaming then rows.map ([·]) else [rows] } }
  return (descriptor, g)

/-- Whether a modification can be written: an insert needs its table, and a table that is written
as it is created must not be there. -/
def checkTarget (c : Catalog) (m : Modify) : Except GatewayError Unit :=
  match m.kind with
  | .createTableAs =>
    match c.get? m.target with
    | some _ => .error (.alreadyExists .table (c.qualify m.target))
    | none => .ok ()
  | .insertInto | .insertOverwrite => (c.require .table m.target).map fun _ => ()

/-- Create the tables that are written as they are created. -/
def createTargets (c : Catalog) : List Modify → Except GatewayError Unit × Catalog
  | [] => (.ok (), c)
  | m :: ms =>
    if m.kind = .createTableAs then
      match c.createObject .table m.target m.statement false with
      | .ok (_, c) => createTargets c ms
      | .error e => (.error e, c)
    else createTargets c ms

/-- The name of the job that runs some modifications. -/
def jobName (c : Catalog) : List Modify → Text
  | [m] => "insert-into_" ++ c.qualify m.target
  | ms => "statement-set_" ++ Text.ofNat ms.length

/-- Submit a job under a new id. -/
def submit (g : Local) (name : Text) : Text × Local :=
  let (id, ids) := g.ids.next
  let status := if Setting.dmlSync.get g.properties then .finished else .running
  (id, { g with jobs := g.jobs.insert id ⟨name, status⟩, ids })

/-- Submit modifications as one job.  All targets are looked at before the first table is
created. -/
def modify (g : Local) (ms : List Modify) : Except GatewayError TableResult × Local :=
  if ms.isEmpty then (.error (.execution "no modify operation to execute"), g)
  else match ms.forM (checkTarget g.catalog) with
    | .error e => (.error e, g)
    | .ok () =>
      match createTargets g.catalog ms with
      | (.error e, catalog) => (.error e, { g with catalog })
      | (.ok (), catalog) =>
        let (id, g) := submit { g with catalog } (jobName catalog ms)
        (.ok (.submitted id), g)

/-! ## Definitions -/

/-- Execute a `CREATE`. -/
def create (c : Catalog) (d : Definition) : Except GatewayError Catalog :=
  match d.object with
  | .catalog => c.createCatalog d.name d.guarded
  | .database => c.createDatabase d.name d.guarded
  | kind => (c.createObject kind d.name d.statement d.guarded).map (·.2)

/-- Execute a `DROP`. -/
def drop (c : Catalog) (d : Definition) : Except GatewayError Catalog :=
  match d.object with
  | .catalog => c.dropCatalog d.name d.guarded
  | .database => c.dropDatabase d.name d.guarded
  | kind => c.dropObject kind d.name d.guarded

/-- Whether there is something that an `ALTER` can be about. -/
def alter (c : Catalog) (d : Definition) : Except GatewayError Unit :=
  if d.guarded then .ok ()
  else match d.object with
    | .catalog => if c.hasCatalog d.name then .ok () else .error (.notFound .catalog d.name)
    | .database =>
      if c.hasDatabase d.name then .ok ()
      else .error (.notFound .database (c.qualifyDatabase d.name))
    | kind => (c.require kind d.name).map fun _ => ()

/-- Execute a `USE`. -/
def use (c : Catalog) : UseTarget → Except GatewayError Catalog
  | .catalog name => c.useCatalog name
  | .database name => c.useDatabase name
  | .modules names => c.useModules names

/-! ## Questions -/

/-- The statement that created a table or view. -/
def showCreate (c : Catalog) (kind : ObjectKind) (name : Text) : Except GatewayError TableResult :=
  match c.get? name with
  | some object =>
    if object.kind = kind then .ok (.text "result" object.ddl)
    else .error (.execution ("SHOW CREATE " ++ kind.keyword ++ " is not supported for '" ++
      c.qualify name ++ "', which is a " ++ object.kind.label))
  | none =>
    .error (.notFound (if kind = .view then .view else .table) (c.qualify name))

/-- The plan of a statement in words. -/
def explain (c : Catalog) (statement : Text) : TableResult :=
  let plan : Text := match Query.plan statement with
    | .ok (.literal _ rows) => "Values(tuples=[" ++ Text.ofNat rows.length ++ " rows])"
    | .ok (.scan table) => "TableSourceScan(table=[[" ++ c.qualify table ++ "]])"
    | .error _ => "LogicalSink(statement=[modify])"
  .text "result" ("== Abstract Syntax Tree ==\n" ++ statement ++
    "\n\n== Optimized Execution Plan ==\n" ++ plan ++ "\n")

/-- What a `SHOW` statement lists. -/
inductive Listing where
  | catalogs | databases | tables | views | functions | currentCatalog | currentDatabase
  | modules | fullModules | jars | jobs
  deriving DecidableEq, Repr

/-- The words of the `SHOW` statements. -/
def listings : List (List Text × Listing) := [
  (["SHOW", "CATALOGS"], .catalogs),
  (["SHOW", "DATABASES"], .databases),
  (["SHOW", "TABLES"], .tables),
  (["SHOW", "VIEWS"], .views),
  (["SHOW", "FUNCTIONS"], .functions),
  (["SHOW", "USER", "FUNCTIONS"], .functions),
  (["SHOW", "CURRENT", "CATALOG"], .currentCatalog),
  (["SHOW", "CURRENT", "DATABASE"], .currentDatabase),
  (["SHOW", "MODULES"], .modules),
  (["SHOW", "FULL", "MODULES"], .fullModules),
  (["SHOW", "JARS"], .jars),
  (["SHOW", "JOBS"], .jobs)]

def stringColumns (names : List Text) : Schema := names.map (⟨·, "STRING"⟩)

/-- What a `SHOW` statement answers. -/
def list (g : Local) : Listing → TableResult
  | .catalogs => .names "catalog name" g.catalog.listCatalogs
  | .databases => .names "database name" g.catalog.listDatabases
  | .tables => .names "table name" (g.catalog.listObjects .table)
  | .views => .names "view name" (g.catalog.listObjects .view)
  | .functions => .names "function name" (g.catalog.listObjects .function)
  | .currentCatalog => .text "current catalog name" g.catalog.currentCatalog
  | .currentDatabase => .text "current database name" g.catalog.currentDatabase
  | .modules => .names "module name" ((g.catalog.modules.filter (·.used)).map (·.name))
  | .fullModules =>
    .content [⟨"module name", "STRING"⟩, ⟨"used", "BOOLEAN"⟩]
      (g.catalog.modules.map fun m => .insert [.string m.name, .bool m.used])
  | .jars => .names "jars" g.jars.toList
  | .jobs =>
    .content (stringColumns ["job id", "job name", "status"])
      (g.jobs.toList.map fun (id, job) =>
        .insert [.string id, .string job.name, .string job.status.name])

/-- The statement that created the object which a `DESCRIBE` names with its second word. -/
def describe (c : Catalog) (statement : Text) : Except GatewayError TableResult :=
  let name := Text.dropTerminators ((Text.words statement)[1]?.getD [])
  match c.get? name with
  | some object => .ok (.text "ddl" object.ddl)
  | none => .error (.notFound .table (c.qualify name))

/-- Answer a statement by its words.  A statement with no answer of its own is acknowledged. -/
def answerWords (g : Local) (statement : Text) : Except GatewayError TableResult :=
  let words := (Text.words (Text.dropTerminators (Text.trim statement))).map Text.upper
  match listings.lookup words with
  | some listing => .ok (g.list listing)
  | none =>
    if words.head?.any fun w => w == ("DESCRIBE" : Text) || w == ("DESC" : Text) then
      describe g.catalog statement
    else .ok .ok

/-! ## Jobs and jars -/

/-- Whether a text is a job id: 32 hexadecimal digits. -/
def isJobId (t : Text) : Bool :=
  t.length == 32 && t.all fun c =>
    c.isDigit || ('a' ≤ c && c ≤ 'f') || ('A' ≤ c && c ≤ 'F')

def savepointPath (dir id : Text) (count : Nat) : Text :=
  dir ++ "/savepoint-" ++ id.take 6 ++ "-" ++ Text.ofNatHex 12 count

/-- Stop a running job, after it has written a savepoint if it is asked to. -/
def stopJob (g : Local) (job : Text) (savepoint : Bool) :
    Except GatewayError (Option Text × Local) :=
  if !isJobId job then .error (.invalidJobId job)
  else
    let id := Text.lower job
    match g.jobs[id]? with
    | none => .error (.unknownJob job)
    | some found =>
      if found.status ≠ .running then .error (.jobNotRunning job)
      else
        let g := { g with jobs := g.jobs.insert id { found with status := .stopped } }
        if savepoint then
          let count := g.savepoints + 1
          .ok (some (savepointPath g.savepointDir id count), { g with savepoints := count })
        else .ok (none, g)

def removeJar (g : Local) (path : Text) : Except GatewayError Local :=
  if path ∈ g.jars then .ok { g with jars := g.jars.erase path } else .error (.jarNotFound path)

/-! ## Requests -/

/-- The answer to a request that fails and changes nothing, or succeeds with a changed state. -/
def settle {α : Type} (g : Local) :
    Except GatewayError (α × Local) → Except GatewayError α × Local
  | .ok (a, g) => (.ok a, g)
  | .error e => (.error e, g)

/-- The answer to a definition. -/
def settleCatalog (g : Local) :
    Except GatewayError Catalog → Except GatewayError TableResult × Local
  | .ok catalog => (.ok .ok, { g with catalog })
  | .error e => (.error e, g)

def execute (g : Local) (op : Operation) : Except GatewayError TableResult × Local :=
  match op with
  | .create d => settleCatalog g (create g.catalog d)
  | .drop d => settleCatalog g (drop g.catalog d)
  | .alter d => ((alter g.catalog d).map fun _ => .ok, g)
  | .use target _ => settleCatalog g (use g.catalog target)
  | .loadModule name => settleCatalog g (g.catalog.loadModule name)
  | .unloadModule name => settleCatalog g (g.catalog.unloadModule name)
  | .addJar path => (.ok .ok, { g with jars := g.jars.insert path })
  | .showCreateTable name => (showCreate g.catalog .table name, g)
  | .showCreateView name => (showCreate g.catalog .view name, g)
  | .explain statement => (.ok (explain g.catalog statement), g)
  | .insert m | .createTableAs m => g.modify [m]
  | .statementSet ms => g.modify ms
  | .other statement => (g.answerWords statement, g)
  | op =>
    (.error (.execution (op.kind.name ++
      " is a client command and cannot be executed by the gateway")), g)

/-- Answer a request.  A query or a modification is not begun for a cancelled statement. -/
def handle (r : Request) (token : CancelToken) (g : Local) (i : Interrupts) :
    Except GatewayError r.Reply × Local × Interrupts :=
  match r with
  | .setProperty key value =>
    let (a, g) := settle g ((g.setProperty key value).map ((), ·))
    (a, g, i)
  | .resetProperty key => (.ok (), { g with overrides := g.overrides.erase key }, i)
  | .resetProperties => (.ok (), { g with overrides := ∅ }, i)
  | .query statement =>
    if i.isCancelled token then (.error .cancelled, g, i)
    else
      let (a, g) := settle g (g.query statement)
      (a, g, i)
  | .modify ms =>
    if i.isCancelled token then (.error .cancelled, g, i)
    else
      let (a, g) := g.modify ms
      (a, g, i)
  | .execute op =>
    let (a, g) := g.execute op
    (a, g, i)
  | .removeJar path =>
    let (a, g) := settle g ((g.removeJar path).map ((), ·))
    (a, g, i)
  | .stopJob job savepoint _ =>
    let (a, g) := settle g (g.stopJob job savepoint)
    (a, g, i)

end Local

instance : Gateway Local where
  properties := Local.properties
  handle := Local.handle

end SqlConsole
