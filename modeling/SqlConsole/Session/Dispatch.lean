import SqlConsole.Session.Basic
import SqlConsole.View
/-!
# What operations do

`dispatch` lets an operation run in a session: if the guard admits it, the operation does its work
and says at the console what came of it.  Modifications that run while a statement set is open wait
in the set, and `END` hands them over together.
-/

namespace SqlConsole.Session

variable {σ φ : Type} [ResultSource φ] [Gateway.Over σ φ]

/-! ## Properties -/

def setProperty (key value : Text) (token : CancelToken) : SessionM σ Unit := do
  let key := Text.trim key
  ask (.setProperty key (Text.trim value)) token ("Failed to set session property '" ++ key ++ "'")
  inform Message.propertySet

/-- The entry of a property in the list of all properties. -/
def propertyEntry (key value : Text) : Text :=
  "'" ++ Text.double '\'' key ++ "' = '" ++ Text.double '\'' value ++ "'"

/-- List the properties in the order of their keys. -/
def listProperties : SessionM σ Unit := do
  let properties := (← get).properties
  if properties.isEmpty then inform Message.noProperties
  else properties.toList.forM fun (key, value) => writeLine (propertyEntry key value)

/-- Reset a property, or all of them. -/
def resetProperties (key : Option Text) (token : CancelToken) : SessionM σ Unit := do
  match key with
  | some key =>
    let key := Text.trim key
    ask (.resetProperty key) token ("Failed to reset session property '" ++ key ++ "'")
    inform Message.propertyReset
  | none =>
    ask .resetProperties token "Failed to reset session properties"
    inform Message.propertiesReset

/-! ## Modifications -/

/-- Submit modifications as one job. -/
def submit (modifies : List Modify) (token : CancelToken) : SessionM σ Unit := do
  inform Message.submitting
  let sync := Setting.dmlSync.get (← get).properties
  if sync then inform Message.waiting
  let result : TableResult ← ask (.modify modifies) token "Failed to submit SQL update statement"
  match result.job with
  | none => throw (.failure (.broken
      "the executor accepted a modify operation without a job handle"))
  | some job =>
    if sync then inform Message.finished
    else
      inform Message.submitted
      writeLine ("Job ID: " ++ job ++ "\n")

def withStatementSet {α : Type} (change : StatementSet → Except StatementSet.Error α) :
    SessionM σ α := do
  match change (← get).statementSet with
  | .ok a => return a
  | .error e => throw (.failure (.statementSet e))

/-- Put a statement set in the place of the present one. -/
def putStatementSet (statementSet : StatementSet) : SessionM σ Unit :=
  modify fun s => { s with statementSet }

def beginStatementSet : SessionM σ Unit := do
  putStatementSet (← withStatementSet StatementSet.begin)
  inform Message.setBegun

/-- Let a modification wait in the open statement set, or submit it where none is open. -/
def insert (m : Modify) (token : CancelToken) : SessionM σ Unit := do
  if (← get).statementSet.isActive then
    putStatementSet (← withStatementSet (·.add m))
    inform Message.addedToSet
  else submit [m] token

/-- Close the statement set and submit what waited in it. -/
def endStatementSet (token : CancelToken) : SessionM σ Unit := do
  if !(← get).statementSet.isActive then
    throw (.failure (.denied Denial.noOpenStatementSet.message))
  let (modifies, set) ← withStatementSet StatementSet.finish
  putStatementSet set
  if modifies.isEmpty then inform Message.emptySet else submit modifies token

/-! ## Queries and other operations -/

/-- Start a query and show its result. -/
def query (statement : Text) (token : CancelToken) : SessionM σ Unit := do
  let d : Descriptor φ ←
    ask (.query statement) token ("Failed to execute query '" ++ statement ++ "'")
  atConsole (View.present d.mode d token)
  if d.mode ≠ .tableau then inform Message.resultQuit

/-- Hand an operation over to the gateway. -/
def execute (op : Operation) (token : CancelToken) : SessionM σ TableResult :=
  ask (.execute op) token ("Failed to execute operation '" ++ op.summary ++ "'")

/-- Execute an operation that is answered with a single text, and write the text. -/
def printContent (op : Operation) (token : CancelToken) : SessionM σ Unit := do
  let result ← execute op token
  match result.firstField? with
  | none | some .null =>
    throw (.failure (.broken ("the result of '" ++ op.summary ++ "' has no content to print")))
  | some v => writeLine v.render

/-- Execute an operation and show its answer. -/
def printResult (op : Operation) (token : CancelToken) : SessionM σ Unit := do
  let result ← execute op token
  if result.hasContent then
    let t := Tableau.fitted result.schema result.rows .plain
    atConsole ((t.lines result.rows).forM Console.draw)
  else inform Message.executed

def removeJar (path : Text) (token : CancelToken) : SessionM σ Unit := do
  ask (.removeJar path) token ("Failed to remove jar '" ++ path ++ "'")
  inform Message.jarRemoved

/-- Stop a job, and say where its savepoint is if one was wanted. -/
def stopJob (job : Text) (savepoint drain : Bool) (token : CancelToken) : SessionM σ Unit := do
  let path : Option Text ← ask (.stopJob job savepoint drain) token ("Could not stop job " ++ job)
  if !savepoint then inform Message.jobStopped
  else match path with
    | some path => inform (Message.jobStoppedWithSavepoint path)
    | none =>
      throw (.failure (.broken ("job " ++ job ++
        " was stopped with a savepoint but no savepoint path was returned")))

/-- End the session behind this statement. -/
def quit : SessionM σ Unit := do
  inform Message.quit
  modify fun s => { s with running := false }

/-! ## Dispatch -/

/-- What an admitted operation does. -/
def perform (op : Operation) (token : CancelToken) : SessionM σ Unit :=
  match op with
  | .quit => quit
  | .clear => atConsole Console.clear
  | .help => writeLine Message.help
  | .set (some key) (some value) => setProperty key value token
  | .set _ _ => listProperties
  | .reset key => resetProperties key token
  | .insert m | .createTableAs m => insert m token
  | .query statement => query statement token
  | .explain _ | .showCreateTable _ | .showCreateView _ => printContent op token
  | .beginStatementSet => beginStatementSet
  | .endStatementSet => endStatementSet token
  | .statementSet modifies => submit modifies token
  | .removeJar path => removeJar path token
  | .stopJob job savepoint drain => stopJob job savepoint drain token
  | .addJar _ | .create _ | .drop _ | .alter _ | .use _ _ | .loadModule _ | .unloadModule _
  | .other _ => printResult op token

/-- Whether the guard admits an operation now. -/
def admits (op : Operation) (s : Session σ) : Except Denial Unit :=
  Guard.check op s.mode s.properties s.statementSet.isActive

/-- Let an operation run if the guard admits it. -/
def dispatch (op : Operation) (token : CancelToken) : SessionM σ Unit := do
  modify fun s => { s with console := s.console.note (.dispatched op) }
  match admits op (← get) with
  | .error denial => throw (.failure (.denied denial.message))
  | .ok () => perform op token

end SqlConsole.Session
