import SqlConsole.Changelog
import SqlConsole.Console.Basic
import SqlConsole.Tableau
/-!
# Views of query results

A query is shown in the mode that its session asks for.  A tableau goes straight to the output: a
bounded result when it is complete, a streaming result row by row as the rows arrive.  A table and
a changelog are shown once the rows have arrived.

`present` gives the result up in the end, whatever happened before, and asks for no more rows once
the output has refused a line or a line could not be drawn.
-/

namespace SqlConsole.View

variable {φ : Type} [ResultSource φ]

/-- How many rows there are, in words. -/
def totalRows : Nat → Text
  | 1 => "1 row"
  | n => Text.ofNat n ++ " rows"

/-- What ends a result that was cancelled. -/
def terminated (count : Nat) : Text :=
  "Query terminated, received a total of " ++ totalRows count

/-- What ends a streaming result. -/
def received (count : Nat) : Text := "Received a total of " ++ totalRows count

/-- No more rows can be fetched. -/
def fetchFailed (e : GatewayError) : Stop :=
  .failure (.gateway "Failed to fetch the query result" e)

/-- The rows that arrived until a result was exhausted or cancelled. -/
structure Fetched where
  rows : List Row
  cancelled : Bool
  deriving DecidableEq, Repr

/-- Fetch rows until the result is exhausted or cancelled. -/
def fetchAll (token : CancelToken) (source : φ) : ConsoleM Fetched := fun c =>
  match h : c.fetch token source with
  | (.ok none, _, c) => (.ok ⟨[], false⟩, c)
  | (.error .cancelled, _, c) => (.ok ⟨[], true⟩, c)
  | (.error e, _, c) => (.error (fetchFailed e), c)
  | (.ok (some batch), next, c) =>
    have := Console.size_fetch_lt h
    let (answer, c) := fetchAll token next c
    (answer.map fun f => { f with rows := batch ++ f.rows }, c)
termination_by ResultSource.size source

/-- The tableau of a result whose rows are there. -/
def fitted (d : Descriptor φ) (rowKinds : Bool) (rows : List Row) : Tableau :=
  Tableau.fitted d.schema rows (.result d.maxColumnWidth rowKinds)

/-- The tableau of a result whose rows are still to come: its columns all have the widest width. -/
def streamed (d : Descriptor φ) : Tableau :=
  Tableau.fixed d.schema d.maxColumnWidth (.result d.maxColumnWidth true)

/-- Show a bounded result as a tableau. -/
def tableau (d : Descriptor φ) (token : CancelToken) : ConsoleM Unit := do
  let fetched ← fetchAll token d.source
  if fetched.cancelled then Console.writeLine (terminated fetched.rows.length)
  else ((fitted d false fetched.rows).lines fetched.rows).forM Console.draw

/-- Write a line for every row that arrives, and behind the last one how many there were with
those that arrived before. -/
def stream (t : Tableau) (token : CancelToken) (before : Nat) (source : φ) :
    ConsoleM Unit := fun c =>
  match h : c.fetch token source with
  | (.ok none, _, c) =>
    (do Console.draw t.border; Console.writeLine (received before) : ConsoleM Unit) c
  | (.error .cancelled, _, c) =>
    (do Console.draw t.border; Console.writeLine (terminated before) : ConsoleM Unit) c
  | (.error e, _, c) => (.error (fetchFailed e), c)
  | (.ok (some batch), next, c) =>
    have := Console.size_fetch_lt h
    match (batch.forM fun row => Console.draw (t.row row) : ConsoleM Unit) c with
    | (.ok (), c) => stream t token (before + batch.length) next c
    | (.error e, c) => (.error e, c)
termination_by ResultSource.size source

/-- Show a streaming result as a tableau. -/
def streamingTableau (d : Descriptor φ) (token : CancelToken) : ConsoleM Unit := do
  Console.draw (streamed d).border
  Console.draw (streamed d).header
  Console.draw (streamed d).border
  stream (streamed d) token 0 d.source

/-- Show the table that the changes of a result leave behind. -/
def table (d : Descriptor φ) (token : CancelToken) : ConsoleM Unit := do
  let fetched ← fetchAll token d.source
  let rows := Changelog.materialize fetched.rows
  Console.writeLine "SQL Query Result (Table)"
  ((fitted d false rows).lines rows).forM Console.draw

/-- Show the changes of a result. -/
def changelog (d : Descriptor φ) (token : CancelToken) : ConsoleM Unit := do
  let fetched ← fetchAll token d.source
  Console.writeLine "SQL Query Result (Changelog)"
  ((fitted d true fetched.rows).lines fetched.rows).forM Console.draw

def body (mode : ResultMode) (d : Descriptor φ) (token : CancelToken) : ConsoleM Unit :=
  match mode with
  | .tableau => if d.streaming then streamingTableau d token else tableau d token
  | .table => table d token
  | .changelog => changelog d token

/-- Show a result in a mode, and give it up in the end. -/
def present (mode : ResultMode) (d : Descriptor φ) (token : CancelToken) : ConsoleM Unit := fun c =>
  let (answer, c) := body mode d token (c.note (.opened mode))
  (answer, c.note .closed)

end SqlConsole.View
