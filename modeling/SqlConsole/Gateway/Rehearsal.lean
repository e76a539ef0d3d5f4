import SqlConsole.Gateway.Request
/-!
# Rehearsals

A gateway without a catalog or jobs that answers from a plan and keeps a record of everything it
was asked.  It is made for rehearsing a session: any request can be planned to fail, a query to
answer with given batches, and an interrupt to arrive while a query or a modification is at work.
-/

namespace SqlConsole

/-- The kinds of requests that can be planned to fail. -/
inductive Request.Kind where
  | setProperty | resetProperty | resetProperties | query | modify | execute | removeJar | stopJob
  deriving DecidableEq, Repr

def Request.kind : Request → Kind
  | .setProperty .. => .setProperty
  | .resetProperty .. => .resetProperty
  | .resetProperties => .resetProperties
  | .query .. => .query
  | .modify .. => .modify
  | .execute .. => .execute
  | .removeJar .. => .removeJar
  | .stopJob .. => .stopJob

/-- Where a rehearsed interrupt goes. -/
inductive InterruptLine where
  /-- None is planned. -/
  | none
  /-- To the handler of the session that is running. -/
  | live
  /-- To nobody: they are met with, but no session listens to them. -/
  | dead
  deriving DecidableEq, Repr

/-- What was asked of a rehearsal, and the interrupts that arrived meanwhile. -/
inductive Call where
  | asked (request : Request)
  /-- An interrupt arrived: whether somebody was told, and whether the statement is cancelled. -/
  | interrupted (handled cancelled : Bool)
  deriving DecidableEq, Repr

/-- A planned gateway and its record. -/
structure Rehearsal where
  properties : Properties
  /-- Everything that was asked, in its order. -/
  calls : List Call
  /-- The number of modifications that were accepted. -/
  accepted : Nat
  /-- Planned failures. -/
  failures : List (Request.Kind × GatewayError)
  /-- The columns of results. -/
  schema : Option Schema
  /-- The rows that other operations answer with. -/
  content : Option (List Row)
  /-- The rows that queries answer with. -/
  source : RowSource
  /-- Modifications are answered without a job. -/
  omitJob : Bool
  /-- The path that a stopped job answers with. -/
  savepoint : Option Text
  /-- Where the interrupts go that queries and modifications meet with. -/
  line : InterruptLine

namespace Rehearsal

/-- Keep a record. -/
def note (g : Rehearsal) (call : Call) : Rehearsal := { g with calls := g.calls ++ [call] }

/-- Let the planned interrupt arrive. -/
def interrupt (token : CancelToken) (g : Rehearsal) (i : Interrupts) : Rehearsal × Interrupts :=
  match g.line with
  | .none => (g, i)
  | .live =>
    let (handled, i) := i.raise
    (g.note (.interrupted handled (i.isCancelled token)), i)
  | .dead => (g.note (.interrupted false (i.isCancelled token)), i)

/-- Let the planned interrupt arrive if the request is one that takes its time. -/
def meet (r : Request) (token : CancelToken) (g : Rehearsal) (i : Interrupts) :
    Rehearsal × Interrupts :=
  match r with
  | .query _ | .modify _ => g.interrupt token i
  | _ => (g, i)

/-- Answer a request that is not planned to fail. -/
def act (r : Request) (g : Rehearsal) : r.Reply × Rehearsal :=
  match r with
  | .setProperty key value => ((), { g with properties := g.properties.insert key value })
  | .resetProperty key => ((), { g with properties := g.properties.erase key })
  | .resetProperties => ((), { g with properties := ∅ })
  | .query _ =>
    let descriptor : Descriptor := {
      resultId := "result-1"
      schema := g.schema.getD (.single "v")
      mode := Setting.resultMode.get g.properties
      streaming := Setting.runtimeMode.get g.properties = .streaming
      maxColumnWidth := Setting.maxColumnWidth.get g.properties
      source := g.source }
    (descriptor, g)
  | .modify _ =>
    let g := { g with accepted := g.accepted + 1 }
    (if g.omitJob then .ok else .submitted (Text.ofNatHex 32 g.accepted), g)
  | .execute _ =>
    (match g.content with
      | some rows => .content (g.schema.getD []) rows
      | none => .ok, g)
  | .removeJar _ => ((), g)
  | .stopJob _ _ _ => (g.savepoint, g)

/-- Answer a request: keep a record of it, let an interrupt arrive, and fail if that is
planned. -/
def handle (r : Request) (token : CancelToken) (g : Rehearsal) (i : Interrupts) :
    Except GatewayError r.Reply × Rehearsal × Interrupts :=
  let (g, i) := (g.note (.asked r)).meet r token i
  match g.failures.lookup r.kind with
  | some e => (.error e, g, i)
  | none =>
    let (reply, g) := g.act r
    (.ok reply, g, i)

end Rehearsal

instance : Gateway Rehearsal where
  properties := Rehearsal.properties
  handle := Rehearsal.handle

end SqlConsole
