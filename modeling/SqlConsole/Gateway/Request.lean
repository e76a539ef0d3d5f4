import SqlConsole.Gateway.Result
import SqlConsole.Operation
/-!
# Talking to a gateway

Everything the client asks of a gateway is a `Request`, and each kind of request has its kind of
reply.  A `Gateway` is a state that answers requests one after the other.  It reads and may change
the state of interrupt handling, since an interrupt can arrive while it works.  So may the sources
that it answers queries with, of whatever kind they are (`Gateway.Over`).
-/

namespace SqlConsole

/-- What the client asks of a gateway. -/
inductive Request where
  | setProperty (key value : Text)
  | resetProperty (key : Text)
  | resetProperties
  /-- Start a query. -/
  | query (statement : Text)
  /-- Submit modifications as one job. -/
  | modify (modifies : List Modify)
  /-- Execute any other operation. -/
  | execute (operation : Operation)
  | removeJar (path : Text)
  | stopJob (job : Text) (savepoint drain : Bool)
  deriving DecidableEq, Repr

/-- What a request is answered with, where the rows of queries come from sources of a kind. -/
def Request.Reply (r : Request) (φ : Type := RowSource) : Type :=
  match r with
  | query _ => Descriptor φ
  | modify _ => TableResult
  | execute _ => TableResult
  | stopJob _ _ _ => Option Text
  | _ => Unit

/-- A state that answers requests, and queries with sources of a kind. -/
class Gateway.Over (σ : Type) (φ : outParam Type) where
  /-- The effective properties of the session, defaults included. -/
  properties : σ → Properties
  /-- Answer a request on behalf of the statement with a token. -/
  handle : (r : Request) → CancelToken → σ → Interrupts →
    Except GatewayError (r.Reply φ) × σ × Interrupts

/-- A state that answers requests, and queries with the sources of this library. -/
abbrev Gateway (σ : Type) := Gateway.Over σ RowSource

namespace Gateway

export Over (properties handle)

end Gateway

end SqlConsole
