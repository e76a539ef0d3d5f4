import SqlConsole.Gateway.Error
import SqlConsole.Statement.Error
import SqlConsole.StatementSet
/-!
# Failures of statements

A statement that fails leaves a `Failure`.  It has a message of its own and, where something else
was the reason, the messages of its causes.  A failure is internal if it can only come from a
collaborator that breaks its word.
-/

namespace SqlConsole

/-- Why a statement failed. -/
inductive Failure where
  /-- The statement is not allowed here. -/
  | denied (reason : Text)
  /-- The text is no statement. -/
  | parse (fault : ParseError)
  /-- The gateway failed at what the statement asked for. -/
  | gateway (attempt : Text) (fault : GatewayError)
  /-- A collaborator broke its word. -/
  | broken (what : Text)
  | statementSet (fault : StatementSet.Error)
  /-- The output could not be written. -/
  | output (fault : Text)
  deriving DecidableEq, Repr

namespace Failure

def message : Failure → Text
  | denied reason => reason
  | parse fault => fault.message
  | gateway attempt _ => attempt
  | broken what => what
  | statementSet fault => fault.message
  | output _ => "Could not write to the terminal"

/-- The messages of the causes of a failure, each followed by its own cause. -/
def causes : Failure → List Text
  | gateway _ fault => fault.chain
  | output fault => [fault]
  | _ => []

/-- Whether only a broken word explains the failure. -/
def isInternal : Failure → Bool
  | broken _ => true
  | _ => false

/-- The message of the cause behind all others; the failure's own where it has no cause. -/
def rootMessage (f : Failure) : Text := f.causes.getLastD f.message

end Failure

end SqlConsole
