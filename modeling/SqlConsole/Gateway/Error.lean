import SqlConsole.Property
/-!
# Faults of the gateway

Why the gateway did not do what it was asked to do.
-/

namespace SqlConsole

/-- The kinds of things that a gateway knows by name. -/
inductive NameKind where
  | table
  | view
  | function
  | database
  | catalog
  | module
  deriving DecidableEq, Repr

/-- The word for a kind of thing. -/
def NameKind.label : NameKind → Text
  | table => "table"
  | view => "view"
  | function => "function"
  | database => "database"
  | catalog => "catalog"
  | module => "module"

/-- Why the gateway refused a request or failed at it. -/
inductive GatewayError where
  /-- The statement could not be executed. -/
  | execution (message : Text)
  /-- A property may not have this value. -/
  | invalidProperty (fault : InvalidValue)
  | notFound (kind : NameKind) (name : Text)
  | alreadyExists (kind : NameKind) (name : Text)
  /-- No job with this id was submitted. -/
  | unknownJob (job : Text)
  | invalidJobId (job : Text)
  /-- The job is over already. -/
  | jobNotRunning (job : Text)
  /-- The jar was never added. -/
  | jarNotFound (path : Text)
  /-- The request was cancelled. -/
  | cancelled
  deriving DecidableEq, Repr

namespace GatewayError

/-- What went wrong, in words. -/
def message : GatewayError → Text
  | execution message => message
  | invalidProperty fault => "invalid session property: " ++ fault.message
  | notFound kind name => kind.label ++ " '" ++ name ++ "' does not exist"
  | alreadyExists kind name => kind.label ++ " '" ++ name ++ "' already exists"
  | unknownJob job => "could not find job '" ++ job ++ "'"
  | invalidJobId job => "'" ++ job ++ "' is not a valid job id, expected 32 hexadecimal characters"
  | jobNotRunning job => "job '" ++ job ++ "' is not running"
  | jarNotFound path => "jar '" ++ path ++ "' is not registered in the session"
  | cancelled => "operation was cancelled"

/-- The messages of a fault and of its causes, the fault first. -/
def chain : GatewayError → List Text
  | e@(invalidProperty fault) => [e.message, fault.message]
  | e => [e.message]

end GatewayError

end SqlConsole
