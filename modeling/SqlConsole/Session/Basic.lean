import SqlConsole.Console.Basic
import SqlConsole.Guard
/-!
# Sessions

A session runs statements at a console with a gateway behind it.  `Session.ask` is the only way to
the gateway: it enters every request into the journal of the console.
-/

namespace SqlConsole

/-- A session with a gateway of a type. -/
structure Session (σ : Type) where
  gateway : σ
  console : Console
  mode : Mode
  /-- More statements are wanted. -/
  running : Bool
  statementSet : StatementSet

/-- What is done in a session: it may stop, and leaves the session changed even then. -/
abbrev SessionM (σ : Type) := ExceptT Stop (StateM (Session σ))

namespace Session

variable {σ φ : Type}

/-- A session that begins. -/
def start (gateway : σ) (console : Console) (mode : Mode) : Session σ :=
  ⟨gateway, console, mode, true, .closed⟩

def properties [Gateway.Over σ φ] (s : Session σ) : Properties := Gateway.properties s.gateway

/-- Do something at the console. -/
def atConsole {α : Type} (m : ConsoleM α) : SessionM σ α := fun s =>
  let (answer, console) := m s.console
  (answer, { s with console })

def withInterrupts (s : Session σ) (i : Interrupts) : Session σ :=
  { s with console := { s.console with interrupts := i } }

def writeLine (t : Text) : SessionM σ Unit := atConsole (Console.writeLine t)

/-- Write an information. -/
def inform (message : Text) : SessionM σ Unit := atConsole (Console.writeInfo message)

/-- Ask the gateway for something, and say what was attempted if it fails. -/
def ask [Gateway.Over σ φ] (r : Request) (token : CancelToken) (attempt : Text) :
    SessionM σ (r.Reply φ) :=
  fun s =>
    let (answer, gateway, interrupts) := Gateway.handle r token s.gateway s.console.interrupts
    let console := Console.note (.asked r) { s.console with interrupts }
    (answer.mapError fun e => .failure (.gateway attempt e), { s with gateway, console })

def report [Gateway.Over σ φ] (f : Failure) (s : Session σ) : Session σ :=
  { s with console := s.console.report f (Setting.verbose.get s.properties) }

end Session

end SqlConsole
