import SqlConsole.Session.Dispatch
import SqlConsole.Session.Reader
import SqlConsole.Statement.Parse
/-!
# The loop of a session

A session reads one statement after the other, and evaluates each before it reads the next.  It
ends with the input, behind `QUIT`, at the first failure where the mode is not interactive, and in
any mode where a collaborator broke its word or the line between two statements cannot be written.
A crash ends it too, and nothing is reported then.  While a statement runs, interrupts cancel it and
nothing else.

The loop is a machine that is fed with one read at a time: `proceed` begins, `feed` goes on until a
line is wanted again or the session is over, and `run` feeds it with a list of reads.
-/

namespace SqlConsole

/-- What a session knows of the language of statements. -/
structure Language where
  /-- The operation that a statement spells, or none for an empty statement. -/
  parse : Text → Except ParseError (Option Operation)
  /-- Whether lines make up complete statements. -/
  isComplete : Text → Bool
  parsedText : Text → Text

/-- The language of `Statement.parse`, which takes statements without the blanks around them. -/
def Language.standard : Language where
  parse t := Statement.parse (Text.trim t)
  isComplete := Script.isComplete
  parsedText := Text.trim

namespace Session

variable {σ φ : Type} [ResultSource φ] [Gateway.Over σ φ]

/-- Dispatch an operation under a new token, which the interrupts of the time cancel. -/
def dispatchInterruptibly (op : Operation) : SessionM σ Unit := fun s =>
  let (token, interrupts) := s.console.interrupts.newToken
  let (previous, interrupts) := interrupts.install token
  let (answer, s) := dispatch op token (s.withInterrupts interrupts)
  (answer, s.withInterrupts (s.console.interrupts.restore previous))

/-- Before and after a dispatch only the interrupts are changed. -/
theorem dispatchInterruptibly_apply (op : Operation) (s : Session σ) :
    dispatchInterruptibly op s =
      let i := s.console.interrupts
      let inner := dispatch op i.newToken.1
        (s.withInterrupts (i.newToken.2.install i.newToken.1).2)
      (inner.1, inner.2.withInterrupts (inner.2.console.interrupts.restore i.handler)) := rfl

/-- Report a failure, and say how the session ends if the failure ends it. -/
def recover (f : Failure) (s : Session σ) : Option Outcome × Session σ :=
  (if f.isInternal || s.mode.exitsOnFailure then some .failure else none, s.report f)

/-- The parsed text is not the statement that was read. -/
def mismatch (parsed statement : Text) : Failure :=
  .broken ("the parsed text '" ++ parsed ++ "' differs from the statement read '" ++ statement ++
    "'")

/-- Evaluate a statement, and say how the session ends if the statement ends it. -/
def evaluate (language : Language) (statement : Text) (s : Session σ) :
    Option Outcome × Session σ :=
  if (Text.trim statement).isEmpty then (none, s)
  else match language.parse statement with
    | .error fault => recover (.parse fault) s
    | .ok none => (none, s)
    | .ok (some op) =>
      if language.parsedText statement = statement then
        match dispatchInterruptibly op s with
        | (.ok (), s) => (none, s)
        | (.error (.failure f), s) => recover f s
        | (.error (.crash why), s) => (some (.crash why), s)
      else recover (mismatch (language.parsedText statement) statement) s

/-- How far a session has come. -/
inductive Progress (σ : Type) where
  /-- A line is wanted; these are the lines that were kept. -/
  | waiting (kept : Text) (session : Session σ)
  | over (outcome : Outcome) (session : Session σ)

/-- End a session whose input is broken. -/
def closeInput (reason : Text) (s : Session σ) : Session σ :=
  let message := Message.info s.console.styled (Message.inputClosed reason)
  { s with console := (s.console.put (message ++ ['\n'])).2 }

/-- Ask for the next line of a statement.  The input is broken where nobody can be asked. -/
def await (kept : Text) (s : Session σ) : Progress σ :=
  match s.console.awaitLine Message.prompt kept with
  | (true, console) => .waiting kept { s with console }
  | (false, console) => .over .success (closeInput Console.sinkFull { s with console })

/-- Go on behind a statement, with the statements that were read together with it. -/
def proceed (language : Language) (queued : List Text) (s : Session σ) : Progress σ :=
  if !s.running then .over .success s
  else match s.console.put ['\n'] with
    | (false, console) => .over .failure { s with console }
    | (true, console) =>
      let s := { s with console }
      match queued with
      | [] => await [] s
      | statement :: queued =>
        match evaluate language statement s with
        | (none, s) => proceed language queued s
        | (some outcome, s) => .over outcome s

/-- Go on with what the terminal delivers, given the lines that were kept. -/
def feed (language : Language) (kept : Text) (read : TerminalRead) (s : Session σ) : Progress σ :=
  let (outcome, console) := s.console.take language.isComplete Message.prompt kept read
  let s := { s with console }
  match outcome with
  | .ended => .over .success s
  | .failed reason => .over .success (closeInput reason s)
  | .interrupted | .read .blank => proceed language [] s
  | .read (.incomplete lines) => await lines s
  | .read (.complete _ first others) =>
    match evaluate language first s with
    | (none, s) => proceed language others s
    | (some outcome, s) => .over outcome s

structure Ending (σ : Type) where
  outcome : Outcome
  session : Session σ
  /-- What the terminal has not delivered. -/
  unread : List TerminalRead

/-- Go on with everything that the terminal delivers, behind which the input is over. -/
def resume (language : Language) (progress : Progress σ) (reads : List TerminalRead) : Ending σ :=
  match progress, reads with
  | .over outcome s, unread => ⟨outcome, s, unread⟩
  | .waiting _ s, [] => ⟨.success, s, []⟩
  | .waiting kept s, read :: unread => resume language (feed language kept read s) unread

/-- Run a session that begins, on what a terminal delivers. -/
def run (language : Language) (reads : List TerminalRead) (s : Session σ) : Ending σ :=
  resume language (proceed language [] s) reads

def runLines (language : Language) (script : Text) (s : Session σ) : Ending σ :=
  run language ((Text.lines script).map .line) s

def runFile (language : Language) (content : Text) (s : Session σ) : Ending σ :=
  match s.console.put (Message.info false Message.executingFile ++ ['\n']) with
  | (false, console) => ⟨.failure, { s with console }, []⟩
  | (true, console) => runLines language (Script.formatFile content) { s with console }

/-- Run the content of an initialization file.  What it writes is captured whole. -/
def runInitialization (language : Language) (content : Text) (g : σ) : Ending σ :=
  runFile language content (.start g (.ofSink .unlimited false .transcript) .initialization)

end Session

end SqlConsole
