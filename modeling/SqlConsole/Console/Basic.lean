import SqlConsole.Console.Message
import SqlConsole.Crash
import SqlConsole.Gateway.Request
/-!
# The console

What a session writes goes to a sink, which may accept only so many bytes.  A `Console` is the
sink together with the style of the output, the state of interrupt handling, and a journal of what
the session did with the world outside: requests, fetches, reads, and the first words that the
sink refused.  The journal is in the order of the events.
-/

namespace SqlConsole

/-- What has been written, and how many more bytes are accepted if there is a limit. -/
structure Sink where
  written : Text
  room : Option Nat
  deriving DecidableEq, Repr

namespace Sink

/-- A sink that accepts everything. -/
def unlimited : Sink := ⟨[], none⟩

/-- A sink that accepts a number of bytes, if one is given. -/
def ofLimit (limit : Option Nat) : Sink := ⟨[], limit⟩

/-- What is seen of the first bytes of a text.  A character that is cut in the middle is seen as
the replacement character. -/
def firstBytes : Nat → Text → Text
  | _, [] => []
  | 0, _ => []
  | n + 1, c :: r =>
    if c.utf8Size ≤ n + 1 then c :: firstBytes (n + 1 - c.utf8Size) r else ['\ufffd']

/-- Write a text as far as it is accepted, and say whether it was accepted to its end. -/
def write (t : Text) (s : Sink) : Bool × Sink :=
  match s.room with
  | none => (true, ⟨s.written ++ t, none⟩)
  | some n =>
    if Text.byteLength t ≤ n then (true, ⟨s.written ++ t, some (n - Text.byteLength t)⟩)
    else (false, ⟨s.written ++ firstBytes n t, some 0⟩)

end Sink

/-- An event between a session and the world outside. -/
inductive Event where
  /-- The terminal was read. -/
  | read
  /-- The sink refused a text or the end of it. -/
  | refused
  /-- The gateway was asked something. -/
  | asked (request : Request)
  /-- The result of a query was opened, to be shown in a mode. -/
  | opened (mode : ResultMode)
  /-- A batch of rows was asked for; whether one came. -/
  | fetched (delivered : Bool)
  /-- A result was given up. -/
  | closed
  | dispatched (operation : Operation)
  deriving DecidableEq, Repr

/-- How lines come in. -/
inductive LineSource where
  /-- Lines come from a script, and each is echoed behind its prompt. -/
  | transcript
  /-- Lines come from a line editor, which has shown the prompt before and can clear the screen. -/
  | editor
  deriving DecidableEq, Repr

/-- The terminal side of a session. -/
structure Console where
  sink : Sink
  /-- Whether texts carry colours. -/
  styled : Bool
  lines : LineSource
  interrupts : Interrupts := {}
  /-- The statements that can be recalled, in the order in which they were read. -/
  history : List Text := []
  /-- What happened, in its order. -/
  journal : List Event := []

/-- What the client does at the console: it may stop, and leaves the console changed even then. -/
abbrev ConsoleM := ExceptT Stop (StateM Console)

namespace Console

/-- A console that nothing has happened at. -/
def ofSink (sink : Sink) (styled : Bool) (lines : LineSource) : Console :=
  { sink, styled, lines }

def note (e : Event) (c : Console) : Console := { c with journal := c.journal ++ [e] }

/-- Write a text, and say whether it was accepted. -/
def put (t : Text) (c : Console) : Bool × Console :=
  let (accepted, sink) := c.sink.write t
  let c := { c with sink }
  (accepted, if accepted then c else c.note .refused)

/-- What the output says when it accepts nothing more. -/
def sinkFull : Text := "sink is full"

def write (t : Text) : ConsoleM Unit := do
  let (accepted, c) := (← get).put t
  set c
  if !accepted then throw (.failure (.output sinkFull))

def writeLine (t : Text) : ConsoleM Unit := write (t ++ ['\n'])

/-- Write a line if it can be drawn at all. -/
def draw : Except Crash Text → ConsoleM Unit
  | .ok t => writeLine t
  | .error why => throw (.crash why)

def writeInfo (message : Text) : ConsoleM Unit := do
  writeLine (Message.info (← get).styled message)

/-- The number of lines that push the old output off a terminal. -/
def clearLines : Nat := 200

/-- Clear the terminal.  Only a line editor can do so without writing anything. -/
def clear : ConsoleM Unit := do
  match (← get).lines with
  | .transcript => write (List.replicate clearLines '\n')
  | .editor => pure ()

/-- Report a failure.  Nobody is told if that fails too. -/
def report (f : Failure) (verbose : Bool) (c : Console) : Console :=
  (c.put (Message.failure f verbose c.styled ++ ['\n'])).2

/-- Whether a batch came of a fetch. -/
def isBatch : Except GatewayError (Option (List Row)) → Bool
  | .ok (some _) => true
  | _ => false

/-- Ask a source for a batch of rows. -/
def fetch {φ : Type} [ResultSource φ] (token : CancelToken) (source : φ) (c : Console) :
    Except GatewayError (Option (List Row)) × φ × Console :=
  let (answer, source, interrupts) := ResultSource.fetch token source c.interrupts
  (answer, source, { c with interrupts }.note (.fetched (isBatch answer)))

theorem size_fetch_lt {φ : Type} [ResultSource φ] {token : CancelToken} {s next : φ}
    {c d : Console} {batch : List Row} (h : c.fetch token s = (.ok (some batch), next, d)) :
    ResultSource.size next < ResultSource.size s := by
  unfold fetch at h
  simp only [Prod.mk.injEq] at h
  obtain ⟨ha, hn, -⟩ := h
  have hf : ResultSource.fetch token s c.interrupts =
      (.ok (some batch), next, (ResultSource.fetch token s c.interrupts).2.2) := by
    rw [← ha, ← hn]
  exact ResultSource.size_fetch_lt hf

end Console

end SqlConsole
