import SqlConsole.Console.Basic
import SqlConsole.Script
/-!
# Reading statements

A statement is read line by line.  The lines are kept together until they make up one or more
complete statements, or nothing at all because they hold only blanks and comments: `Reading.addLine`
decides.  `Console.take` does so at a console, where a line is echoed first, and where an interrupt
or the end of the input can come instead of a line.
-/

namespace SqlConsole

/-- What the lines that were read make up. -/
inductive Reading where
  /-- A part of a statement; these are its lines. -/
  | incomplete (lines : Text)
  /-- Nothing to run. -/
  | blank
  /-- One or more statements, and the lines that spell them. -/
  | complete (lines first : Text) (others : List Text)
  deriving DecidableEq, Repr

/-- What a line makes up with the lines that were kept before it. -/
def Reading.addLine (isComplete : Text → Bool) (kept line : Text) : Reading :=
  let lines := kept ++ line ++ ['\n']
  match Script.split lines with
  | [] => .blank
  | first :: others => if isComplete lines then .complete lines first others else .incomplete lines

/-- What a read from the terminal delivers. -/
inductive TerminalRead where
  | line (text : Text)
  /-- The user interrupted the line. -/
  | interrupted
  /-- The input is broken. -/
  | failed (reason : Text)
  /-- The input is over. -/
  | ended
  deriving DecidableEq, Repr

/-- What came of a read from the terminal. -/
inductive ReadOutcome where
  | read (reading : Reading)
  /-- The user interrupted the statement, and its lines are forgotten. -/
  | interrupted
  /-- The input is broken, or the line could not be echoed. -/
  | failed (reason : Text)
  /-- The input is over. -/
  | ended
  deriving DecidableEq, Repr

namespace Console

/-- What stands before the second line of a statement and all later ones: a mark at the end of the
width of the prompt. -/
def continuation (prompt : Text) : Text := Text.padStart prompt.length "> "

/-- What stands before the next line, given the lines that were kept. -/
def promptFor (prompt kept : Text) : Text := if kept.isEmpty then prompt else continuation prompt

/-- Ask for a line, and say whether that was possible.  A line editor shows the prompt at once. -/
def awaitLine (prompt kept : Text) (c : Console) : Bool × Console :=
  let c := c.note .read
  match c.lines with
  | .transcript => (true, c)
  | .editor => c.put (Message.styledPrompt c.styled (promptFor prompt kept))

/-- Echo a line, and say whether that was possible.  A line editor has shown it already. -/
def echoLine (prompt kept line : Text) (c : Console) : Bool × Console :=
  match c.lines with
  | .transcript => c.put (promptFor prompt kept ++ line ++ ['\n'])
  | .editor => (true, c)

/-- Keep complete statements for recall. -/
def remember (reading : Reading) (c : Console) : Console :=
  match reading with
  | .complete lines _ _ => { c with history := c.history ++ [Text.trim lines] }
  | .incomplete _ | .blank => c

/-- Take what the terminal delivers, given the lines that were kept. -/
def take (isComplete : Text → Bool) (prompt kept : Text) (read : TerminalRead) (c : Console) :
    ReadOutcome × Console :=
  match read with
  | .ended => (.ended, c)
  | .failed reason => (.failed reason, c)
  | .interrupted => (.interrupted, c)
  | .line line =>
    match c.echoLine prompt kept line with
    | (false, c) => (.failed sinkFull, c)
    | (true, c) =>
      let reading := Reading.addLine isComplete kept line
      (.read reading, c.remember reading)

end Console

end SqlConsole
