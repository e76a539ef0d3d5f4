import SqlConsole.Program.Launch
/-!
# The program

The arguments, the files and the standard streams of the process, and nothing else: what is done
with them is decided in `SqlConsole.Program.Launch` and `SqlConsole.Session.Loop`.
-/

namespace SqlConsole.Program

/-- Why the system refused something, in words. -/
def systemReason : IO.Error → Text
  | .noFileOrDirectory _ code details | .inappropriateType _ code details
  | .permissionDenied _ code details | .resourceExhausted _ code details
  | .invalidArgument _ code details | .alreadyExists _ code details =>
    details ++ " (os error " ++ Text.ofNat code.toNat ++ ")"
  | e => e.toString

/-- Do something with the system, or say why it was refused. -/
def attempt {α : Type} (action : IO α) : IO (Except Text α) := do
  match ← action.toBaseIO with
  | .ok a => return .ok a
  | .error e => return .error (systemReason e)

def readFile (path : Text) : IO (Except Text Text) := do
  match ← attempt (IO.FS.readBinFile (String.ofList path)) with
  | .error reason => return .error reason
  | .ok bytes =>
    match String.fromUTF8? bytes with
    | some text => return .ok text.toList
    | none => return .error "stream did not contain valid UTF-8"

def systemFiles : Files IO where
  read := readFile
  openEnd path := attempt (discard (IO.FS.Handle.mk (String.ofList path) .append))
  isThere path := return (← attempt (discard (IO.FS.Handle.mk (String.ofList path) .read))).isOk
  createDirectory path := return (← attempt (IO.FS.createDirAll (String.ofList path))).isOk

/-- Write a text and push it out. -/
def emit (stream : IO.FS.Stream) (t : Text) : IO Unit := do
  stream.putStr (String.ofList t)
  stream.flush

/-- What the next line of the input delivers. -/
def readTerminal (stdin : IO.FS.Stream) : IO TerminalRead := do
  match ← attempt stdin.getLine with
  | .error reason => return .failed reason
  | .ok line =>
    match Text.lines line.toList with
    | [] => return .ended
    | line :: _ => return .line line

/-- Let a console wait for line after line until it is over, and answer with the exit code. -/
partial def converse (stdin stdout : IO.FS.Stream) (progress : Session.Progress Local) :
    IO UInt32 := do
  match progress with
  | .over outcome s =>
    emit stdout s.console.sink.written
    return (consoleCode outcome).toUInt32
  | .waiting kept s =>
    emit stdout s.console.sink.written
    let s := { s with console := { s.console with sink := .unlimited } }
    converse stdin stdout (Session.feed .standard kept (← readTerminal stdin) s)

/-- Run the program with arguments, and answer with its exit code. -/
def main (arguments : List String) : IO UInt32 := do
  let stdout ← IO.getStdout
  let stderr ← IO.getStderr
  let env : Environment :=
    { home := (← IO.getEnv "HOME").map String.toList, styled := ← stdout.isTty }
  match ← start systemFiles env (arguments.map String.toList) with
  | .exited code output errors =>
    emit stdout output
    emit stderr errors
    return code.toUInt32
  | .opened progress errors =>
    emit stderr errors
    converse (← IO.getStdin) stdout progress

end SqlConsole.Program

/-- The entry point. -/
def main (arguments : List String) : IO UInt32 := SqlConsole.Program.main arguments
