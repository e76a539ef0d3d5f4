import SqlConsole.Files.Basic
import SqlConsole.Gateway.Local
import SqlConsole.Program.CommandLine
import SqlConsole.Session.Loop
/-!
# Starting the program

From the arguments to a run script or an open console.  An initialization file runs first, and its
output is not shown.  A script then runs to its end; without one a console is opened, which waits
for lines.
-/

namespace SqlConsole.Program

/-- What the program finds where it is started. -/
structure Environment where
  /-- The directory of the user. -/
  home : Option Text
  styled : Bool
  deriving DecidableEq, Repr

/-- What has become of the program. -/
inductive Launch where
  /-- It is over, with an exit code and with what it wrote. -/
  | exited (code : Nat) (output errors : Text)
  /-- A console is open, and complaints were written. -/
  | opened (progress : Session.Progress Local) (errors : Text)

/-- The name of the file in which the statements of consoles are kept. -/
def historyName : Text := ".sqlcli_history"

/-- Where the statements of the console are kept. -/
def historyPath (o : Options) (env : Environment) : Text :=
  o.history.getD (Files.inDirectory (env.home.getD []) historyName)

def defaults (o : Options) : Properties :=
  let defined := o.define.foldl (fun p (key, value) => p.insert key value) (∅ : Properties)
  if o.verbose then defined.insert Setting.verbose.key "true" else defined

/-- What is said where a log file cannot be written. -/
def logComplaint (path reason : Text) : Text :=
  "Could not open log file " ++ path ++ ": " ++ reason ++ "\n"

/-- What is said where a script cannot be read. -/
def readComplaint (path reason : Text) : Text :=
  "Could not read SQL file " ++ path ++ ": " ++ reason ++ "\n"

/-- What is said where an initialization file failed. -/
def initComplaint (path : Text) : Text :=
  "Could not execute initialization file " ++ path ++ "\n"

def runScript (content errors : Text) (g : Local) : Launch :=
  let console := Console.ofSink .unlimited false .transcript
  let ending := Session.runFile .standard content (.start g console .nonInteractive)
  .exited ending.outcome.exitCode ending.session.console.sink.written errors

/-- What a console says about the file in which its statements are kept. -/
def historyLine (path : Text) (isThere : Bool) : Text :=
  (if isThere then "Command history file path: " else "Unable to create history file: ") ++ path ++
    "\n"

def openConsole (path : Text) (historyIsThere styled : Bool) (errors : Text) (g : Local) : Launch :=
  let console := Console.ofSink .unlimited styled .editor
  let (_, console) := console.put ("\n" ++ Message.welcome ++ historyLine path historyIsThere)
  .opened (Session.proceed .standard [] (.start g console .interactive)) errors

/-- The exit code behind a console.  Failures of statements leave no trace in it. -/
def consoleCode : Outcome → Nat
  | .success | .failure => 0
  | .crash why => (Outcome.crash why).exitCode

section

variable {m : Type → Type} [Monad m]

/-- Make sure that a file is there, in a directory that may have to be created. -/
def prepareHistory (files : Files m) (path : Text) : m Bool := do
  if ← files.isThere path then return true
  let directory := Files.directoryOf path
  let directoryIsThere ← if directory.isEmpty then pure true else files.createDirectory directory
  if !directoryIsThere then return false
  match ← files.openEnd path with
  | .ok () => return true
  | .error _ => return false

/-- Open the log file, and say what is wrong with it. -/
def openLog (files : Files m) (o : Options) : m Text := do
  match o.logFile with
  | none => return []
  | some path =>
    match ← files.openEnd path with
    | .ok () => return []
    | .error reason => return logComplaint path reason

/-- Run the script, or open a console where there is none. -/
def launch (files : Files m) (env : Environment) (o : Options) (errors : Text) (g : Local) :
    m Launch := do
  match o.file with
  | some path =>
    match ← files.read path with
    | .ok content => return runScript content errors g
    | .error reason => return .exited 1 [] (errors ++ readComplaint path reason)
  | none =>
    let path := historyPath o env
    return openConsole path (← prepareHistory files path) env.styled errors g

def startWith (files : Files m) (env : Environment) (o : Options) : m Launch := do
  let errors ← openLog files o
  let g := Local.ofDefaults (defaults o) Local.defaultSavepointDir {}
  match o.init with
  | none => launch files env o errors g
  | some path =>
    match ← files.read path with
    | .error reason => return .exited 1 [] (errors ++ readComplaint path reason)
    | .ok content =>
      let ending := Session.runInitialization .standard content g
      match ending.outcome with
      | .success => launch files env o errors ending.session.gateway
      | .failure => return .exited Outcome.failure.exitCode [] (errors ++ initComplaint path)
      | .crash why => return .exited (Outcome.crash why).exitCode [] errors

def start (files : Files m) (env : Environment) (arguments : List Text) : m Launch :=
  match CommandLine.parse arguments with
  | .run o => startWith files env o
  | .help => return .exited 0 CommandLine.usage []
  | .version => return .exited 0 CommandLine.version []
  | .misuse => return .exited 2 [] CommandLine.misuse

end

end SqlConsole.Program
