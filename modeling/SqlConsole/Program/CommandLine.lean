import SqlConsole.Console.Message
/-!
# The command line

What the program is asked to do by its arguments.  Options that take a value take it from the next
argument, or from the same one: `--file x`, `--file=x`, `-f x`, `-fx` and `-f=x` are the same.
Options of one letter can be put together.  An argument that begins with `-` is never a value,
unless it is `-` alone.  Arguments are read from the left, and the first mistake, request for help
or request for the version decides.
-/

namespace SqlConsole

/-- What a run of the program is asked to do. -/
structure Options where
  /-- A file that is run first. -/
  init : Option Text := none
  /-- A script that is run instead of a console. -/
  file : Option Text := none
  /-- Where the statements of the console are kept. -/
  history : Option Text := none
  /-- Defaults of session properties; of two for one key the later counts. -/
  define : List (Text × Text) := []
  /-- Show failures with all their causes. -/
  verbose : Bool := false
  logFile : Option Text := none
  deriving DecidableEq, Repr

/-- What the arguments come to. -/
inductive Invocation where
  | run (options : Options)
  | help
  | version
  /-- The arguments make no sense. -/
  | misuse
  deriving DecidableEq, Repr

namespace CommandLine

/-- The options that take a value. -/
inductive ValueOption where
  | init | file | history | define | logFile
  deriving DecidableEq, Repr

/-- The options that stand alone. -/
inductive Switch where
  | verbose | help | version
  deriving DecidableEq, Repr

/-- An option of either kind. -/
inductive Flag where
  | value (o : ValueOption)
  | switch (s : Switch)
  deriving DecidableEq, Repr

def long? (name : Text) : Option Flag :=
  ([("init", .value .init), ("file", .value .file), ("history", .value .history),
    ("define", .value .define), ("log-file", .value .logFile), ("verbose", .switch .verbose),
    ("help", .switch .help), ("version", .switch .version)] : List (Text × Flag)).lookup name

def short? (letter : Char) : Option Flag :=
  ([('i', .value .init), ('f', .value .file), ('D', .value .define), ('v', .switch .verbose),
    ('h', .switch .help), ('V', .switch .version)] : List (Char × Flag)).lookup letter

/-- What reading an argument comes to. -/
inductive Step where
  | options (o : Options)
  /-- The next argument is the value of an option. -/
  | wanting (option : ValueOption) (o : Options)
  /-- The other arguments do not matter. -/
  | stop (result : Invocation)
  deriving DecidableEq, Repr

/-- The key and the value of a definition `key=value`, without the blanks around them. -/
def definition? (t : Text) : Option (Text × Text) :=
  match Text.cutFirst? '=' t with
  | some (key, value) =>
    if (Text.trim key).isEmpty then none else some (Text.trim key, Text.trim value)
  | none => none

/-- A path for an option that was given none before. -/
def path (before : Option Text) (value : Text) (put : Text → Options) : Step :=
  if before.isSome || value.isEmpty then .stop .misuse else .options (put value)

def give (option : ValueOption) (value : Text) (o : Options) : Step :=
  match option with
  | .init => path o.init value fun p => { o with init := some p }
  | .file => path o.file value fun p => { o with file := some p }
  | .history => path o.history value fun p => { o with history := some p }
  | .logFile => path o.logFile value fun p => { o with logFile := some p }
  | .define =>
    match definition? value with
    | some d => .options { o with define := o.define ++ [d] }
    | none => .stop .misuse

/-- Take an option that stands alone. -/
def turn (s : Switch) (o : Options) : Step :=
  match s with
  | .verbose => if o.verbose then .stop .misuse else .options { o with verbose := true }
  | .help => .stop .help
  | .version => .stop .version

/-- Take the letters behind a `-`. -/
def letters (o : Options) : Text → Step
  | [] => .options o
  | c :: rest =>
    match short? c, rest with
    | none, _ => .stop .misuse
    | some (.switch s), _ =>
      match turn s o with
      | .options o => letters o rest
      | step => step
    | some (.value option), [] => .wanting option o
    | some (.value option), '=' :: value => give option value o
    | some (.value option), value => give option value o

/-- Take the text behind a `--`. -/
def word (o : Options) (t : Text) : Step :=
  let (name, value) := match Text.cutFirst? '=' t with
    | some (name, value) => (name, some value)
    | none => (t, none)
  match long? name, value with
  | some (.value option), none => .wanting option o
  | some (.value option), some value => give option value o
  | some (.switch s), none => turn s o
  | some (.switch _), some _ | none, _ => .stop .misuse

/-- Take the arguments, the first of which may be the value of an option. -/
def take (wanting : Option ValueOption) (o : Options) : List Text → Invocation
  | [] => if wanting.isSome then .misuse else .run o
  | argument :: rest =>
    let step : Step := match wanting, argument with
      | some _, '-' :: _ :: _ => .stop .misuse
      | some option, value => give option value o
      | none, ['-', '-'] => .stop (if rest.isEmpty then .run o else .misuse)
      | none, '-' :: '-' :: t => word o t
      | none, '-' :: c :: t => letters o (c :: t)
      | none, _ => .stop .misuse
    match step with
    | .options o => take none o rest
    | .wanting option o => take (some option) o rest
    | .stop result => result

/-- What the arguments of the program come to. -/
def parse (arguments : List Text) : Invocation := take none {} arguments

/-- The version that the program says it has. -/
def version : Text := Message.programName ++ " 0.1.0\n"

/-- How the program is used. -/
def usage : Text :=
  "Command-line SQL client

Usage: sqlcli [OPTIONS]

Options:
  -i, --init <INIT>          SQL file run before anything else to set up the session
  -f, --file <FILE>          SQL script to run instead of the interactive console
      --history <HISTORY>    Command history file [default: ~/.sqlcli_history]
  -D, --define <KEY=VALUE>   Session property default, as KEY=VALUE. Repeatable
  -v, --verbose              Show the whole error chain for failed statements
      --log-file <LOG_FILE>  Write logs to this file instead of stderr
  -h, --help                 Print help
  -V, --version              Print version
"

/-- What is said where the arguments make no sense. -/
def misuse : Text := "error: unexpected arguments

Usage: sqlcli [OPTIONS]

For more information, try '--help'.
"

end CommandLine

end SqlConsole
