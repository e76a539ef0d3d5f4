import SqlConsole.Failure
/-!
# Messages

The fixed texts of the client, and how informations and failures are laid out.  A styled text
carries the escape sequences of a colour terminal.
-/

namespace SqlConsole.Message

def programName : Text := "sqlcli"

/-- What stands before the first line of a statement. -/
def prompt : Text := "sqlcli> "

/-- What a console session begins with. -/
def welcome : Text :=
  "Welcome! Enter 'HELP;' to list all available commands. 'QUIT;' to exit.

Command history file path and session properties can be changed with the
--history and -D options.
"

/-- The commands that `HELP` lists. -/
def help : Text :=
  "The following commands are available:

CLEAR                 Clears the current terminal.
HELP                  Prints the available commands.
QUIT/EXIT             Quits the SQL CLI client.
RESET                 Resets a session configuration property. Syntax: 'RESET '<key>';'. Use 'RESET;' for reset all session properties.
SET                   Sets a session configuration property. Syntax: 'SET '<key>'='<value>';'. Use 'SET;' for listing all properties.
ADD JAR               Adds the specified jar file to the session. Syntax: 'ADD JAR '<path_to_filename>.jar';'
REMOVE JAR            Removes the specified jar file from the session. Syntax: 'REMOVE JAR '<path_to_filename>.jar';'
BEGIN STATEMENT SET   Begins a statement set. Syntax: 'BEGIN STATEMENT SET;'
END                   Ends a statement set and submits it. Syntax: 'END;'
STOP JOB              Stops a job. Syntax: 'STOP JOB '<job_id>' [WITH SAVEPOINT] [WITH DRAIN];'

Hint: Make sure that a statement ends with ';' for finalizing (multi-line) statements.
You can also type any SQL statement, please visit the SQL documentation for more details."

def quit : Text := "Exiting sqlcli..."

def propertySet : Text := "Session property has been set."

def noProperties : Text := "Result was empty."

def propertyReset : Text := "Session property has been reset."

def propertiesReset : Text := "All session properties have been set to their default values."

def addedToSet : Text := "Add SQL update statement to the statement set."

def submitting : Text := "Submitting SQL update statement to the cluster..."

def waiting : Text :=
  "Execute statement in sync mode. Please wait for the execution finish..."

def finished : Text := "Complete execution of the SQL update statement."

def submitted : Text := "SQL update statement has been successfully submitted to the cluster:"

def resultQuit : Text := "Result retrieval cancelled."

def setBegun : Text := "Begin a statement set."

def emptySet : Text := "No statement in the statement set, skip submit."

def jarRemoved : Text := "The specified jar is removed from session classloader."

def jobStopped : Text := "The specified job is stopped."

def jobStoppedWithSavepoint (path : Text) : Text :=
  "The specified job is stopped with savepoint " ++ path ++ "."

def executed : Text := "Execute statement succeed."

def executingFile : Text := "Executing SQL from file."

def inputClosed (reason : Text) : Text := "Input channel closed: " ++ reason

def statementFailed : Text := "Could not execute SQL statement."

def internalError : Text := "Internal error, this is a bug in sqlcli."

/-! ## Layout -/

/-- A text in a style of a colour terminal, and nothing of the style behind it. -/
def paint (style t : Text) : Text := "\x1b[" ++ style ++ "m" ++ t ++ "\x1b[0m"

/-- A text in a style where styles are wanted, and the plain text elsewhere. -/
def paintIf (styled : Bool) (style t : Text) : Text := if styled then paint style t else t

/-- An information: its mark is bold and blue. -/
def info (styled : Bool) (message : Text) : Text :=
  paintIf styled "1;34" "[INFO]" ++ " " ++ message

/-- The headline of a failure: its mark is bold and red, and the rest red. -/
def errorHeader (styled : Bool) (message : Text) : Text :=
  paintIf styled "1;31" "[ERROR]" ++ " " ++ paintIf styled "31" message

/-- A prompt is bold and green. -/
def styledPrompt (styled : Bool) (prompt : Text) : Text := paintIf styled "1;32" prompt

/-- A failure as it is reported: all its messages where the session is verbose, and only the last
one elsewhere. -/
def failure (f : Failure) (verbose styled : Bool) : Text :=
  let header := if f.isInternal then internalError else statementFailed
  let reason :=
    if verbose then f.message ++ f.causes.flatMap fun c => ("\nCaused by: " : Text) ++ c
    else f.rootMessage
  errorHeader styled header ++ " Reason:\n" ++ reason

end SqlConsole.Message
