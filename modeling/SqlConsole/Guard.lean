import SqlConsole.Operation
import SqlConsole.Property
/-!
# What may run where

A session runs in one of three modes.  `Guard.check` says whether an operation may run in a mode,
given the properties of the session and whether a statement set is open.  The first rule that is
broken is the one that is named.
-/

namespace SqlConsole

/-- What a session is for. -/
inductive Mode where
  /-- Somebody types the statements. -/
  | interactive
  /-- The statements come from a script. -/
  | nonInteractive
  /-- The statements come from an initialization file. -/
  | initialization
  deriving DecidableEq, Repr

/-- Whether the first failure ends a session. -/
def Mode.exitsOnFailure : Mode → Bool
  | .interactive => false
  | .nonInteractive | .initialization => true

/-- Why an operation may not run. -/
inductive Denial where
  /-- Initialization files may not do this. -/
  | notForInitialization (summary : Text)
  /-- Scripts show query results as tableaus only. -/
  | queryNeedsTableau (current : ResultMode)
  /-- Only modifications go into a statement set. -/
  | notForStatementSet
  | noOpenStatementSet
  deriving DecidableEq, Repr

/-- Why an operation may not run, in words. -/
def Denial.message : Denial → Text
  | notForInitialization summary => "Unsupported operation in sql init file: " ++ summary
  | queryNeedsTableau current =>
    "In non-interactive mode, queries can only be executed with result mode TABLEAU, but '" ++
    Setting.resultMode.key ++ "' is " ++ current.name ++ ". Please add SET '" ++
    Setting.resultMode.key ++ "' = 'tableau'; to the sql file."
  | notForStatementSet => "Only INSERT statement is allowed in Statement Set."
  | noOpenStatementSet =>
    "No Statement Set to submit, 'END;' command should be used after 'BEGIN STATEMENT SET;'."

/-- The kinds of operations that may run in an initialization file: they prepare the session and
move no data. -/
def Operation.Kind.isPreparation : Operation.Kind → Bool
  | .set | .reset | .create | .drop | .use | .alter | .loadModule | .unloadModule | .addJar
  | .removeJar => true
  | _ => false

/-- The kinds of operations that may run while a statement set is open. -/
def Operation.Kind.isForStatementSet : Operation.Kind → Bool
  | .insert | .createTableAs | .endStatementSet => true
  | _ => false

namespace Guard

/-- Whether a mode lets an operation run. -/
def checkMode (op : Operation) (mode : Mode) (properties : Properties) : Except Denial Unit :=
  match mode with
  | .interactive => .ok ()
  | .initialization =>
    if op.kind.isPreparation then .ok () else .error (.notForInitialization op.summary)
  | .nonInteractive =>
    let current := Setting.resultMode.get properties
    if op.kind = .query ∧ current ≠ .tableau then .error (.queryNeedsTableau current) else .ok ()

/-- Whether an operation may run now. -/
def check (op : Operation) (mode : Mode) (properties : Properties) (setOpen : Bool) :
    Except Denial Unit := do
  checkMode op mode properties
  if setOpen && !op.kind.isForStatementSet then throw .notForStatementSet

end Guard

end SqlConsole
