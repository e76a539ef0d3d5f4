import SqlConsole.Operation
/-!
# Statement sets

Between `BEGIN STATEMENT SET;` and `END;` modifications are collected, and `END;` hands them over
in the order in which they were added.  A set that is not open holds nothing: `StatementSet` has
no other states.
-/

namespace SqlConsole

/-- The statement set of a session: the modifications collected so far, or none where no set is
open. -/
structure StatementSet where
  collected : Option (List Modify)
  deriving DecidableEq, Repr

namespace StatementSet

/-- Why a statement set cannot be begun, added to or ended. -/
inductive Error where
  | alreadyActive
  | notActive
  deriving DecidableEq, Repr

/-- What is wrong, in words. -/
def Error.message : Error → Text
  | alreadyActive => "a statement set is already open, use 'END;' to submit it first"
  | notActive => "no statement set is open, use 'BEGIN STATEMENT SET;' first"

/-- No set is open. -/
def closed : StatementSet := ⟨none⟩

/-- Whether a set is open. -/
def isActive (s : StatementSet) : Bool := s.collected.isSome

/-- The modifications that wait to be submitted. -/
def pending (s : StatementSet) : List Modify := s.collected.getD []

/-- Open a set. -/
def begin (s : StatementSet) : Except Error StatementSet :=
  match s.collected with
  | some _ => .error .alreadyActive
  | none => .ok ⟨some []⟩

def add (s : StatementSet) (m : Modify) : Except Error StatementSet :=
  match s.collected with
  | some ms => .ok ⟨some (ms ++ [m])⟩
  | none => .error .notActive

/-- Close the set and hand its modifications over. -/
def finish (s : StatementSet) : Except Error (List Modify × StatementSet) :=
  match s.collected with
  | some ms => .ok (ms, closed)
  | none => .error .notActive

end StatementSet

end SqlConsole
