import SqlConsole.Failure
/-!
# Crashes

Some computations of the client have no answer at all: a sum that no word of the machine holds,
room for more characters than there can be, a text filled up further than texts can be.  The client
does not get over them.  Whatever was running is left on the spot, nothing is reported, and the
process dies; only what has to be released is released on the way out.
-/

namespace SqlConsole

/-- A computation without an answer. -/
inductive Crash where
  /-- The sum does not fit into a word. -/
  | sum
  /-- There is no room for so many characters. -/
  | room
  /-- No text can be filled up so far. -/
  | fill
  deriving DecidableEq, Repr

/-- What ends a statement before its end. -/
inductive Stop where
  | failure (f : Failure)
  | crash (why : Crash)
  deriving DecidableEq, Repr

/-- How a session ends. -/
inductive Outcome where
  /-- No failure ended it. -/
  | success
  | failure
  | crash (why : Crash)
  deriving DecidableEq, Repr

/-- The exit code of a process that ends so. -/
def Outcome.exitCode : Outcome → Nat
  | success => 0
  | failure => 1
  | crash _ => 101

end SqlConsole
