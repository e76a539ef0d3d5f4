import SqlConsole.Text.Basic
/-!
# Interrupts

A statement that runs can be asked to give up.  The request is made on the statement's token; the
token stays cancelled from then on.  An interrupt goes to at most one handler.  While a statement
runs the handler cancels its token, and afterwards the handler that was there before is put back.

`Interrupts` holds all of this as a value: the handler, the state of every token in the order in
which the tokens were made, the names that handlers have noted, and what became of every interrupt.
-/

namespace SqlConsole

/-- A cancellation request that can be made on a statement; the number of tokens made before. -/
abbrev CancelToken := Nat

/-- Who is told of an interrupt. -/
inductive Handler where
  /-- The statement with this token is asked to give up. -/
  | cancel (token : CancelToken)
  | note (name : Text)
  deriving DecidableEq, Repr

/-- The state of interrupt handling. -/
structure Interrupts where
  /-- Who is told of the next interrupt. -/
  handler : Option Handler := none
  /-- For every token whether it is cancelled. -/
  cancelled : List Bool := []
  /-- The names that were noted. -/
  heard : List Text := []
  /-- For every interrupt so far whether there was anybody to tell. -/
  raised : List Bool := []
  deriving DecidableEq, Repr

namespace Interrupts

/-- Make a token that is not cancelled. -/
def newToken (s : Interrupts) : CancelToken × Interrupts :=
  (s.cancelled.length, { s with cancelled := s.cancelled ++ [false] })

def cancel (token : CancelToken) (s : Interrupts) : Interrupts :=
  { s with cancelled := s.cancelled.set token true }

def isCancelled (s : Interrupts) (token : CancelToken) : Bool :=
  s.cancelled[token]?.getD false

/-- Put a handler, or none, in the place of the present one, which is handed back. -/
def replace (handler : Option Handler) (s : Interrupts) : Option Handler × Interrupts :=
  (s.handler, { s with handler })

/-- Let interrupts cancel a token from now on.  The handler of before is handed back, for
`restore`. -/
def install (token : CancelToken) (s : Interrupts) : Option Handler × Interrupts :=
  s.replace (some (.cancel token))

/-- Put the handler of before back. -/
def restore (previous : Option Handler) (s : Interrupts) : Interrupts := (s.replace previous).2

/-- Deliver an interrupt, and say whether there was anybody to tell. -/
def raise (s : Interrupts) : Bool × Interrupts :=
  let told := s.handler.isSome
  let s := { s with raised := s.raised ++ [told] }
  match s.handler with
  | none => (told, s)
  | some (.cancel token) => (told, s.cancel token)
  | some (.note name) => (told, { s with heard := s.heard ++ [name] })

end Interrupts

end SqlConsole
