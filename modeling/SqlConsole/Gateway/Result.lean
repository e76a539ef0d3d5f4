import SqlConsole.Gateway.Error
import SqlConsole.Interrupt
import SqlConsole.Value
/-!
# What the gateway answers

A statement that is no query is answered with a `TableResult`.  A query is answered with a
`Descriptor`: its columns, how they are to be shown, and a source that hands out the rows batch by
batch until it is exhausted, fails, or is cancelled.  Whatever fetches rows is a `ResultSource`; the
gateways of this library hand out a `RowSource`.
-/

namespace SqlConsole

/-- The answer to a statement. -/
structure TableResult where
  /-- Whether the rows are worth printing; otherwise they only acknowledge the statement. -/
  hasContent : Bool
  schema : Schema
  rows : List Row
  /-- The job that the statement submitted. -/
  job : Option Text
  deriving DecidableEq, Repr

namespace TableResult

/-- The plain acknowledgement. -/
def ok : TableResult := ⟨false, .single "result", [.insert [.string "OK"]], none⟩

/-- Rows under columns. -/
def content (schema : Schema) (rows : List Row) : TableResult := ⟨true, schema, rows, none⟩

def submitted (job : Text) : TableResult :=
  ⟨true, .single "job id", [.insert [.string job]], some job⟩

/-- A single text. -/
def text (column text : Text) : TableResult := content (.single column) [.insert [.string text]]

/-- Names below each other. -/
def names (column : Text) (names : List Text) : TableResult :=
  content (.single column) (names.map fun n => .insert [.string n])

def firstField? (r : TableResult) : Option Value := r.rows.head?.bind (·.values.head?)

end TableResult

/-- What hands out the rows of a query.  It may do whatever it likes with the interrupts of the
time, but it has only so many batches. -/
class ResultSource (φ : Type) where
  /-- The next batch for the statement with a token, or none where the rows are exhausted. -/
  fetch : CancelToken → φ → Interrupts → Except GatewayError (Option (List Row)) × φ × Interrupts
  /-- How many more batches there can be at most. -/
  size : φ → Nat
  size_fetch_lt : ∀ {token : CancelToken} {s next : φ} {i j : Interrupts} {batch : List Row},
    fetch token s i = (.ok (some batch), next, j) → size next < size s

/-- Where the rows of a query come from.  A source that is not made for rehearsals only has
batches. -/
structure RowSource where
  /-- The batches that are left. -/
  batches : List (List Row)
  /-- How many times a batch was asked for. -/
  fetches : Nat := 0
  /-- The number of fetches after which the next one finds its statement cancelled. -/
  cancelAfter : Option Nat := none
  /-- The number of fetches after which the next one fails. -/
  failAfter : Option Nat := none
  deriving DecidableEq, Repr

namespace RowSource

/-- The next batch, or none where the rows are exhausted.  A cancelled statement gets no rows. -/
def fetch (token : CancelToken) (s : RowSource) (i : Interrupts) :
    Except GatewayError (Option (List Row)) × RowSource × Interrupts :=
  let i := if s.cancelAfter = some s.fetches then i.cancel token else i
  let next := { s with fetches := s.fetches + 1 }
  if s.failAfter = some s.fetches then (.error (.execution "connection reset"), next, i)
  else if i.isCancelled token then (.error .cancelled, next, i)
  else match s.batches with
    | [] => (.ok none, next, i)
    | batch :: rest => (.ok (some batch), { next with batches := rest }, i)

/-- How many fetches it takes at most until the rows are exhausted. -/
def size (s : RowSource) : Nat := s.batches.length

theorem size_fetch_lt {token : CancelToken} {s next : RowSource} {i j : Interrupts}
    {batch : List Row} (h : s.fetch token i = (.ok (some batch), next, j)) :
    next.size < s.size := by
  unfold fetch at h
  dsimp only at h
  generalize (if s.cancelAfter = some s.fetches then i.cancel token else i) = k at h
  split at h
  · cases h
  split at h
  · cases h
  split at h
  · cases h
  · next hb =>
    cases h
    simp [size, hb]

/-- All rows that are left, in their order. -/
def collect (token : CancelToken) (s : RowSource) (i : Interrupts) :
    Except GatewayError (List Row) × RowSource × Interrupts :=
  match h : s.fetch token i with
  | (.error e, next, i) => (.error e, next, i)
  | (.ok none, next, i) => (.ok [], next, i)
  | (.ok (some batch), next, i) =>
    have := size_fetch_lt h
    let (rows, next, i) := collect token next i
    (rows.map (batch ++ ·), next, i)
termination_by s.size

end RowSource

instance : ResultSource RowSource where
  fetch := RowSource.fetch
  size := RowSource.size
  size_fetch_lt := RowSource.size_fetch_lt

/-- A query that was started, with a source of some kind behind it. -/
structure Descriptor (φ : Type := RowSource) where
  resultId : Text
  schema : Schema
  /-- How the rows are to be shown. -/
  mode : ResultMode := .table
  /-- The rows arrive one by one. -/
  streaming : Bool := false
  maxColumnWidth : Nat := 30
  source : φ
  deriving DecidableEq, Repr

end SqlConsole
