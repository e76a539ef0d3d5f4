import SqlConsole.Proofs.Gateway.InPlace
/-!
# What a query hands out

A source hands out its batches one after the other (`RowSource.Delivers`), and never more than it
has: what was delivered is the beginning of its batches.  If nothing cancels its statement and it
is not made to fail, all of its rows are collected (`collect_of_plain`).

A query that is answered has the columns of the answer, and a source with its rows: all of them in
one batch, or each in a batch of its own where rows arrive one by one (`query_of_answer`).
-/

namespace SqlConsole

namespace RowSource

variable {token : CancelToken} {s next : RowSource} {i j : Interrupts} {batch : List Row}
  {batches : List (List Row)}

/-- What a source hands out in some fetches for a statement, whatever interrupts there are between
them. -/
inductive Delivers (token : CancelToken) : RowSource → List (List Row) → Prop
  | nil (s : RowSource) : Delivers token s []
  | cons {s next : RowSource} {i j : Interrupts} {batch : List Row} {batches : List (List Row)}
      (hfetch : s.fetch token i = (.ok (some batch), next, j))
      (hrest : Delivers token next batches) : Delivers token s (batch :: batches)

/-- A batch that is delivered is the first of those that were left. -/
theorem batches_of_fetch (h : s.fetch token i = (.ok (some batch), next, j)) :
    s.batches = batch :: next.batches := by
  unfold fetch at h
  dsimp only at h
  generalize (if s.cancelAfter = some s.fetches then i.cancel token else i) = k at h
  split at h
  · cases h
  split at h
  · cases h
  split at h
  · cases h
  next hbatches =>
    cases h
    exact hbatches

/-- Nothing is delivered but the batches of the source, from the first one on. -/
theorem Delivers.prefix_batches (h : s.Delivers token batches) : batches <+: s.batches := by
  induction h with
  | nil s => exact List.nil_prefix
  | cons hfetch hrest ih =>
    rw [batches_of_fetch hfetch]
    exact List.cons_prefix_cons.2 ⟨rfl, ih⟩

/-- A source that is not made for rehearsals hands out a batch where it has one. -/
theorem fetch_of_plain (hcancel : s.cancelAfter = none) (hfail : s.failAfter = none)
    (hi : i.isCancelled token = false) :
    s.fetch token i = (.ok s.batches.head?,
      { s with batches := s.batches.tail, fetches := s.fetches + 1 }, i) := by
  obtain ⟨batches, fetches, cancelAfter, failAfter⟩ := s
  obtain rfl : cancelAfter = none := hcancel
  obtain rfl : failAfter = none := hfail
  cases batches with
  | nil =>
    have hfetch : fetch token ⟨[], fetches, none, none⟩ i =
        if i.isCancelled token then (.error .cancelled, ⟨[], fetches + 1, none, none⟩, i)
        else (.ok none, ⟨[], fetches + 1, none, none⟩, i) := rfl
    rw [hfetch, hi]
    rfl
  | cons batch rest =>
    have hfetch : fetch token ⟨batch :: rest, fetches, none, none⟩ i =
        if i.isCancelled token then
          (.error .cancelled, ⟨batch :: rest, fetches + 1, none, none⟩, i)
        else (.ok (some batch), ⟨rest, fetches + 1, none, none⟩, i) := rfl
    rw [hfetch, hi]
    rfl

/-- A batch is put in front of what is collected behind it. -/
theorem collect_of_fetch (h : s.fetch token i = (.ok (some batch), next, j)) :
    (s.collect token i).1 = (next.collect token j).1.map (batch ++ ·) := by
  rw [collect]
  split
  · next hother => cases h.symm.trans hother
  · next hother => cases h.symm.trans hother
  · next hsame =>
    cases h.symm.trans hsame
    rfl

theorem collect_of_fetch_error {e : GatewayError} (h : s.fetch token i = (.error e, next, j)) :
    (s.collect token i).1 = .error e := by
  rw [collect]
  split
  · next hother =>
    cases h.symm.trans hother
    rfl
  · next hother => cases h.symm.trans hother
  · next hother => cases h.symm.trans hother

theorem collect_of_fetch_none (h : s.fetch token i = (.ok none, next, j)) :
    (s.collect token i).1 = .ok [] := by
  rw [collect]
  split
  · next hother => cases h.symm.trans hother
  · rfl
  · next hother => cases h.symm.trans hother

/-- **All rows are collected** unless the statement is cancelled. -/
theorem collect_of_plain (hcancel : s.cancelAfter = none) (hfail : s.failAfter = none)
    (hi : i.isCancelled token = false) : (s.collect token i).1 = .ok s.batches.flatten := by
  induction hbatches : s.batches generalizing s with
  | nil =>
    have hfetch := fetch_of_plain hcancel hfail hi
    rw [hbatches] at hfetch
    exact collect_of_fetch_none hfetch
  | cons batch rest ih =>
    have hfetch := fetch_of_plain hcancel hfail hi
    rw [hbatches] at hfetch
    have hrest : (RowSource.collect token ⟨rest, s.fetches + 1, s.cancelAfter, s.failAfter⟩ i).1 =
        .ok rest.flatten := ih hcancel hfail rfl
    rw [collect_of_fetch hfetch]
    exact congrArg (Except.map (batch ++ ·)) hrest

end RowSource

namespace Local

variable {g : Local} {statement : Text} {schema : Schema} {rows : List Row} {d : Descriptor}
  {token : CancelToken} {i : Interrupts}

/-- The source of a query's rows. -/
def sourceOf (streaming : Bool) (rows : List Row) : RowSource where
  batches := if streaming then rows.map ([·]) else [rows]

/-- One by one or all at once, the rows are the same. -/
theorem flatten_batches_sourceOf (streaming : Bool) (rows : List Row) :
    (sourceOf streaming rows).batches.flatten = rows := by
  cases streaming with
  | false => exact List.append_nil rows
  | true =>
    show (rows.map ([·])).flatten = rows
    rw [← List.flatMap_def, List.flatMap_singleton']

/-- A query that is answered is described: its columns, its rows, and whether they arrive one by
one. -/
theorem query_of_answer (h : g.answerQuery statement = .ok (schema, rows)) :
    ∃ d : Descriptor, g.query statement = .ok (d, { g with queries := g.queries + 1 }) ∧
      d.schema = schema ∧
      d.streaming = decide (Setting.runtimeMode.get g.properties = .streaming) ∧
      d.source = sourceOf d.streaming rows := by
  unfold query
  rw [h]
  exact ⟨_, rfl, rfl, rfl, by simp [sourceOf]⟩

/-- A query that was started was answered. -/
theorem exists_answer_of_query {g' : Local} (h : g.query statement = .ok (d, g')) :
    ∃ rows, g.answerQuery statement = .ok (d.schema, rows) ∧
      d.source = sourceOf d.streaming rows := by
  cases hanswer : g.answerQuery statement with
  | error e =>
    unfold query at h
    rw [hanswer] at h
    cases h
  | ok found =>
    obtain ⟨schema, rows⟩ := found
    obtain ⟨d', hd', hschema, -, hsource⟩ := query_of_answer hanswer
    obtain ⟨rfl, -⟩ := Prod.mk.inj (Except.ok.inj (h.symm.trans hd'))
    exact ⟨rows, by rw [hschema], hsource⟩

/-- A query that can be answered is started, unless its statement is cancelled. -/
theorem exists_handle_of_answer (hi : i.isCancelled token = false)
    (h : g.answerQuery statement = .ok (schema, rows)) :
    ∃ d : Descriptor, handle (.query statement) token g i =
        (.ok d, { g with queries := g.queries + 1 }, i) ∧
      d.schema = schema ∧
      d.streaming = decide (Setting.runtimeMode.get g.properties = .streaming) ∧
      d.source = sourceOf d.streaming rows := by
  obtain ⟨d, hquery, hd⟩ := query_of_answer h
  refine ⟨d, ?_, hd⟩
  rw [handle_query_of_not_cancelled (by rw [hi]; exact Bool.false_ne_true), hquery]
  rfl

/-- Literals are answered as they are planned. -/
theorem answerQuery_of_literal (h : Query.plan statement = .ok (.literal schema rows))
    (g : Local) : g.answerQuery statement = .ok (schema, rows) := by
  rw [answerQuery, h]
  rfl

/-- A request for a query that succeeds has started it. -/
theorem exists_query_of_handle (h : (handle (.query statement) token g i).1 = .ok d) :
    ∃ g', g.query statement = .ok (d, g') := by
  by_cases hcancelled : i.isCancelled token
  · rw [handle_query_of_cancelled hcancelled] at h
    cases h
  · rw [handle_query_of_not_cancelled hcancelled] at h
    cases hquery : g.query statement with
    | error e =>
      rw [hquery] at h
      cases h
    | ok found =>
      rw [hquery] at h
      cases h
      exact ⟨found.2, rfl⟩

end Local

end SqlConsole
