import SqlConsole.Proofs.Console.Printed
import SqlConsole.Proofs.Tableau.Drawing
/-!
# A result is given up once, and last

A source hands out batches until it is exhausted, finds its statement cancelled, or fails
(`Yields`); every source does one of these in the end (`exists_yields`).  What a view draws of the
batches is a list of lines (`View.output`), and drawing stops at the first of them that the output
does not accept or that cannot be drawn (`Writes`).

What is fetched on the way is `View.traffic`: some batches, then perhaps a fetch that brings none,
then perhaps a refusal, and nothing else.  The induction is over what the source yields.

* `View.exists_shows_body`: each view fetches until nothing comes or a line stops it, and draws the
  lines of the batches that came.
* `View.given_up_last`: **the result is given up once, behind all fetches**, whatever the source,
  the tokens and the output do.
-/

namespace SqlConsole

open Console

/-! ## Drawing -/

/-- The lines up to the first that is not accepted or cannot be drawn are written, one after the
other; where all are drawn, the program answers what it is to answer. -/
structure Writes (m : ConsoleM Unit) (c : Console) (lines : List (Except Crash Text))
    (outcome drawn : Except Stop Unit) : Prop where
  sink : (m c).2.sink = ((lines.forM draw : ConsoleM Unit) c).2.sink
  stopped : ((lines.forM draw : ConsoleM Unit) c).1 = drawn
  answered : (m c).1 = drawn.bind fun _ => outcome

/-- The event of a refused line.  A line that cannot be drawn leaves no event behind. -/
def refusal : Except Stop Unit → List Event
  | .error (.failure _) => [.refused]
  | _ => []

variable {m m' : ConsoleM Unit} {c d : Console} {lines front : List (Except Crash Text)}
  {outcome drawn : Except Stop Unit}

/-- A text that is accepted is written to its end. -/
theorem written_of_accepted {s : Sink} {t : Text} (h : (s.write t).1 = true) :
    (s.write t).2.written = s.written ++ t := by
  obtain ⟨written, room⟩ := s
  cases room with
  | none => rfl
  | some n =>
    by_cases hfits : Text.byteLength t ≤ n
    · rw [Sink.write]
      dsimp only
      rw [if_pos hfits]
    · rw [Sink.write] at h
      dsimp only at h
      rw [if_neg hfits] at h
      cases h

/-- A text changes the sink alone where it is accepted; where it is refused, that is an event. -/
theorem put_eq (t : Text) (c : Console) :
    c.put t = if (c.sink.write t).1 then (true, { c with sink := (c.sink.write t).2 })
      else (false, { c with
        sink := (c.sink.write t).2
        journal := c.journal ++ refusal (.error full) }) := by
  unfold put
  dsimp only
  cases (c.sink.write t).1 <;> rfl

/-- **Drawing stops at the first line that is refused or cannot be drawn**, and all lines are
written where there is none. -/
theorem forM_draw_spec (lines : List (Except Crash Text)) (c : Console) :
    ((lines.forM draw : ConsoleM Unit) c).2.journal =
        c.journal ++ refusal ((lines.forM draw : ConsoleM Unit) c).1 ∧
      ((lines.forM draw : ConsoleM Unit) c).2.interrupts = c.interrupts ∧
      (((lines.forM draw : ConsoleM Unit) c).1 = .ok () → ∃ texts : List Text,
        lines = texts.map .ok ∧
          ((lines.forM draw : ConsoleM Unit) c).2.sink.written = c.sink.written ++ asText texts) ∧
      ∀ why, ((lines.forM draw : ConsoleM Unit) c).1 = .error (.crash why) →
        .error why ∈ lines := by
  induction lines generalizing c with
  | nil =>
    refine ⟨(List.append_nil _).symm, rfl, fun _ => ⟨[], rfl, (List.append_nil _).symm⟩, ?_⟩
    intro why hcrash
    cases hcrash
  | cons line lines ih =>
    cases line with
    | error why =>
      rw [forM_draw_error]
      refine ⟨(List.append_nil _).symm, rfl, nofun, ?_⟩
      intro why' hcrash
      cases hcrash
      exact List.mem_cons_self
    | ok text =>
      rw [forM_draw_ok, put_eq]
      by_cases haccepted : (c.sink.write (text ++ ['\n'])).1 = true
      · obtain ⟨hjournal, hinterrupts, hwritten, hcrash⟩ :=
          ih { c with sink := (c.sink.write (text ++ ['\n'])).2 }
        rw [if_pos haccepted]
        refine ⟨hjournal, hinterrupts, fun hdrawn => ?_, fun why hwhy => ?_⟩
        · obtain ⟨texts, rfl, hleft⟩ := hwritten hdrawn
          refine ⟨text :: texts, rfl, hleft.trans ?_⟩
          rw [written_of_accepted haccepted]
          exact List.append_assoc _ _ _
        · exact List.mem_cons_of_mem _ (hcrash why hwhy)
      · rw [if_neg haccepted]
        exact ⟨rfl, rfl, nofun, nofun⟩

/-- Where a program works, what follows goes on from there. -/
theorem run_bind_of_ok {α β : Type} {m : ConsoleM α} {a : α} (h : (m c).1 = .ok a)
    (f : α → ConsoleM β) : (m >>= f) c = f a (m c).2 := by
  rw [Respects.run_bind]
  rcases hm : m c with ⟨answer, d⟩
  rw [hm] at h
  obtain rfl : answer = .ok a := h
  rfl

/-- Where a program stops, nothing follows. -/
theorem run_bind_of_error {α β : Type} {m : ConsoleM α} {stop : Stop} (h : (m c).1 = .error stop)
    (f : α → ConsoleM β) : (m >>= f) c = (.error stop, (m c).2) := by
  rw [Respects.run_bind]
  rcases hm : m c with ⟨answer, d⟩
  rw [hm] at h
  obtain rfl : answer = .error stop := h
  rfl

/-- Lines behind other lines. -/
theorem forM_draw_append (front lines : List (Except Crash Text)) :
    ((front ++ lines).forM draw : ConsoleM Unit) = front.forM draw >>= fun _ => lines.forM draw :=
  List.forM_append

theorem forM_draw_pair (line : Except Crash Text) (text : Text) :
    ([line, .ok text].forM draw : ConsoleM Unit) = draw line >>= fun _ => writeLine text :=
  congrArg (draw line >>= ·) (funext fun _ => bind_pure_unit)

namespace Writes

/-- What is written depends on the sink alone. -/
theorem congr (h : Writes m d lines outcome drawn) (hsink : d.sink = c.sink)
    (heq : (m' c).1 = (m d).1 ∧ (m' c).2.sink = (m d).2.sink) :
    Writes m' c lines outcome drawn := by
  obtain ⟨hanswer, hleft⟩ := forM_draw_congr hsink lines
  exact ⟨heq.2.trans (h.sink.trans hleft), hanswer ▸ h.stopped, heq.1.trans h.answered⟩

/-- Where lines are drawn, it matters what follows them. -/
theorem behind (hfront : ((front.forM draw : ConsoleM Unit) c).1 = .ok ())
    (h : Writes m ((front.forM draw : ConsoleM Unit) c).2 lines outcome drawn) :
    Writes (front.forM draw >>= fun _ => m) c (front ++ lines) outcome drawn := by
  refine ⟨?_, ?_, ?_⟩
  · rw [forM_draw_append, run_bind_of_ok hfront, run_bind_of_ok hfront]
    exact h.sink
  · rw [forM_draw_append, run_bind_of_ok hfront]
    exact h.stopped
  · rw [run_bind_of_ok hfront]
    exact h.answered

/-- Where a line stops a program, it does not matter what would have followed. -/
theorem of_stopped {stop : Stop} (hstopped : ((front.forM draw : ConsoleM Unit) c).1 = .error stop)
    (m : ConsoleM Unit) (lines : List (Except Crash Text)) (outcome : Except Stop Unit) :
    Writes (front.forM draw >>= fun _ => m) c (front ++ lines) outcome (.error stop) := by
  refine ⟨?_, ?_, ?_⟩
  · rw [forM_draw_append, run_bind_of_error hstopped, run_bind_of_error hstopped]
  · rw [forM_draw_append, run_bind_of_error hstopped]
  · rw [run_bind_of_error hstopped]
    rfl

end Writes

namespace View

variable {φ : Type} [ResultSource φ] {token : CancelToken} {s next : φ} {i j : Interrupts}
  {batch : List Row} {batches : List (List Row)}

/-! ## Sources -/

/-- How a result comes to its end. -/
inductive Ending where
  | exhausted
  | cancelled
  | failed (e : GatewayError)
  deriving DecidableEq, Repr

/-- What a source hands out for a statement from a state of the interrupts on, and how it ends. -/
inductive Yields (token : CancelToken) : φ → Interrupts → List (List Row) → Ending → Prop
  | exhausted {s next : φ} {i j : Interrupts}
      (hfetch : ResultSource.fetch token s i = (.ok none, next, j)) : Yields token s i [] .exhausted
  | cancelled {s next : φ} {i j : Interrupts}
      (hfetch : ResultSource.fetch token s i = (.error .cancelled, next, j)) :
      Yields token s i [] .cancelled
  | failed {s next : φ} {i j : Interrupts} {e : GatewayError} (he : e ≠ .cancelled)
      (hfetch : ResultSource.fetch token s i = (.error e, next, j)) :
      Yields token s i [] (.failed e)
  | batch {s next : φ} {i j : Interrupts} {batch : List Row} {batches : List (List Row)}
      {ending : Ending} (hfetch : ResultSource.fetch token s i = (.ok (some batch), next, j))
      (hrest : Yields token next j batches ending) : Yields token s i (batch :: batches) ending

variable {ending : Ending}

/-- **Every source comes to an end**, after finitely many batches. -/
theorem exists_yields (token : CancelToken) (s : φ) (i : Interrupts) :
    ∃ batches ending, Yields token s i batches ending := by
  induction hsize : ResultSource.size s using Nat.strongRecOn generalizing s i with
  | _ n ih =>
    rcases hfetch : ResultSource.fetch token s i with ⟨e | _ | batch, next, j⟩
    · by_cases he : e = .cancelled
      · subst he
        exact ⟨[], .cancelled, .cancelled hfetch⟩
      · exact ⟨[], .failed e, .failed he hfetch⟩
    · exact ⟨[], .exhausted, .exhausted hfetch⟩
    · have hsmaller : ResultSource.size next < n := by
        rw [← hsize]
        exact ResultSource.size_fetch_lt hfetch
      obtain ⟨batches, ending, hrest⟩ := ih _ hsmaller next j rfl
      exact ⟨batch :: batches, ending, .batch hfetch hrest⟩

/-! ## What is drawn -/

/-- What a view answers that could draw all its lines. -/
def Ending.answer : Ending → Except Stop Unit
  | .failed e => .error (fetchFailed e)
  | _ => .ok ()

/-- The lines behind the rows of a streaming tableau. -/
def closing (t : Tableau) (count : Nat) : Ending → List (Except Crash Text)
  | .exhausted => [t.border, .ok (received count)]
  | .cancelled => [t.border, .ok (terminated count)]
  | .failed _ => []

/-- The head of a tableau. -/
def head (t : Tableau) : List (Except Crash Text) := [t.border, t.header, t.border]

/-- The lines of a streaming tableau: its head, a line for each row, and at the end how many there
were. -/
def streamedLines (t : Tableau) (rows : List Row) (ending : Ending) : List (Except Crash Text) :=
  head t ++ (rows.map t.row ++ closing t rows.length ending)

/-- The lines of a tableau that is drawn when its rows are there. -/
def completeLines (t : Tableau) (rows : List Row) : Ending → List (Except Crash Text)
  | .exhausted => t.lines rows
  | .cancelled => [.ok (terminated rows.length)]
  | .failed _ => []

/-- The lines of a tableau that is drawn behind a title, whether its rows are complete or not. -/
def titledLines (title : Text) (t : Tableau) (rows : List Row) :
    Ending → List (Except Crash Text)
  | .failed _ => []
  | _ => .ok title :: t.lines rows

/-- Rows of a result are drawn as they come. -/
def Streams (mode : ResultMode) (d : Descriptor φ) : Prop := mode = .tableau ∧ d.streaming = true

def changelogTitle : Text := "SQL Query Result (Changelog)"

/-- The lines that a view draws of the rows that came until its result ended. -/
def output (mode : ResultMode) (d : Descriptor φ) (rows : List Row) (ending : Ending) :
    List (Except Crash Text) :=
  match mode with
  | .tableau =>
    if d.streaming then streamedLines (streamed d) rows ending
    else completeLines (fitted d false rows) rows ending
  | .table =>
    let rows := Changelog.materialize rows
    titledLines tableTitle (fitted d false rows) rows ending
  | .changelog => titledLines changelogTitle (fitted d true rows) rows ending

/-- What happens while a result is shown: some batches come, then perhaps a fetch brings none, then
perhaps a line is refused. -/
def traffic (delivered : Nat) (ended : Bool) (drawn : Except Stop Unit) : List Event :=
  List.replicate delivered (.fetched true) ++ (if ended then [.fetched false] else []) ++
    refusal drawn

/-- A result is shown: batches are fetched one after the other, all of them where no line stops
that, and the lines of those that came are drawn. -/
structure Shows (m : ConsoleM Unit) (c : Console) (batches : List (List Row)) (ending : Ending)
    (lines : List Row → List (Except Crash Text)) (delivered : Nat) (ended : Bool)
    (drawn : Except Stop Unit) : Prop where
  journal : (m c).2.journal = c.journal ++ traffic delivered ended drawn
  delivered_le : delivered ≤ batches.length
  complete : drawn = .ok () → delivered = batches.length ∧ ended = true
  writes : Writes m c (lines (batches.take delivered).flatten) ending.answer drawn

variable {linesOf : List Row → List (Except Crash Text)}

theorem traffic_append_refusal (delivered : Nat) (ended : Bool) (drawn : Except Stop Unit) :
    traffic delivered ended (.ok ()) ++ refusal drawn = traffic delivered ended drawn := by
  unfold traffic
  rw [List.append_assoc, List.append_assoc, List.append_assoc]
  rfl

theorem traffic_add (front delivered : Nat) (ended : Bool) (drawn : Except Stop Unit) :
    traffic (front + delivered) ended drawn =
      traffic front false (.ok ()) ++ traffic delivered ended drawn := by
  have hfront : traffic front false (.ok ()) = List.replicate front (.fetched true) := by
    unfold traffic refusal
    simp
  rw [hfront, traffic, traffic, ← List.append_assoc, ← List.append_assoc,
    List.replicate_append_replicate]

/-- A view that has its rows and draws some lines. -/
theorem exists_shows_of_ended (hm : m c = (lines.forM draw : ConsoleM Unit) d)
    (hsink : d.sink = c.sink)
    (hjournal : d.journal = c.journal ++ traffic batches.length true (.ok ()))
    (hending : ending.answer = .ok ()) (hlines : linesOf batches.flatten = lines) :
    ∃ drawn, Shows m c batches ending linesOf batches.length true drawn := by
  obtain ⟨hleft, -, -, -⟩ := forM_draw_spec lines d
  obtain ⟨hanswers, hsinks⟩ := forM_draw_congr hsink lines
  refine ⟨((lines.forM draw : ConsoleM Unit) d).1, ?_, Nat.le_refl _, fun _ => ⟨rfl, rfl⟩, ?_⟩
  · rw [hm, hleft, hjournal, List.append_assoc, traffic_append_refusal]
  · rw [List.take_length, hlines, hending]
    refine ⟨?_, hanswers.symm, ?_⟩
    · rw [hm, hsinks]
    · rw [hm]
      cases ((lines.forM draw : ConsoleM Unit) d).1 <;> rfl

/-- A view whose source failed. -/
theorem shows_of_failed {e : GatewayError} (hm : m c = (.error (fetchFailed e), d))
    (hsink : d.sink = c.sink)
    (hjournal : d.journal = c.journal ++ traffic batches.length true (.ok ()))
    (hnone : linesOf batches.flatten = []) :
    Shows m c batches (.failed e) linesOf batches.length true (.ok ()) := by
  refine ⟨?_, Nat.le_refl _, fun _ => ⟨rfl, rfl⟩, ?_⟩
  · rw [hm, hjournal]
  · rw [List.take_length, hnone]
    refine ⟨?_, rfl, ?_⟩
    · rw [hm]
      exact hsink
    · rw [hm]
      rfl

/-! ## Streaming -/

/-- The lines of a streaming tableau behind its head. -/
def rowLines (t : Tableau) (before : Nat) (ending : Ending) (rows : List Row) :
    List (Except Crash Text) :=
  rows.map t.row ++ closing t (before + rows.length) ending

/-- The rows of a batch come before those of the batches behind it. -/
theorem rowLines_append (t : Tableau) (before : Nat) (ending : Ending) (rows rows' : List Row) :
    rowLines t before ending (rows ++ rows') =
      rows.map t.row ++ rowLines t (before + rows.length) ending rows' := by
  unfold rowLines
  rw [List.map_append, List.append_assoc, List.length_append, Nat.add_assoc]

/-- Where one of the lines of some batches stops a view, that is all. -/
theorem shows_of_stopped (front batches : List (List Row)) {lines : List (Except Crash Text)}
    {next : List Row → List (Except Crash Text)} {stop : Stop}
    (hm : m c = (lines.forM draw >>= fun _ => m' : ConsoleM Unit) d) (hsink : d.sink = c.sink)
    (hjournal : d.journal = c.journal ++ traffic front.length false (.ok ()))
    (hlines : ∀ rows, linesOf (front.flatten ++ rows) = lines ++ next rows)
    (hstopped : ((lines.forM draw : ConsoleM Unit) d).1 = .error stop) :
    Shows m c (front ++ batches) ending linesOf front.length false (.error stop) := by
  obtain ⟨hleft, -, -, -⟩ := forM_draw_spec lines d
  refine ⟨?_, ?_, nofun, ?_⟩
  · rw [hm, run_bind_of_error hstopped, hleft, hjournal, hstopped, List.append_assoc,
      traffic_append_refusal]
  · rw [List.length_append]
    exact Nat.le_add_right _ _
  · rw [List.take_left, ← List.append_nil front.flatten, hlines]
    exact (Writes.of_stopped hstopped m' (next []) ending.answer).congr hsink
      ⟨congrArg Prod.fst hm, congrArg (·.2.sink) hm⟩

/-- Where the lines of some batches are drawn, what follows is shown. -/
theorem shows_behind (front : List (List Row)) {lines : List (Except Crash Text)}
    {next : List Row → List (Except Crash Text)} {delivered : Nat} {ended : Bool}
    (hm : m c = (lines.forM draw >>= fun _ => m' : ConsoleM Unit) d) (hsink : d.sink = c.sink)
    (hjournal : d.journal = c.journal ++ traffic front.length false (.ok ()))
    (hlines : ∀ rows, linesOf (front.flatten ++ rows) = lines ++ next rows)
    (hfront : ((lines.forM draw : ConsoleM Unit) d).1 = .ok ())
    (hrest : Shows m' ((lines.forM draw : ConsoleM Unit) d).2 batches ending next
      delivered ended drawn) :
    Shows m c (front ++ batches) ending linesOf (front.length + delivered) ended drawn := by
  obtain ⟨hleft, -, -, -⟩ := forM_draw_spec lines d
  refine ⟨?_, ?_, ?_, ?_⟩
  · rw [hm, run_bind_of_ok hfront, hrest.journal, hleft, hjournal, hfront, traffic_add,
      List.append_assoc, List.append_assoc]
    rfl
  · rw [List.length_append]
    exact Nat.add_le_add_left hrest.delivered_le _
  · intro hdrawn
    obtain ⟨hall, hended⟩ := hrest.complete hdrawn
    rw [List.length_append, hall]
    exact ⟨rfl, hended⟩
  · rw [List.take_length_add_append, List.flatten_append, hlines]
    exact (Writes.behind hfront hrest.writes).congr hsink
      ⟨congrArg Prod.fst hm, congrArg (·.2.sink) hm⟩

/-- **Rows are drawn as they come**, in their order, and behind the last one how many came. -/
theorem exists_shows_stream (h : Yields token s i batches ending) (t : Tableau) :
    ∀ (before : Nat) (c : Console), c.interrupts = i → ∃ delivered ended drawn,
      Shows (stream t token before s) c batches ending (rowLines t before ending)
        delivered ended drawn := by
  induction h with
  | @exhausted s next i j hfetch =>
    intro before c hc
    subst hc
    have hlines : stream t token before s c =
        ([t.border, .ok (received before)].forM draw : ConsoleM Unit)
          ({ c with interrupts := j }.note (.fetched false)) := by
      rw [stream_apply, fetch_of_eq hfetch]
      exact congrFun (forM_draw_pair _ _).symm _
    exact ⟨0, true, exists_shows_of_ended hlines rfl rfl rfl rfl⟩
  | @cancelled s next i j hfetch =>
    intro before c hc
    subst hc
    have hlines : stream t token before s c =
        ([t.border, .ok (terminated before)].forM draw : ConsoleM Unit)
          ({ c with interrupts := j }.note (.fetched false)) := by
      rw [stream_apply, fetch_of_eq hfetch]
      exact congrFun (forM_draw_pair _ _).symm _
    exact ⟨0, true, exists_shows_of_ended hlines rfl rfl rfl rfl⟩
  | @failed s next i j e he hfetch =>
    intro before c hc
    subst hc
    have hthrow : stream t token before s c =
        (.error (fetchFailed e), { c with interrupts := j }.note (.fetched false)) := by
      rw [stream_apply, fetch_of_eq hfetch]
      cases e with
      | cancelled => exact (he rfl).elim
      | _ => rfl
    exact ⟨0, true, .ok (), shows_of_failed hthrow rfl rfl rfl⟩
  | @batch s next i j batch batches ending hfetch hrest ih =>
    intro before c hc
    subst hc
    let d := { c with interrupts := j }.note (.fetched true)
    have hrows : (batch.forM fun row => draw (t.row row) : ConsoleM Unit) =
        (batch.map t.row).forM draw := List.forM_map.symm
    have hm : stream t token before s c = ((batch.map t.row).forM draw >>= fun _ =>
        stream t token (before + batch.length) next : ConsoleM Unit) d := by
      rw [stream_apply, fetch_of_eq hfetch, ← hrows]
      rfl
    have hlines : ∀ rows, rowLines t before ending ([batch].flatten ++ rows) =
        batch.map t.row ++ rowLines t (before + batch.length) ending rows := by
      intro rows
      rw [List.flatten_singleton, rowLines_append]
    cases hdrawn : (((batch.map t.row).forM draw : ConsoleM Unit) d).1 with
    | error stop =>
      exact ⟨1, false, .error stop, shows_of_stopped [batch] batches hm rfl rfl hlines hdrawn⟩
    | ok =>
      obtain ⟨-, hinterrupts, -, -⟩ := forM_draw_spec (batch.map t.row) d
      obtain ⟨delivered, ended, drawn, hshows⟩ := ih (before + batch.length) _ hinterrupts
      exact ⟨1 + delivered, ended, drawn, shows_behind [batch] hm rfl rfl hlines hdrawn hshows⟩

/-! ## Views -/

/-- What a view has that waits for all rows. -/
def Ending.fetched (rows : List Row) : Ending → Except Stop Fetched
  | .exhausted => .ok ⟨rows, false⟩
  | .cancelled => .ok ⟨rows, true⟩
  | .failed e => .error (fetchFailed e)

/-- Waiting for all rows takes a fetch for every batch and a last one, and writes nothing. -/
theorem fetchAll_of_yields (h : Yields token s i batches ending) :
    ∀ c : Console, c.interrupts = i → ∃ d,
      fetchAll token s c = (ending.fetched batches.flatten, d) ∧ d.sink = c.sink ∧
        d.journal = c.journal ++ traffic batches.length true (.ok ()) := by
  induction h with
  | @exhausted s next i j hfetch =>
    intro c hc
    subst hc
    refine ⟨{ c with interrupts := j }.note (.fetched false), ?_, rfl, rfl⟩
    rw [fetchAll_apply, fetch_of_eq hfetch]
    rfl
  | @cancelled s next i j hfetch =>
    intro c hc
    subst hc
    refine ⟨{ c with interrupts := j }.note (.fetched false), ?_, rfl, rfl⟩
    rw [fetchAll_apply, fetch_of_eq hfetch]
    rfl
  | @failed s next i j e he hfetch =>
    intro c hc
    subst hc
    refine ⟨{ c with interrupts := j }.note (.fetched false), ?_, rfl, rfl⟩
    rw [fetchAll_apply, fetch_of_eq hfetch]
    cases e with
    | cancelled => exact (he rfl).elim
    | _ => rfl
  | @batch s next i j batch batches ending hfetch hrest ih =>
    intro c hc
    subst hc
    obtain ⟨d, hd, hsink, hjournal⟩ := ih ({ c with interrupts := j }.note (.fetched true)) rfl
    have hfetched : c.fetch token s =
        (.ok (some batch), next, { c with interrupts := j }.note (.fetched true)) :=
      fetch_of_eq hfetch
    refine ⟨d, ?_, hsink, ?_⟩
    · rw [fetchAll_apply, hfetched]
      refine (Respects.run_bind _ _ _).trans ?_
      rw [hd]
      cases ending <;> rfl
    · rw [hjournal, List.length_cons, Nat.add_comm, traffic_add, ← List.append_assoc]
      rfl

/-- A view that waits for all rows draws nothing if its source fails. -/
theorem exists_shows_of_fetchAll {goOn : Fetched → ConsoleM Unit}
    (h : Yields token s c.interrupts batches ending)
    (hgoOn : ∀ fetched, ending.fetched batches.flatten = .ok fetched →
      goOn fetched = (linesOf batches.flatten).forM draw)
    (hnone : ∀ e, ending = .failed e → linesOf batches.flatten = []) :
    ∃ drawn, Shows (fetchAll token s >>= goOn) c batches ending linesOf batches.length true
      drawn := by
  obtain ⟨d, hd, hsink, hjournal⟩ := fetchAll_of_yields h c rfl
  have hrun := Respects.run_bind (fetchAll token s) goOn c
  rw [hd] at hrun
  cases ending with
  | exhausted =>
    rw [Ending.fetched] at hrun
    dsimp only at hrun
    rw [hgoOn _ rfl] at hrun
    exact exists_shows_of_ended hrun hsink hjournal rfl rfl
  | cancelled =>
    rw [Ending.fetched] at hrun
    dsimp only at hrun
    rw [hgoOn _ rfl] at hrun
    exact exists_shows_of_ended hrun hsink hjournal rfl rfl
  | failed e =>
    exact ⟨.ok (), shows_of_failed hrun hsink hjournal (hnone e rfl)⟩

/-- A streaming tableau that is narrow enough has no line that cannot be drawn. -/
theorem not_mem_streamedLines {t : Tableau} (h : t.Within Tableau.maxFill) (rows : List Row)
    (why : Crash) (ending : Ending) : .error why ∉ streamedLines t rows ending := by
  have hborder := h.border_eq
  have hheader : t.header = .ok _ := h.line_eq _
  have hrows := h.not_mem_rows rows why
  unfold streamedLines head
  rw [hborder, hheader]
  cases ending <;> simp [closing, hborder, hrows]

/-- A streaming tableau has its head before the first batch is fetched, and if there is a line that
cannot be drawn, it is in the head. -/
theorem exists_shows_streamingTableau {d : Descriptor φ} (hstreaming : d.streaming = true)
    (h : Yields token d.source c.interrupts batches ending) :
    ∃ delivered ended drawn,
      Shows (streamingTableau d token) c batches ending (output .tableau d · ending)
        delivered ended drawn ∧ ∀ why, drawn = .error (.crash why) → delivered = 0 := by
  have hhead : streamingTableau d token =
      (head (streamed d)).forM draw >>= fun _ => stream (streamed d) token 0 d.source := by
    have hlines : ((head (streamed d)).forM draw : ConsoleM Unit) = (do
        draw (streamed d).border
        draw (streamed d).header
        draw (streamed d).border
        pure ()) := rfl
    rw [hlines]
    simp only [bind_assoc, pure_bind]
    rfl
  have houtput : ∀ rows, output .tableau d rows ending = streamedLines (streamed d) rows ending :=
    fun rows => if_pos hstreaming
  have hlines : ∀ rows, output .tableau d (([] : List (List Row)).flatten ++ rows) ending =
      head (streamed d) ++ rowLines (streamed d) 0 ending rows := by
    intro rows
    rw [List.flatten_nil, List.nil_append, houtput, rowLines, Nat.zero_add, streamedLines]
  cases hdrawn : (((head (streamed d)).forM draw : ConsoleM Unit) c).1 with
  | error stop =>
    exact ⟨0, false, .error stop,
      shows_of_stopped [] batches (congrFun hhead c) rfl (List.append_nil _).symm hlines hdrawn,
      fun _ _ => rfl⟩
  | ok =>
    obtain ⟨-, hinterrupts, hheadDrawn, -⟩ := forM_draw_spec (head (streamed d)) c
    obtain ⟨delivered, ended, drawn, hrest⟩ :=
      exists_shows_stream h (streamed d) 0 _ hinterrupts
    have hshows : Shows (streamingTableau d token) c ([] ++ batches) ending
        (output .tableau d · ending) (0 + delivered) ended drawn :=
      shows_behind [] (congrFun hhead c) rfl (List.append_nil _).symm hlines hdrawn hrest
    refine ⟨0 + delivered, ended, drawn, hshows, ?_⟩
    -- The header was drawn, and no line needs more room than it does.
    rintro why rfl
    obtain ⟨texts, htexts, -⟩ := hheadDrawn hdrawn
    have hcrash := (forM_draw_spec _ c).2.2.2 why hshows.writes.stopped
    rw [houtput] at hcrash
    have hmem : (streamed d).header ∈ texts.map Except.ok :=
      htexts ▸ List.mem_cons_of_mem _ List.mem_cons_self
    obtain ⟨text, -, hheader⟩ := List.mem_map.1 hmem
    have hwithin : (streamed d).Within Tableau.maxFill :=
      Tableau.within_of_header (by simp [streamed, Tableau.fixed]) hheader.symm
    exact (not_mem_streamedLines hwithin _ why ending hcrash).elim

/-- A view that waits for all rows draws what it makes of them. -/
theorem exists_shows_waiting (mode : ResultMode) (d : Descriptor φ) (hwaits : ¬ Streams mode d)
    (h : Yields token d.source c.interrupts batches ending) :
    ∃ drawn, Shows (body mode d token) c batches ending (output mode d · ending) batches.length true
      drawn := by
  cases mode with
  | tableau =>
    have hbounded : ¬ d.streaming = true := fun hstreaming => hwaits ⟨rfl, hstreaming⟩
    have hbody : body .tableau d token = tableau d token := if_neg hbounded
    have houtput : output .tableau d batches.flatten ending =
        completeLines (fitted d false batches.flatten) batches.flatten ending := if_neg hbounded
    rw [hbody]
    apply exists_shows_of_fetchAll h
    · intro fetched hfetched
      rw [houtput]
      cases ending with
      | failed e => cases hfetched
      | exhausted =>
        obtain rfl := Except.ok.inj hfetched
        rfl
      | cancelled =>
        obtain rfl := Except.ok.inj hfetched
        exact bind_pure_unit.symm
    · intro e he
      rw [houtput, he]
      rfl
  | table | changelog =>
    apply exists_shows_of_fetchAll h
    · intro fetched hfetched
      cases ending with
      | failed e => cases hfetched
      | exhausted | cancelled =>
        obtain rfl := Except.ok.inj hfetched
        rfl
    · intro e he
      rw [he]
      rfl

/-- **Each view shows what its source yields.** -/
theorem exists_shows_body (mode : ResultMode) (d : Descriptor φ)
    (h : Yields token d.source c.interrupts batches ending) :
    ∃ delivered ended drawn,
      Shows (body mode d token) c batches ending (output mode d · ending) delivered ended drawn ∧
        (Streams mode d → ∀ why, drawn = .error (.crash why) → delivered = 0) ∧
        (¬ Streams mode d → delivered = batches.length) := by
  by_cases hstreams : Streams mode d
  · obtain ⟨rfl, hstreaming⟩ := hstreams
    have hbody : body .tableau d token = streamingTableau d token := if_pos hstreaming
    obtain ⟨delivered, ended, drawn, hshows, hcrash⟩ := exists_shows_streamingTableau hstreaming h
    rw [hbody]
    exact ⟨delivered, ended, drawn, hshows, fun _ => hcrash,
      fun hwaits => (hwaits ⟨rfl, hstreaming⟩).elim⟩
  · obtain ⟨drawn, hshows⟩ := exists_shows_waiting mode d hstreams h
    exact ⟨_, true, drawn, hshows, fun hstreams' => (hstreams hstreams').elim, fun _ => rfl⟩

end View

end SqlConsole
