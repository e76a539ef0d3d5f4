import SqlConsole.Proofs.Session.Fold
import SqlConsole.Proofs.Session.Raising
import SqlConsole.Proofs.Session.Terms
/-!
# An interrupt hits the statement that runs

A statement gets a new token when it is dispatched, and interrupts go there until it is done.  Where
the gateway does nothing to the interrupts but raise some, the token is cancelled if an interrupt
was raised meanwhile, and not otherwise (`Dispatched.confined_of`).

Between statements anybody may raise interrupts, at any time.  `Path` are the ways that a run can
take through its stages with such interrupts in between; `run` itself takes one without
(`Path.reaches_run`).  What every step keeps is `Undisturbed`: the handler is the one of the
beginning, so the interrupts in between go to tokens that were made before, and what the dispatches
left of theirs stays as it is.
-/

namespace SqlConsole.Session

variable {σ φ : Type} [ResultSource φ] [Gateway.Over σ φ] {P : σ → Prop} {Q : φ → Prop}

/-! ## Dispatches -/

/-- A dispatch: the token of its statement, and the interrupts when it began and when it had ended.
At both times they go to the token. -/
structure Dispatched where
  operation : Operation
  token : CancelToken
  begun : Interrupts
  ended : Interrupts
  deriving Repr

namespace Dispatched

/-- The dispatch of an operation in a session. -/
def of (op : Operation) (s : Session σ) : Dispatched :=
  let i := s.console.interrupts
  { operation := op
    token := i.newToken.1
    begun := i.begun
    ended := (dispatch op i.newToken.1 (s.withInterrupts i.begun)).2.console.interrupts }

/-- Interrupts hit the statement while it ran, and nothing else. -/
structure Confined (d : Dispatched) : Prop where
  /-- The statement began with a token that was not cancelled. -/
  fresh : d.begun.isCancelled d.token = false
  /-- All interrupts meanwhile were handled, and the token is cancelled exactly if there were
  any. -/
  hit : ∃ raised, d.ended.raised = d.begun.raised ++ raised ∧ (∀ told ∈ raised, told = true) ∧
    (d.ended.isCancelled d.token = true ↔ raised ≠ [])
  others : ∀ other, other ≠ d.token → d.ended.isCancelled other = d.begun.isCancelled other
  heard : d.ended.heard = d.begun.heard

theorem confined_of {op : Operation} {s : Session σ} {n : Nat}
    (h : (of op s).ended = s.console.interrupts.begun.raiseTimes n) : (of op s).Confined := by
  have htoken : (of op s).token = s.console.interrupts.cancelled.length := rfl
  have hbegun : (of op s).begun = s.console.interrupts.begun := rfl
  rw [Interrupts.begun_eq] at hbegun
  rw [Interrupts.raiseTimes_begun] at h
  refine ⟨?_, ⟨List.replicate n true, ?_, ?_, ?_⟩, ?_, ?_⟩
  · rw [htoken, hbegun]
    exact Interrupts.isCancelled_new _ _ _ _ _
  · rw [h, hbegun]
  · intro told htold
    exact List.eq_of_mem_replicate htold
  · rw [htoken, h, Interrupts.isCancelled_new, decide_eq_true_iff, ne_eq,
      List.replicate_eq_nil_iff]
    omega
  · intro other hother
    rw [h, hbegun, Interrupts.isCancelled_old _ _ _ _ _ (htoken ▸ hother),
      Interrupts.isCancelled_old _ _ _ _ _ (htoken ▸ hother)]
  · rw [h, hbegun]

end Dispatched

/-! ## Runs -/

/-- A point in a run. -/
inductive Point where
  /-- The line between two statements is next; these statements were read together and wait. -/
  | between (queued : List Text)
  /-- A statement is evaluated next. -/
  | read (statement : Text) (queued : List Text)
  /-- A line is wanted; these are the lines that were kept. -/
  | waiting (kept : Text)
  | ended (outcome : Outcome)
  deriving DecidableEq, Repr

/-- A run at a point. -/
structure Stage (σ : Type) where
  point : Point
  session : Session σ

/-- What the loop has come to. -/
def Progress.stage : Progress σ → Stage σ
  | .waiting kept s => ⟨.waiting kept, s⟩
  | .over outcome s => ⟨.ended outcome, s⟩

/-- The operation that is dispatched when a statement is evaluated, if there is one. -/
def dispatched? (language : Language) (statement : Text) : Option Operation :=
  if (Text.trim statement).isEmpty then none
  else match language.parse statement with
    | .ok (some op) => if language.parsedText statement = statement then some op else none
    | _ => none

namespace Stage

/-- An interrupt arrives, whatever the point is. -/
def interrupt (stage : Stage σ) : Stage σ :=
  { stage with session :=
      stage.session.withInterrupts stage.session.console.interrupts.raise.2 }

/-- Behind the line between two statements comes the next of those that were read together, or else
a line is wanted. -/
def behindLine (queued : List Text) (s : Session σ) : Stage σ :=
  match queued with
  | [] => (await [] s).stage
  | statement :: queued => ⟨.read statement queued, s⟩

/-- What comes next; where a line is wanted, the terminal delivers a read. -/
def advance (language : Language) (read : TerminalRead) (stage : Stage σ) : Stage σ :=
  let s := stage.session
  match stage.point with
  | .between queued =>
    if !s.running then ⟨.ended .success, s⟩
    else match s.console.put ['\n'] with
      | (false, console) => ⟨.ended .failure, { s with console }⟩
      | (true, console) => behindLine queued { s with console }
  | .read statement queued =>
    match evaluate language statement s with
    | (none, s) => ⟨.between queued, s⟩
    | (some outcome, s) => ⟨.ended outcome, s⟩
  | .waiting kept =>
    let (outcome, console) := s.console.take language.isComplete Message.prompt kept read
    let s := { s with console }
    match outcome with
    | .ended => ⟨.ended .success, s⟩
    | .failed reason => ⟨.ended .success, closeInput reason s⟩
    | .interrupted | .read .blank => ⟨.between [], s⟩
    | .read (.incomplete lines) => (await lines s).stage
    | .read (.complete _ first others) => ⟨.read first others, s⟩
  | .ended _ => stage

/-- The dispatch that comes next, if one does. -/
def dispatch (language : Language) (stage : Stage σ) : List Dispatched :=
  match stage.point with
  | .read statement _ =>
    ((dispatched? language statement).map (Dispatched.of · stage.session)).toList
  | _ => []

end Stage

/-- The ways that a run can take from a stage on, with the dispatches on it: it goes on with
whatever the terminal delivers, and interrupts arrive in between. -/
inductive Path (language : Language) (first : Stage σ) : List Dispatched → Stage σ → Prop
  | here : Path language first [] first
  | interrupt {dispatches : List Dispatched} {stage : Stage σ}
    (h : Path language first dispatches stage) : Path language first dispatches stage.interrupt
  | advance {dispatches : List Dispatched} {stage : Stage σ} (read : TerminalRead)
    (h : Path language first dispatches stage) :
    Path language first (dispatches ++ stage.dispatch language) (stage.advance language read)

/-! ## What a run does with the interrupts -/

/-- Neither the gateway nor the interrupts have changed, and nothing was dispatched. -/
structure Untouched (s t : Session σ) : Prop where
  gateway : t.gateway = s.gateway
  interrupts : t.console.interrupts = s.console.interrupts
  operations : t.console.operations = s.console.operations

omit [ResultSource φ] [Gateway.Over σ φ] in
theorem untouched_put (s : Session σ) (t : Text) :
    Untouched s { s with console := (s.console.put t).2 } :=
  ⟨rfl, Console.interrupts_put t s.console, Console.operations_put t s.console⟩

omit [ResultSource φ] in
theorem untouched_recover (f : Failure) (s : Session σ) : Untouched s (recover f s).2 :=
  untouched_put s _

omit [ResultSource φ] [Gateway.Over σ φ] in
theorem Untouched.trans {s t u : Session σ} (h : Untouched s t) (h' : Untouched t u) :
    Untouched s u :=
  ⟨h'.gateway.trans h.gateway, h'.interrupts.trans h.interrupts,
    h'.operations.trans h.operations⟩

/-- Evaluating a statement does nothing to the interrupts but what its dispatch does. -/
theorem untouched_evaluate (language : Language) (statement : Text) (s : Session σ) :
    Untouched
      (match dispatched? language statement with
        | none => s
        | some op => (dispatchInterruptibly op s).2)
      (evaluate language statement s).2 := by
  unfold evaluate dispatched?
  by_cases hempty : (Text.trim statement).isEmpty
  · rw [if_pos hempty, if_pos hempty]
    exact ⟨rfl, rfl, rfl⟩
  rw [if_neg hempty, if_neg hempty]
  cases language.parse statement with
  | error fault => exact untouched_recover _ s
  | ok found =>
    cases found with
    | none => exact ⟨rfl, rfl, rfl⟩
    | some op =>
      dsimp only
      by_cases hsame : language.parsedText statement = statement
      · rw [if_pos hsame, if_pos hsame]
        dsimp only
        rcases dispatchInterruptibly op s with ⟨(f | why) | _, t⟩
        · exact untouched_recover f t
        · exact ⟨rfl, rfl, rfl⟩
        · exact ⟨rfl, rfl, rfl⟩
      · rw [if_neg hsame, if_neg hsame]
        exact untouched_recover _ s

omit [ResultSource φ] [Gateway.Over σ φ] in
theorem untouched_await (kept : Text) (s : Session σ) : Untouched s (await kept s).session := by
  have hread : Untouched s { s with console := s.console.note .read } :=
    ⟨rfl, rfl, Console.operations_note rfl _⟩
  have hasked : Untouched s { s with console := (s.console.awaitLine Message.prompt kept).2 } := by
    unfold Console.awaitLine
    dsimp only
    split
    · exact hread
    · exact hread.trans (untouched_put _ _)
  unfold await
  split
  · next heq => rwa [heq] at hasked
  · next heq =>
    rw [heq] at hasked
    exact hasked.trans (untouched_put _ _)

omit [ResultSource φ] [Gateway.Over σ φ] in
theorem untouched_take (isComplete : Text → Bool) (prompt kept : Text) (read : TerminalRead)
    (s : Session σ) :
    Untouched s { s with console := (s.console.take isComplete prompt kept read).2 } := by
  cases read with
  | ended | failed | interrupted => exact ⟨rfl, rfl, rfl⟩
  | line line =>
    have hecho : Untouched s { s with console := (s.console.echoLine prompt kept line).2 } := by
      unfold Console.echoLine
      split
      · exact untouched_put _ _
      · exact ⟨rfl, rfl, rfl⟩
    unfold Console.take
    dsimp only
    split
    · next heq => rwa [heq] at hecho
    · next console heq =>
      rw [heq] at hecho
      refine hecho.trans ⟨rfl, ?_, ?_⟩
      · cases Reading.addLine isComplete kept line <;> rfl
      · cases Reading.addLine isComplete kept line <;> rfl

omit [ResultSource φ] [Gateway.Over σ φ] in
theorem session_stage (progress : Progress σ) : progress.stage.session = progress.session := by
  cases progress <;> rfl

/-- Where no statement is evaluated, a step leaves the interrupts alone. -/
theorem Stage.untouched_advance (language : Language) (read : TerminalRead) {stage : Stage σ}
    (h : ∀ statement queued, stage.point ≠ .read statement queued) :
    Untouched stage.session (stage.advance language read).session := by
  obtain ⟨point, s⟩ := stage
  cases point with
  | between queued =>
    have hline := untouched_put s ['\n']
    unfold advance
    dsimp only
    split
    · exact ⟨rfl, rfl, rfl⟩
    split
    · next heq => rwa [heq] at hline
    · next heq =>
      rw [heq] at hline
      cases queued with
      | nil =>
        dsimp only [behindLine]
        rw [session_stage]
        exact hline.trans (untouched_await [] _)
      | cons statement queued => exact hline
  | read statement queued => exact (h statement queued rfl).elim
  | waiting kept =>
    have htaken := untouched_take language.isComplete Message.prompt kept read s
    unfold advance
    dsimp only
    generalize s.console.take language.isComplete Message.prompt kept read = taken at htaken
    obtain ⟨outcome, console⟩ := taken
    cases outcome with
    | ended | interrupted => exact htaken
    | failed reason => exact htaken.trans (untouched_put _ _)
    | read reading =>
      cases reading with
      | incomplete lines =>
        dsimp only
        rw [session_stage]
        exact htaken.trans (untouched_await lines _)
      | blank | complete => exact htaken
  | ended outcome => exact ⟨rfl, rfl, rfl⟩

/-- What is true of the interrupts at every stage: the handler is that of the beginning, every
dispatch so far was confined, and its token is as the dispatch left it. -/
structure Undisturbed (first : Interrupts) (dispatches : List Dispatched) (i : Interrupts) :
    Prop where
  handler : i.handler = first.handler
  made : first.cancelled.length ≤ i.cancelled.length
  confined : ∀ d ∈ dispatches, d.Confined
  /-- Tokens of statements are none of those that were there at the beginning. -/
  token : ∀ d ∈ dispatches, first.cancelled.length ≤ d.token ∧ d.token < i.cancelled.length
  left : ∀ d ∈ dispatches, i.isCancelled d.token = d.ended.isCancelled d.token

namespace Undisturbed

variable {first i : Interrupts} {dispatches : List Dispatched}

/-- An interrupt between two statements goes to no token of theirs. -/
theorem raise (hmade : ∀ token, first.handler = some (.cancel token) →
    token < first.cancelled.length) (h : Undisturbed first dispatches i) :
    Undisturbed first dispatches i.raise.2 := by
  refine ⟨?_, ?_, h.confined, ?_, ?_⟩
  · rw [Interrupts.handler_raise]
    exact h.handler
  · rw [Interrupts.length_raise]
    exact h.made
  · rw [Interrupts.length_raise]
    exact h.token
  · intro d hd
    have hother : i.handler ≠ some (.cancel d.token) := by
      intro heq
      have hlt := hmade d.token (h.handler ▸ heq)
      exact Nat.not_le_of_lt hlt (h.token d hd).1
    rw [Interrupts.isCancelled_raise hother]
    exact h.left d hd

/-- A dispatch during which interrupts were only raised is confined, and behind it the handler is
put back. -/
theorem dispatch {op : Operation} {s : Session σ} {n : Nat}
    (h : Undisturbed first dispatches s.console.interrupts)
    (hended : (Dispatched.of op s).ended = s.console.interrupts.begun.raiseTimes n) :
    Undisturbed first (dispatches ++ [.of op s])
      ((Dispatched.of op s).ended.restore s.console.interrupts.handler) := by
  have hconfined : (Dispatched.of op s).Confined := Dispatched.confined_of hended
  have htoken : (Dispatched.of op s).token = s.console.interrupts.cancelled.length := rfl
  have hlength : ((Dispatched.of op s).ended.restore s.console.interrupts.handler).cancelled.length =
      s.console.interrupts.cancelled.length + 1 := by
    rw [hended, Interrupts.raiseTimes_begun]
    exact List.length_append
  refine ⟨h.handler, ?_, ?_, ?_, ?_⟩
  · rw [hlength]
    exact Nat.le_succ_of_le h.made
  · intro d hd
    rcases List.mem_append.1 hd with hd | hd
    · exact h.confined d hd
    · rw [List.mem_singleton.1 hd]
      exact hconfined
  · intro d hd
    rw [hlength]
    rcases List.mem_append.1 hd with hd | hd
    · obtain ⟨hmade, hlt⟩ := h.token d hd
      exact ⟨hmade, Nat.lt_succ_of_lt hlt⟩
    · rw [List.mem_singleton.1 hd, htoken]
      exact ⟨h.made, Nat.lt_succ_self _⟩
  · intro d hd
    rcases List.mem_append.1 hd with hd | hd
    · -- the token was made before, and the dispatch has reached its own alone
      have hother : d.token ≠ s.console.interrupts.cancelled.length := Nat.ne_of_lt (h.token d hd).2
      rw [← h.left d hd, hended, Interrupts.raiseTimes_begun]
      exact Interrupts.isCancelled_old _ _ _ _ _ hother
    · rw [List.mem_singleton.1 hd]
      rfl

end Undisturbed

/-- What is true at every stage: something still holds of the gateway, the dispatches so far are
those in the journal, and the interrupts are undisturbed. -/
structure Keeps (P : σ → Prop) (first : Console) (dispatches : List Dispatched) (s : Session σ) :
    Prop where
  gateway : P s.gateway
  operations : s.console.operations = first.operations ++ dispatches.map (·.operation)
  interrupts : Undisturbed first.interrupts dispatches s.console.interrupts

namespace Keeps

variable {first : Console} {dispatches : List Dispatched} {s t : Session σ}

omit [ResultSource φ] [Gateway.Over σ φ] in
theorem of_untouched (h : Keeps P first dispatches s) (hst : Untouched s t) :
    Keeps P first dispatches t := by
  obtain ⟨hgateway, hinterrupts, hoperations⟩ := hst
  refine ⟨?_, hoperations.trans h.operations, ?_⟩
  · rw [hgateway]
    exact h.gateway
  · rw [hinterrupts]
    exact h.interrupts

theorem dispatch (honly : Gateway.OnlyRaises P Q) (h : Keeps P first dispatches s)
    (op : Operation) :
    Keeps P first (dispatches ++ [.of op s]) (dispatchInterruptibly op s).2 := by
  obtain ⟨⟨n, hended⟩, hnoted, hgateway⟩ := raises_dispatch honly op
    s.console.interrupts.newToken.1 (s := s.withInterrupts s.console.interrupts.begun) h.gateway
  have hoperations : (dispatchInterruptibly op s).2.console.operations =
      s.console.operations ++ [op] := hnoted
  refine ⟨hgateway, ?_, h.interrupts.dispatch hended⟩
  rw [hoperations, h.operations, List.map_append, List.append_assoc]
  rfl

end Keeps

/-- **At every stage of every path the interrupts are undisturbed.** -/
theorem keeps_of_path (honly : Gateway.OnlyRaises P Q) {language : Language} {s : Session σ}
    (hs : P s.gateway) (hmade : ∀ token, s.console.interrupts.handler = some (.cancel token) →
      token < s.console.interrupts.cancelled.length)
    {dispatches : List Dispatched} {stage : Stage σ}
    (h : Path language ⟨.between [], s⟩ dispatches stage) :
    Keeps P s.console dispatches stage.session := by
  induction h with
  | here => exact ⟨hs, by simp, rfl, Nat.le_refl _, by simp, by simp, by simp⟩
  | interrupt _ ih => exact ⟨ih.gateway, ih.operations, ih.interrupts.raise hmade⟩
  | @advance dispatches stage read _ ih =>
    obtain ⟨point, t⟩ := stage
    by_cases hread : ∃ statement queued, point = .read statement queued
    · obtain ⟨statement, queued, rfl⟩ := hread
      have hleft : (Stage.advance language read ⟨.read statement queued, t⟩).session =
          (evaluate language statement t).2 := by
        unfold Stage.advance
        dsimp only
        split
        · next heq => rw [heq]
        · next heq => rw [heq]
      have hevaluated := untouched_evaluate language statement t
      rw [hleft, Stage.dispatch]
      dsimp only
      cases hop : dispatched? language statement with
      | none =>
        rw [hop] at hevaluated
        simpa using ih.of_untouched hevaluated
      | some op =>
        rw [hop] at hevaluated
        exact (ih.dispatch honly op).of_untouched hevaluated
    · have hnone : Stage.dispatch language ⟨point, t⟩ = [] := by
        cases point with
        | read statement queued => exact (hread ⟨_, _, rfl⟩).elim
        | between | waiting | ended => rfl
      rw [hnone, List.append_nil]
      refine ih.of_untouched (Stage.untouched_advance language read ?_)
      intro statement queued heq
      exact hread ⟨statement, queued, heq⟩

/-! ## The loop is a path -/

namespace Path

variable {language : Language} {first : Stage σ} {s : Session σ}

/-- Some path leads to a stage. -/
def Reaches (language : Language) (first stage : Stage σ) : Prop :=
  ∃ dispatches, Path language first dispatches stage

theorem reaches_advance (read : TerminalRead) {stage : Stage σ} (h : Reaches language first stage) :
    Reaches language first (stage.advance language read) := by
  obtain ⟨dispatches, hpath⟩ := h
  exact ⟨_, hpath.advance read⟩

/-- A statement is evaluated, and where that does not end the run, what is queued comes next. -/
theorem reaches_evaluate {statement : Text} {queued : List Text}
    (hqueued : ∀ t : Session σ, Reaches language first ⟨.between queued, t⟩ →
      Reaches language first (proceed language queued t).stage)
    (h : Reaches language first ⟨.read statement queued, s⟩) :
    Reaches language first
      (match evaluate language statement s with
        | (none, t) => proceed language queued t
        | (some outcome, t) => .over outcome t).stage := by
  have hnext := reaches_advance .ended h
  unfold Stage.advance at hnext
  dsimp only at hnext
  rcases heq : evaluate language statement s with ⟨ended?, t⟩
  rw [heq] at hnext
  cases ended? with
  | none => exact hqueued t hnext
  | some outcome => exact hnext

/-- The line between two statements is written, and the run is over where that is not possible. -/
theorem reaches_line {queued : List Text} {goOn : Session σ → Progress σ}
    (h : Reaches language first ⟨.between queued, s⟩)
    (hgoOn : ∀ t : Session σ, Reaches language first (.behindLine queued t) →
      Reaches language first (goOn t).stage) :
    Reaches language first (Progress.stage
      (if !s.running then .over .success s
        else match s.console.put ['\n'] with
          | (false, console) => .over .failure { s with console }
          | (true, console) => goOn { s with console })) := by
  have hnext := reaches_advance .ended h
  unfold Stage.advance at hnext
  dsimp only at hnext
  cases hrunning : s.running with
  | false =>
    rw [hrunning] at hnext
    exact hnext
  | true =>
    rw [hrunning] at hnext
    rcases hput : s.console.put ['\n'] with ⟨_ | _, console⟩
    · rw [hput] at hnext
      exact hnext
    · rw [hput] at hnext
      exact hgoOn _ hnext

theorem reaches_proceed (queued : List Text) (h : Reaches language first ⟨.between queued, s⟩) :
    Reaches language first (proceed language queued s).stage := by
  induction queued generalizing s with
  | nil =>
    rw [proceed.eq_def]
    exact reaches_line h fun t ht => ht
  | cons statement queued ih =>
    rw [proceed.eq_def]
    exact reaches_line h fun t ht => reaches_evaluate (fun u hu => ih hu) ht

theorem reaches_feed {kept : Text} (read : TerminalRead)
    (h : Reaches language first ⟨.waiting kept, s⟩) :
    Reaches language first (feed language kept read s).stage := by
  have hnext := reaches_advance read h
  unfold Stage.advance at hnext
  unfold feed
  dsimp only at hnext ⊢
  generalize s.console.take language.isComplete Message.prompt kept read = taken at hnext ⊢
  obtain ⟨outcome, console⟩ := taken
  cases outcome with
  | ended | failed => exact hnext
  | interrupted => exact reaches_proceed [] hnext
  | read reading =>
    cases reading with
    | incomplete lines => exact hnext
    | blank => exact reaches_proceed [] hnext
    | complete lines statement queued =>
      exact reaches_evaluate (fun t ht => reaches_proceed queued ht) hnext

theorem reaches_resume {progress : Progress σ} (h : Reaches language first progress.stage)
    (reads : List TerminalRead) : ∃ stage, Reaches language first stage ∧
      stage.session = (resume language progress reads).session := by
  induction reads generalizing progress with
  | nil =>
    rcases progress with ⟨kept, s⟩ | ⟨outcome, s⟩
    · exact ⟨_, h, rfl⟩
    · exact ⟨_, h, rfl⟩
  | cons read reads ih =>
    rcases progress with ⟨kept, s⟩ | ⟨outcome, s⟩
    · exact ih (reaches_feed read h)
    · exact ⟨_, h, rfl⟩

/-- **A run takes one of the paths**, without interrupts between its statements. -/
theorem reaches_run (language : Language) (reads : List TerminalRead) (s : Session σ) :
    ∃ stage, Reaches language ⟨.between [], s⟩ stage ∧
      stage.session = (run language reads s).session :=
  reaches_resume (reaches_proceed [] ⟨[], .here⟩) reads

end Path

/-- **An interrupt hits the statement that runs, and no other.**  A session runs with a gateway that
does nothing to the interrupts but raise some, on whatever the terminal delivers, and interrupts
arrive besides between its statements.  Then at every stage the handler is that of the beginning.
Every dispatch began with a token that was not cancelled; the interrupts meanwhile were handled, and
cancelled the token exactly if there were any; and its token stays as the dispatch left it.  The
loop of sessions takes such a path.  In general, guards that are well nested leave the handler as it
was. -/
theorem interrupts_hit_what_runs (honly : Gateway.OnlyRaises P Q) (language : Language)
    (s : Session σ) (hs : P s.gateway)
    (hmade : ∀ token, s.console.interrupts.handler = some (.cancel token) →
      token < s.console.interrupts.cancelled.length) :
    (∀ dispatches stage, Path language ⟨.between [], s⟩ dispatches stage →
      stage.session.console.operations =
        s.console.operations ++ dispatches.map (·.operation) ∧
      stage.session.console.interrupts.handler = s.console.interrupts.handler ∧
      ∀ d ∈ dispatches, d.Confined ∧
        stage.session.console.interrupts.isCancelled d.token = d.ended.isCancelled d.token) ∧
    (∀ reads, ∃ dispatches stage, Path language ⟨.between [], s⟩ dispatches stage ∧
      stage.session = (run language reads s).session) ∧
    ∀ steps, Guarded.WellNested steps → ∀ g : Guarded,
      (Guarded.run steps g).interrupts.handler = g.interrupts.handler ∧
        (Guarded.run steps g).saved = g.saved := by
  refine ⟨?_, ?_, ?_⟩
  · intro dispatches stage hpath
    have h := keeps_of_path honly hs hmade hpath
    refine ⟨h.operations, h.interrupts.handler, ?_⟩
    intro d hd
    exact ⟨h.interrupts.confined d hd, h.interrupts.left d hd⟩
  · intro reads
    obtain ⟨stage, ⟨dispatches, hpath⟩, hsession⟩ := Path.reaches_run language reads s
    exact ⟨dispatches, stage, hpath, hsession⟩
  · intro steps hnested g
    exact Guarded.run_of_wellNested hnested g

/-- A session whose gateway raises an interrupt while it works on a modification; outside of
statements a name is noted instead. -/
def interrupted : Session Rehearsal :=
  start { keeping with line := .live }
    { Console.ofSink .unlimited false .transcript with
      interrupts := ⟨some (.note "bell"), [], [], []⟩ }
    .interactive

theorem interrupts_hit_what_runs_insert :
    let reads := [.line "INSERT INTO a SELECT 1; HELP;"]
    interrupted.gateway.source.cancelAfter = none ∧
      (run .standard reads interrupted).session.console.interrupts =
        ⟨some (.note "bell"), [true, false], [], [true]⟩ ∧
      ∃ dispatches stage, Path .standard ⟨.between [], interrupted⟩ dispatches stage ∧
        stage.session = (run .standard reads interrupted).session ∧
        (run .standard reads interrupted).session.console.operations =
          dispatches.map (·.operation) ∧
        ∀ d ∈ dispatches, d.Confined := by
  intro reads
  obtain ⟨hpaths, hruns, -⟩ := interrupts_hit_what_runs Rehearsal.onlyRaises .standard interrupted
    rfl (fun token htoken => by cases htoken)
  obtain ⟨dispatches, stage, hpath, hsession⟩ := hruns reads
  obtain ⟨hoperations, -, hconfined⟩ := hpaths dispatches stage hpath
  refine ⟨rfl, by decide +kernel, dispatches, stage, hpath, hsession, ?_, ?_⟩
  · exact hsession ▸ hoperations
  · intro d hd
    exact (hconfined d hd).1

end SqlConsole.Session
