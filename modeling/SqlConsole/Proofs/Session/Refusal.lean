import SqlConsole.Proofs.Console.Refusal
import SqlConsole.Proofs.Session.Fold
import SqlConsole.Proofs.Session.Steps
import SqlConsole.Proofs.Session.Terms
/-!
# Sessions whose output is refused

Every step of a session fails at the first text that is refused, and so does every operation
(`heeds_perform`).  The failure is reported, which is refused as well, and nobody is told.  Where
the mode goes on behind failures, the loop comes to the line between two statements; it is refused,
and that ends the session in every mode (`stops_proceed`).

So the output that fails stops a session, wherever the limit falls: behind the first refusal nothing
is asked of the gateway, fetched, dispatched or read, and a modification whose announcement is
refused is not handed over (`nothing_behind_refusal`).
-/

namespace SqlConsole.Session

open Console

variable {σ : Type}

/-! ## Operations -/

theorem heeds_atConsole {α : Type} {m : ConsoleM α} (hm : Heeds id m) :
    Heeds Session.console (atConsole m : SessionM σ α) :=
  fun s => hm s.console

variable {φ : Type} [ResultSource φ] [Gateway.Over σ φ]

omit [ResultSource φ] in
/-- Asking writes nothing. -/
theorem heeds_ask (r : Request) (token : CancelToken) (attempt : Text) :
    Heeds Session.console (ask (σ := σ) r token attempt) :=
  fun _ => stops_of_journal_append [.asked r] rfl (by simp)

theorem heeds_of_built {α : Type} {token : CancelToken} {m : SessionM σ α} (h : Built token m) :
    Heeds Session.console m := by
  induction h with
  | pure a => exact .pure a
  | throw f => exact .throw f
  | write t => exact heeds_atConsole (heeds_write t)
  | put | halt => exact .of_journal_eq fun _ => rfl
  | ask r attempt => exact heeds_ask r token attempt
  | showing statement attempt _ ih =>
    refine (heeds_ask (.query statement) token attempt).bind fun (d : Descriptor φ) => ?_
    exact (heeds_atConsole (View.heeds_present d.mode d token)).bind fun _ => ih d.mode
  | read _ ih => exact .get_bind ih
  | bind _ _ ihm ihf => exact ihm.bind ihf

/-- **Every operation fails at the first text that is refused.** -/
theorem heeds_perform (op : Operation) (token : CancelToken) :
    Heeds Session.console (perform (σ := σ) op token) :=
  heeds_of_built (built_perform op token)

theorem heeds_dispatch (op : Operation) (token : CancelToken) :
    Heeds Session.console (dispatch (σ := σ) op token) := by
  intro s
  have hnoted : Stops s.console (s.console.note (.dispatched op)) False := stops_note (by simp) _
  rw [dispatch_apply]
  cases admits op s with
  | error denial => exact hnoted.trans id (stops_of_journal_eq rfl)
  | ok _ => exact hnoted.trans id (heeds_perform op token _)

theorem heeds_dispatchInterruptibly (op : Operation) :
    Heeds Session.console (dispatchInterruptibly (σ := σ) op) :=
  fun s => heeds_dispatch op s.console.interrupts.newToken.1 (s.withInterrupts
    (s.console.interrupts.newToken.2.install s.console.interrupts.newToken.1).2)

/-! ## The loop -/

variable {c : Console} {p : Prop}

omit [ResultSource φ] in
/-- A failure is reported behind what failed, and the report may be refused as well. -/
theorem stops_recover {s : Session σ} (h : Stops c s.console p) (f : Failure) :
    Stops c (recover f s).2.console True :=
  (h.put (by simp)).imp fun _ => trivial

/-- A statement stops at the first text that is refused, though nobody is told. -/
theorem stops_evaluate (language : Language) (statement : Text) (s : Session σ) :
    Stops s.console (evaluate language statement s).2.console True := by
  have hnothing : Stops s.console s.console True := stops_of_journal_eq rfl
  unfold evaluate
  split
  · exact hnothing
  split
  · exact stops_recover hnothing _
  · exact hnothing
  · next op _ =>
    have hdispatched := heeds_dispatchInterruptibly op s
    split
    · split
      · next heq =>
        rw [heq] at hdispatched
        exact hdispatched.imp fun _ => trivial
      · next heq =>
        rw [heq] at hdispatched
        exact stops_recover hdispatched _
      · next heq =>
        rw [heq] at hdispatched
        exact hdispatched.imp fun _ => trivial
    · exact stops_recover hnothing _

/-- The session is over. -/
def Progress.IsOver : Progress σ → Prop
  | .waiting _ _ => False
  | .over _ _ => True

omit [ResultSource φ] [Gateway.Over σ φ] in
/-- Where the prompt is refused, the input is closed. -/
theorem stops_await (kept : Text) (s : Session σ) :
    Stops s.console (await kept s).session.console (await kept s).IsOver := by
  have hasked : Stops s.console (s.console.awaitLine Message.prompt kept).2
      ((s.console.awaitLine Message.prompt kept).1 = false) := by
    have hread : Stops s.console (s.console.note .read) False := stops_note (by simp) _
    unfold awaitLine
    dsimp only
    split
    · exact hread.imp False.elim
    · exact hread.trans id (stops_put _ _)
  unfold await
  split
  · next heq =>
    rw [heq] at hasked
    exact hasked.imp (by simp)
  · next heq =>
    rw [heq] at hasked
    exact (hasked.put (by simp)).imp fun _ => trivial

/-- What comes behind the line between two statements comes only where that was written. -/
def behindLine (next : Session σ → Progress σ) (s : Session σ) : Progress σ :=
  if !s.running then .over .success s
  else match s.console.put ['\n'] with
    | (false, console) => .over .failure { s with console }
    | (true, console) => next { s with console }

theorem proceed_nil (language : Language) :
    proceed (σ := σ) language [] = behindLine (await []) := by
  funext s
  rw [proceed.eq_def]
  rfl

theorem proceed_cons (language : Language) (statement : Text) (queued : List Text) :
    proceed (σ := σ) language (statement :: queued) = behindLine fun s =>
      match evaluate language statement s with
      | (none, s) => proceed language queued s
      | (some outcome, s) => .over outcome s := by
  funext s
  rw [proceed.eq_def]
  rfl

omit [ResultSource φ] [Gateway.Over σ φ] in
theorem stops_behindLine {next : Session σ → Progress σ} {s : Session σ} (h : Stops c s.console p)
    (hnext : ∀ t : Session σ, Stops c t.console False →
      Stops c (next t).session.console (next t).IsOver) :
    Stops c (behindLine next s).session.console (behindLine next s).IsOver := by
  have hline : Stops c (s.console.put ['\n']).2 ((s.console.put ['\n']).1 = false) :=
    h.put (by simp)
  unfold behindLine
  split
  · exact h.imp fun _ => trivial
  split
  · next heq =>
    rw [heq] at hline
    exact hline.imp fun _ => trivial
  · next console heq =>
    rw [heq] at hline
    exact hnext { s with console } (hline.imp (by simp))

/-- **The line between two statements is where a session ends** whose output was refused before. -/
theorem stops_proceed (language : Language) (queued : List Text) {s : Session σ}
    (h : Stops c s.console p) :
    Stops c (proceed language queued s).session.console (proceed language queued s).IsOver := by
  induction queued generalizing s p with
  | nil =>
    rw [proceed_nil]
    exact stops_behindLine h fun t hline => hline.trans id (stops_await [] t)
  | cons statement queued ih =>
    rw [proceed_cons]
    refine stops_behindLine h fun t hline => ?_
    have hevaluated := hline.trans id (stops_evaluate language statement t)
    split
    · next heq =>
      rw [heq] at hevaluated
      exact ih hevaluated
    · next heq =>
      rw [heq] at hevaluated
      exact hevaluated

/-- A line that cannot be echoed breaks the input. -/
theorem stops_take (isComplete : Text → Bool) (prompt kept : Text) (read : TerminalRead)
    (c : Console) :
    Stops c (c.take isComplete prompt kept read).2
      (∃ reason, (c.take isComplete prompt kept read).1 = .failed reason) := by
  cases read with
  | ended | failed | interrupted => exact stops_of_journal_eq rfl
  | line line =>
    have hecho : Stops c (c.echoLine prompt kept line).2
        ((c.echoLine prompt kept line).1 = false) := by
      unfold echoLine
      split
      · exact stops_put _ _
      · exact stops_of_journal_eq rfl
    unfold take
    dsimp only
    split
    · next heq =>
      rw [heq] at hecho
      exact hecho.imp fun _ => ⟨_, rfl⟩
    · next heq =>
      rw [heq] at hecho
      refine hecho.trans (by simp) (stops_of_journal_eq ?_)
      cases Reading.addLine isComplete kept line <;> rfl

theorem stops_feed (language : Language) (kept : Text) (read : TerminalRead) {s : Session σ}
    (h : Stops c s.console False) :
    Stops c (feed language kept read s).session.console (feed language kept read s).IsOver := by
  have htaken := h.trans id (stops_take language.isComplete Message.prompt kept read s.console)
  unfold feed
  generalize s.console.take language.isComplete Message.prompt kept read = taken at htaken
  obtain ⟨outcome, console⟩ := taken
  cases outcome with
  | ended => exact htaken.imp fun _ => trivial
  | failed reason => exact (htaken.put (by simp)).imp fun _ => trivial
  | interrupted => exact stops_proceed language _ htaken
  | read reading =>
    cases reading with
    | incomplete lines => exact htaken.trans (by simp) (stops_await lines _)
    | blank => exact stops_proceed language _ htaken
    | complete lines first others =>
      have hevaluated := htaken.trans (by simp) (stops_evaluate language first { s with console })
      dsimp only
      split
      · next heq =>
        rw [heq] at hevaluated
        exact stops_proceed language _ hevaluated
      · next heq =>
        rw [heq] at hevaluated
        exact hevaluated

/-- No read is taken behind a refusal: more reads would have been left where these end. -/
theorem stops_resume (language : Language) {progress : Progress σ}
    (h : Stops c progress.session.console progress.IsOver) (reads : List TerminalRead) :
    Stops c (resume language progress reads).session.console (∀ more,
      resume language progress (reads ++ more) =
        { resume language progress reads with
          unread := (resume language progress reads).unread ++ more }) := by
  induction reads generalizing progress with
  | nil =>
    rcases progress with ⟨kept, s⟩ | ⟨outcome, s⟩
    · exact h.imp False.elim
    · exact h.imp fun _ more => by simp [resume]
  | cons read reads ih =>
    -- a session that waits for a line has had nothing refused
    rcases progress with ⟨kept, s⟩ | ⟨outcome, s⟩
    · exact ih (stops_feed language kept read h)
    · exact h.imp fun _ more => by simp [resume]

/-! ## Runs -/

omit [ResultSource φ] in
/-- An announcement that is refused is the last of a submission. -/
theorem submit_of_refused {s : Session σ} (ms : List Modify) (token : CancelToken)
    (h : (s.console.put (Message.info s.console.styled Message.submitting ++ ['\n'])).1 = false) :
    submit ms token s = (.error full, { s with
      console := (s.console.put (Message.info s.console.styled Message.submitting ++ ['\n'])).2 }) := by
  have hinform : inform Message.submitting s = (.error full, { s with
      console := (s.console.put (Message.info s.console.styled Message.submitting ++ ['\n'])).2 }) := by
    have hwrite := write_apply (Message.info s.console.styled Message.submitting ++ ['\n']) s.console
    rw [h] at hwrite
    change ((write _ s.console).1, { s with console := (write _ s.console).2 }) = _
    rw [hwrite]
    rfl
  rw [submit_eq, Respects.run_bind, hinform]

/-- **Output that fails stops the session.**  Whatever is read, in whatever language, mode and state
a session begins, and wherever the limit of its output falls: behind the first text that is refused
nothing is asked of the gateway, no batch is fetched, nothing is dispatched and no line is read;
only further texts are refused, and a result that was being shown is given up.  What the terminal
would have delivered besides is left unread, and the session ends as it does without it.
Modifications whose announcement is refused are not handed over: the refusal is all that happens. -/
theorem nothing_behind_refusal (language : Language) (reads : List TerminalRead) (s : Session σ) :
    (∃ events,
      (run language reads s).session.console.journal = s.console.journal ++ events ∧
      Hushed events ∧
      (.refused ∈ events → ∀ more, run language (reads ++ more) s =
        { run language reads s with unread := (run language reads s).unread ++ more })) ∧
    ∀ (t : Session σ) (ms : List Modify) (token : CancelToken),
      let announced := t.console.put (Message.info t.console.styled Message.submitting ++ ['\n'])
      announced.1 = false →
        submit ms token t = (.error full, { t with console := announced.2 }) ∧
          announced.2.journal = t.console.journal ++ [.refused] := by
  have hbegun : Stops s.console s.console False := stops_of_journal_eq rfl
  refine ⟨?_, fun t ms token hrefused => ⟨submit_of_refused ms token hrefused, ?_⟩⟩
  · obtain ⟨events, hjournal, hhushed, hleft⟩ :=
      stops_resume language (stops_proceed language [] hbegun) reads
    exact ⟨events, hjournal, hhushed, fun hin => (hleft hin).2⟩
  · obtain ⟨haccepted, -⟩ | ⟨-, hjournal, -⟩ :=
      put_cases (Message.info t.console.styled Message.submitting ++ ['\n']) t.console
    · have hboth : true = false := haccepted.symm.trans hrefused
      cases hboth
    · exact hjournal

/-- A session whose output ends in the middle of the first announcement. -/
def shortOfSpace : Session Rehearsal :=
  start keeping (.ofSink (.ofLimit (some 50)) false .transcript) .interactive

/-- A modification, a query behind it on its line, and a statement on the next. -/
def readsWithModify : List TerminalRead :=
  [.line "INSERT INTO a SELECT 1; SELECT 2;", .line "DROP TABLE t;"]

theorem nothing_behind_refusal_announcement :
    let ending := run .standard readsWithModify shortOfSpace
    let announced := shortOfSpace.console.put (Message.info false Message.submitting ++ ['\n'])
    .refused ∈ ending.session.console.journal ∧ announced.1 = false ∧
      ending.unread = [.line "DROP TABLE t;"] ∧ ending.session.gateway.calls = [] ∧
      (∃ events, ending.session.console.journal = [] ++ events ∧ Hushed events ∧
        (.refused ∈ events → ∀ more, run .standard (readsWithModify ++ more) shortOfSpace =
          { ending with unread := ending.unread ++ more })) ∧
      ∀ ms token, submit ms token shortOfSpace =
        (.error full, { shortOfSpace with console := announced.2 }) := by
  have hrefused : (shortOfSpace.console.put
      (Message.info false Message.submitting ++ ['\n'])).1 = false := by decide +kernel
  obtain ⟨hrun, hsubmit⟩ := nothing_behind_refusal .standard readsWithModify shortOfSpace
  refine ⟨by decide +kernel, hrefused, by decide +kernel, by decide +kernel, hrun, ?_⟩
  exact fun ms token => (hsubmit shortOfSpace ms token hrefused).1

end SqlConsole.Session
