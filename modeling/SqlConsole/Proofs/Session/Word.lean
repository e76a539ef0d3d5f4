import SqlConsole.Proofs.Gateway.Replies
import SqlConsole.Proofs.Session.Crashes
import SqlConsole.Proofs.Session.Fold
/-!
# Nothing makes a session report a broken word

A failure is internal if only a collaborator that breaks its word explains it.  There are two
collaborators, and neither does.

* The local gateway fulfils what it is asked, so no dispatch fails internally, in whatever state
  (`not_internal_dispatch`).
* The language parses the text that was read and no other, since statements are read without the
  blanks around them.  So a session runs as if the two texts were never compared (`run_unchecked`).

What is left are failures that an interactive session forgives.  So it ends well exactly if no
statement is performed that crashes (`success_iff`), over a tableau that is wider than texts can be.
-/

namespace SqlConsole

/-- The language that never finds the parsed text to differ from what was read. -/
def Language.unchecked : Language := { Language.standard with parsedText := id }

namespace Session

variable {σ φ : Type} [ResultSource φ] [Gateway.Over σ φ]

/-! ## The gateway -/

/-- **No operation makes the local gateway break its word**, in any state of the session. -/
theorem not_internal_dispatch (op : Operation) (token : CancelToken) (s : Session Local) :
    ∀ f, (dispatch op token s).1 = .error (.failure f) → f.isInternal = false := by
  intro f hf
  have hsound : (stopping (σ := Local) fun stop =>
      ∀ f, stop = .failure f → f.isInternal = false).Sound := by
    refine stopping_sound ?_ ?_ ?_ ?_
    all_goals
      intros
      next heq => rw [← Stop.failure.inj heq]; rfl
  have hanswer := (dispatch_stopping hsound nofun
    (fun _ _ _ _ _ h => .inr (Local.fulfils_handle h)) op token s).2
  rw [hf] at hanswer
  exact hanswer f rfl

/-! ## The language -/

/-- A statement without blanks around it is evaluated alike with and without the comparison. -/
theorem evaluate_unchecked {statement : Text} (h : Text.trim statement = statement)
    (s : Session σ) : evaluate .standard statement s = evaluate .unchecked statement s := by
  have hsame : Language.standard.parsedText statement = statement := h
  have hid : Language.unchecked.parsedText statement = statement := rfl
  have hparse : Language.unchecked.parse = Language.standard.parse := rfl
  unfold evaluate
  simp only [hsame, hid, hparse, if_true]

theorem proceed_unchecked {queued : List Text} (h : ∀ q ∈ queued, Text.trim q = q)
    (s : Session σ) : proceed .standard queued s = proceed .unchecked queued s := by
  induction queued generalizing s with
  | nil => rw [proceed.eq_def, proceed.eq_def]
  | cons statement queued ih =>
    obtain ⟨hstatement, hqueued⟩ := List.forall_mem_cons.1 h
    rw [proceed.eq_def, proceed.eq_def]
    simp only [evaluate_unchecked hstatement, ih hqueued]

/-- What a terminal delivers are statements without blanks around them. -/
theorem trim_of_take {c : Console} {prompt kept : Text} {read : TerminalRead} {reading : Reading}
    (h : (c.take Script.isComplete prompt kept read).1 = .read reading) :
    ∀ q ∈ reading.statements, Text.trim q = q := by
  intro q hq
  cases read with
  | ended | failed | interrupted => cases h
  | line line =>
    unfold Console.take at h
    dsimp only at h
    split at h
    · cases h
    · obtain rfl := ReadOutcome.read.inj h
      exact trim_of_mem_statements hq

/-- What a session does with what came of a read. -/
def takeUp (language : Language) (outcome : ReadOutcome) (s : Session σ) : Progress σ :=
  match outcome with
  | .ended => .over .success s
  | .failed reason => .over .success (closeInput reason s)
  | .interrupted | .read .blank => proceed language [] s
  | .read (.incomplete lines) => await lines s
  | .read (.complete _ first others) =>
    match evaluate language first s with
    | (none, s) => proceed language others s
    | (some outcome, s) => .over outcome s

theorem feed_apply (language : Language) (kept : Text) (read : TerminalRead) (s : Session σ) :
    feed language kept read s =
      let taken := s.console.take language.isComplete Message.prompt kept read
      takeUp language taken.1 { s with console := taken.2 } := by
  unfold feed takeUp
  rcases s.console.take language.isComplete Message.prompt kept read with ⟨outcome, console⟩
  rfl

theorem takeUp_unchecked {outcome : ReadOutcome}
    (h : ∀ reading, outcome = .read reading → ∀ q ∈ reading.statements, Text.trim q = q)
    (s : Session σ) : takeUp .standard outcome s = takeUp .unchecked outcome s := by
  unfold takeUp
  cases outcome with
  | ended | failed => dsimp only
  | interrupted => exact proceed_unchecked (by simp) s
  | read reading =>
    cases reading with
    | incomplete lines => dsimp only
    | blank => exact proceed_unchecked (by simp) s
    | complete lines first others =>
      obtain ⟨hfirst, hothers⟩ := List.forall_mem_cons.1 (h _ rfl)
      simp only [evaluate_unchecked hfirst, proceed_unchecked hothers]

theorem feed_unchecked (kept : Text) (read : TerminalRead) (s : Session σ) :
    feed .standard kept read s = feed .unchecked kept read s := by
  have hstandard : Language.standard.isComplete = Script.isComplete := by
    simp only [Language.standard]
  have hunchecked : Language.unchecked.isComplete = Script.isComplete := by
    simp only [Language.unchecked, Language.standard]
  rw [feed_apply, feed_apply, hstandard, hunchecked]
  exact takeUp_unchecked (fun reading h => trim_of_take h) _

theorem resume_unchecked (reads : List TerminalRead) (progress : Progress σ) :
    resume .standard progress reads = resume .unchecked progress reads := by
  induction reads generalizing progress with
  | nil => cases progress <;> simp only [resume]
  | cons read reads ih =>
    cases progress with
    | waiting kept s =>
      rw [resume, resume, feed_unchecked]
      exact ih _
    | _ => simp only [resume]

/-- **The parsed text is always the statement that was read**, so comparing the two changes no
run. -/
theorem run_unchecked (reads : List TerminalRead) (s : Session σ) :
    run .standard reads s = run .unchecked reads s := by
  unfold run
  rw [proceed_unchecked (by simp), resume_unchecked]

/-! ## Interactive sessions -/

omit [ResultSource φ] [Gateway.Over σ φ] in
/-- An interactive session forgives every failure that is not internal. -/
theorem verdictOn_of_not_internal {f : Failure} (h : f.isInternal = false) :
    verdictOn .interactive f = none := by
  unfold verdictOn
  rw [h]
  rfl

/-- No statement ends an interactive session with a failure. -/
theorem performStatement_ne_failure (statement : Text) (s : Session Local) :
    (performStatement .interactive statement s).1 ≠ some .failure := by
  rw [performStatement_eq]
  cases Statement.parse (Text.trim statement) with
  | error fault =>
    have hforgiven : verdictOn .interactive (.parse fault) = none := verdictOn_of_not_internal rfl
    dsimp only
    rw [hforgiven]
    nofun
  | ok found =>
    cases found with
    | none => nofun
    | some op =>
      dsimp only
      split
      · dsimp only
        split <;> nofun
      · next f t heq =>
        have hf := not_internal_dispatch op _ _ f (congrArg Prod.fst heq)
        rw [verdictOn_of_not_internal hf]
        nofun
      · nofun

/-- **An interactive session ends well exactly if no statement is performed that crashes.** -/
theorem success_iff (g : Local) {console : Console} (h : console.sink.room = none)
    (reads : List TerminalRead) :
    (run .standard reads (start g console .interactive)).outcome = .success ↔
      ∀ statement t,
        Performs .interactive (console.readAll Script.isComplete Message.prompt [] reads).1
          (start g console .interactive) statement t → ∀ why, ¬ Crashes statement why t := by
  constructor
  · intro hsuccess statement t hperforms why hcrashes
    have hcrash := (crash_iff g h .interactive reads why).2 ⟨statement, t, hperforms, hcrashes⟩
    rw [hsuccess] at hcrash
    cases hcrash
  · intro hnone
    cases houtcome : (run .standard reads (start g console .interactive)).outcome with
    | success => rfl
    | failure =>
      have hbad : Outcome.failure ≠ .success := nofun
      rw [(run_follows g h .interactive reads).1, performAll_eq_iff hbad] at houtcome
      obtain ⟨statement, t, -, hfailure⟩ := houtcome
      exact (performStatement_ne_failure statement t hfailure).elim
    | crash why =>
      obtain ⟨statement, t, hperforms, hcrashes⟩ :=
        (crash_iff g h .interactive reads why).1 houtcome
      exact (hnone statement t hperforms why hcrashes).elim

/-- **No input makes the client report a bug in itself.**  With the local gateway no dispatch fails
internally; with the language of statements the comparison of the parsed text with what was read
changes nothing, as every statement that is read is its own parsed text.  And so an interactive
session at a console that accepts all output ends well on whatever is read, exactly if none of the
statements that are performed crashes; and one crashes only over a tableau with a column that is
wider than texts can be. -/
theorem never_internal (g : Local) {console : Console} (h : console.sink.room = none)
    (reads : List TerminalRead) :
    let first := start g console .interactive
    let statements := (console.readAll Script.isComplete Message.prompt [] reads).1
    (∀ (s : Session Local) (op : Operation) (token : CancelToken) (f : Failure),
      (dispatch op token s).1 = .error (.failure f) → f.isInternal = false) ∧
    (∀ (kept line q : Text), q ∈ (Reading.addLine Script.isComplete kept line).statements →
      Language.standard.parsedText q = q) ∧
    (∀ (σ φ : Type) [ResultSource φ] [Gateway.Over σ φ] (reads : List TerminalRead)
      (s : Session σ), run .standard reads s = run .unchecked reads s) ∧
    ((run .standard reads first).outcome = .success ↔
      ∀ statement t, Performs .interactive statements first statement t →
        ∀ why, ¬ Crashes statement why t) ∧
    ∀ (statement : Text) (why : Crash) (s : Session Local), Crashes statement why s →
      let i := s.console.interrupts
      ∃ op t, Statement.parse (Text.trim statement) = .ok (some op) ∧
        Draws i.newToken.1 (s.withInterrupts (i.newToken.2.install i.newToken.1).2) op t ∧
          ¬ t.Within Tableau.maxFill := by
  refine ⟨?_, ?_, ?_, success_iff g h reads, ?_⟩
  · intro s op token f hf
    exact not_internal_dispatch op token s f hf
  · intro kept line q hq
    exact trim_of_mem_statements hq
  · intro σ φ _ _ reads s
    exact run_unchecked reads s
  · intro statement why s hcrashes
    exact hcrashes.exists_draws

/-- Statements that fail in the parser, at the guard and in the gateway, and a broken input. -/
def faultyReads : List TerminalRead :=
  [.line "END; SHOW CREATE TABLE t; SELECT", .interrupted,
    .line "STOP JOB 'x' WITH SAVEPOINT; SET 'a", .line "';", .failed "connection lost"]

/-- A local session at a terminal. -/
def localSession : Session Local :=
  start (Local.ofDefaults ∅ Local.defaultSavepointDir {}) (.ofSink .unlimited true .editor)
    .interactive

theorem never_internal_faultyReads :
    localSession.console.sink.room = none ∧
      (run .standard faultyReads localSession).outcome = .success ∧
      ∀ statement t, Performs .interactive
        (localSession.console.readAll Script.isComplete Message.prompt [] faultyReads).1
        localSession statement t → ∀ why, ¬ Crashes statement why t := by
  have hroom : localSession.console.sink.room = none := rfl
  have hsuccess : (run .standard faultyReads localSession).outcome = .success := by
    decide +kernel
  obtain ⟨-, -, -, hwell, -⟩ := never_internal localSession.gateway hroom faultyReads
  exact ⟨hroom, hsuccess, hwell.1 hsuccess⟩

/-- A query whose result is streamed into a tableau of the greatest width that a session accepts. -/
def widestReads : List TerminalRead :=
  [.line "SET 'sql-client.display.max-column-width' = '18446744073709551615';",
    .line "SET 'sql-client.execution.result-mode' = 'tableau'; SELECT 1;"]

/-- Its border cannot be drawn, and the session is over. -/
theorem widestReads_crash :
    localSession.console.sink.room = none ∧
      (run .standard widestReads localSession).outcome = .crash .sum := by
  refine ⟨rfl, ?_⟩
  decide +kernel

end Session

end SqlConsole
