import SqlConsole.Gateway.Rehearsal
import SqlConsole.Proofs.Session.Reading
import SqlConsole.Proofs.Session.Stable
import SqlConsole.Proofs.Statement.Opening
import SqlConsole.Session.Loop
/-!
# A session is a fold over its statements

`Session.performAll` performs statements one after the other until one of them ends it: `QUIT`, a
failure that the mode does not forgive, or a crash.  It knows nothing of lines, prompts and reports.
The loop of a session reads lines, keeps what is not complete, queues what is read together, and
reports failures; yet where all output is accepted it does the same (`run_eq_performAll`).  The
induction is on what the terminal delivers, and inside it on the statements that wait to be
evaluated; both carry the agreement of the two sessions.
-/

namespace SqlConsole.Session

/-! ## Statements one after the other -/

/-- How a failure ends a session, if it does: where a collaborator broke its word, and where the
mode ends with the first failure. -/
def verdictOn (mode : Mode) (f : Failure) : Option Outcome :=
  if f.isInternal || mode.exitsOnFailure then some .failure else none

variable {σ φ : Type} [ResultSource φ] [Gateway.Over σ φ]

/-- Perform the operation that a statement spells, if it spells one, and say how the session ends if
the statement ends it. -/
def performStatement (mode : Mode) (statement : Text) (s : Session σ) :
    Option Outcome × Session σ :=
  if (Text.trim statement).isEmpty then (none, s)
  else match Statement.parse (Text.trim statement) with
    | .error fault => (verdictOn mode (.parse fault), s)
    | .ok none => (none, s)
    | .ok (some op) =>
      match dispatchInterruptibly op s with
      | (.ok (), s) => (if op = .quit then some .success else none, s)
      | (.error (.failure f), s) => (verdictOn mode f, s)
      | (.error (.crash why), s) => (some (.crash why), s)

/-- Perform statements until one of them ends the session, and say how it ends. -/
def performAll (mode : Mode) : List Text → Session σ → Outcome × Session σ
  | [], s => (.success, s)
  | statement :: statements, s =>
    match performStatement mode statement s with
    | (none, s) => performAll mode statements s
    | (some outcome, s) => (outcome, s)

/-- Which of some statements is performed at which session: those in front of it did not end it. -/
inductive Performs (mode : Mode) : List Text → Session σ → Text → Session σ → Prop
  | first {statement : Text} {behind : List Text} {s : Session σ} :
    Performs mode (statement :: behind) s statement s
  | next {first statement : Text} {behind : List Text} {s t u : Session σ}
    (goesOn : performStatement mode first s = (none, t))
    (performs : Performs mode behind t statement u) : Performs mode (first :: behind) s statement u

/-- A statement spells an operation that crashes. -/
def Crashes (statement : Text) (why : Crash) (s : Session σ) : Prop :=
  ∃ op, Statement.parse (Text.trim statement) = .ok (some op) ∧
    (dispatchInterruptibly op s).1 = .error (.crash why)

/-- Blank statements spell nothing, so they need no case of their own. -/
theorem performStatement_eq (mode : Mode) (statement : Text) (s : Session σ) :
    performStatement mode statement s =
      match Statement.parse (Text.trim statement) with
      | .error fault => (verdictOn mode (.parse fault), s)
      | .ok none => (none, s)
      | .ok (some op) =>
        match dispatchInterruptibly op s with
        | (.ok (), t) => (if op = .quit then some .success else none, t)
        | (.error (.failure f), t) => (verdictOn mode f, t)
        | (.error (.crash why), t) => (some (.crash why), t) := by
  unfold performStatement
  split
  · next hblank => rw [List.isEmpty_iff.1 hblank, Statement.parse_nil]
  · rfl

/-- A verdict on a failure is no crash. -/
theorem verdictOn_ne_crash (mode : Mode) (f : Failure) (why : Crash) :
    verdictOn mode f ≠ some (.crash why) := by
  unfold verdictOn
  split <;> nofun

/-- A statement crashes exactly if the operation that it spells does. -/
theorem performStatement_eq_crash_iff {mode : Mode} {statement : Text} {s : Session σ}
    {why : Crash} :
    (performStatement mode statement s).1 = some (.crash why) ↔ Crashes statement why s := by
  rw [performStatement_eq, Crashes]
  cases Statement.parse (Text.trim statement) with
  | error fault => exact iff_of_false (verdictOn_ne_crash mode _ why) (by simp)
  | ok found =>
    cases found with
    | none => exact iff_of_false nofun (by simp)
    | some op =>
      simp only [Except.ok.injEq, Option.some.injEq, exists_eq_left']
      rcases dispatchInterruptibly op s with ⟨answer | answer, t⟩
      · cases answer with
        | failure f => exact iff_of_false (verdictOn_ne_crash mode f why) nofun
        | crash other => simp
      · refine iff_of_false ?_ nofun
        dsimp only
        split <;> nofun

/-- **Statements end badly exactly if one of them is performed that ends them so.** -/
theorem performAll_eq_iff {mode : Mode} {outcome : Outcome} (h : outcome ≠ .success)
    (statements : List Text) (s : Session σ) :
    (performAll mode statements s).1 = outcome ↔
      ∃ statement t, Performs mode statements s statement t ∧
        (performStatement mode statement t).1 = some outcome := by
  induction statements generalizing s with
  | nil =>
    refine iff_of_false (fun hsuccess => h hsuccess.symm) ?_
    rintro ⟨_, _, hperforms, _⟩
    cases hperforms
  | cons first behind ih =>
    rw [performAll]
    rcases hfirst : performStatement mode first s with ⟨_ | ended, t⟩
    · dsimp only
      rw [ih]
      constructor
      · rintro ⟨statement, u, hperforms, hends⟩
        exact ⟨statement, u, .next hfirst hperforms, hends⟩
      · rintro ⟨statement, u, hperforms, hends⟩
        cases hperforms with
        | first =>
          rw [hfirst] at hends
          cases hends
        | next goesOn performs =>
          rw [hfirst] at goesOn
          obtain rfl := (Prod.mk.inj goesOn).2
          exact ⟨statement, u, performs, hends⟩
    · constructor
      · rintro rfl
        exact ⟨first, s, .first, by rw [hfirst]⟩
      · rintro ⟨statement, u, hperforms, hends⟩
        cases hperforms with
        | first =>
          rw [hfirst] at hends
          exact Option.some.inj hends
        | next goesOn performs =>
          rw [hfirst] at goesOn
          cases goesOn

/-! ## One operation -/

variable {R : Console → Console → Prop} {mode : Mode}

/-- What is known of a session: its mode, and whether it goes on. -/
def Known (mode : Mode) (running : Bool) : Mode → Bool → StatementSet → Prop :=
  fun m r _ => m = mode ∧ r = running

/-- An answer that is no failure. -/
def isOk {α : Type} : Except Stop α → Bool
  | .ok _ => true
  | .error _ => false

omit [ResultSource φ] [Gateway.Over σ φ] in
theorem quit_alike (h : Console.Stable R) {s t : Session σ} (hst : Alike R (Known mode true) s t) :
    (quit s).1 = (quit t).1 ∧ Alike R (Known mode (!isOk (quit s).1)) (quit s).2 (quit t).2 := by
  obtain ⟨hanswer, -, hleft⟩ := respects_inform h Message.quit s t hst
  unfold quit
  rw [Respects.run_bind, Respects.run_bind]
  rcases hs : inform Message.quit s with ⟨answer, s'⟩
  rcases ht : inform Message.quit t with ⟨answer', t'⟩
  rw [hs, ht] at hanswer hleft
  dsimp only at hanswer
  subst hanswer
  cases answer with
  | ok _ =>
    exact ⟨rfl, hleft.console, hleft.gateway, hleft.mode, rfl, hleft.statementSet,
      hleft.known.1, rfl⟩
  | error e => exact ⟨rfl, hleft⟩

theorem dispatch_alike (h : Console.Stable R) (hmodify : KeepsModify R) {s t : Session σ}
    (hst : Alike R (Known mode true) s t) (op : Operation) (token : CancelToken) :
    (dispatch op token s).1 = (dispatch op token t).1 ∧
      Alike R (Known mode (!(op = .quit && isOk (dispatch op token s).1)))
        (dispatch op token s).2 (dispatch op token t).2 := by
  by_cases hquit : op = .quit
  · subst hquit
    rw [dispatch_apply, dispatch_apply, ← hst.admits]
    have hnoted := hst.atConsole (h.note hst.console (.dispatched .quit) (by simp))
    dsimp only
    split
    · exact ⟨rfl, hnoted⟩
    · obtain ⟨hanswer, hleft⟩ := quit_alike h hnoted
      simp only [decide_true, Bool.true_and]
      exact ⟨hanswer, hleft⟩
  · have hset : ForgetsSet (Known mode true) := fun _ _ _ _ hknown => hknown
    obtain ⟨hanswer, -, hleft⟩ := respects_dispatch h hmodify hset (absurd · hquit) token s t hst
    exact ⟨hanswer, by simpa [hquit] using hleft⟩

omit [ResultSource φ] [Gateway.Over σ φ] in
theorem Alike.withInterrupts {P : Mode → Bool → StatementSet → Prop} (h : Console.Stable R)
    {s t : Session σ} (hst : Alike R P s t) (i : Interrupts) :
    Alike R P (s.withInterrupts i) (t.withInterrupts i) :=
  hst.atConsole (h.interrupt hst.console i)

theorem dispatchInterruptibly_alike (h : Console.Stable R) (hmodify : KeepsModify R)
    {s t : Session σ} (hst : Alike R (Known mode true) s t) (op : Operation) :
    (dispatchInterruptibly op s).1 = (dispatchInterruptibly op t).1 ∧
      Alike R (Known mode (!(op = .quit && isOk (dispatchInterruptibly op s).1)))
        (dispatchInterruptibly op s).2 (dispatchInterruptibly op t).2 := by
  rw [dispatchInterruptibly_apply, dispatchInterruptibly_apply, ← h.interrupts hst.console]
  obtain ⟨hanswer, hleft⟩ := dispatch_alike h hmodify (hst.withInterrupts h _) op _
  dsimp only
  rw [← h.interrupts hleft.console]
  exact ⟨hanswer, hleft.withInterrupts h _⟩

/-! ## One statement -/

open Console (Agree)

theorem keepsModify_agree : KeepsModify Agree := by
  intro ms c d h
  refine ⟨h.room_left, h.room_right, h.styled, h.lines, h.interrupts, ?_⟩
  simp only [Console.events, Console.note, List.filter_append]
  exact congrArg (· ++ _) h.events

omit [ResultSource φ] [Gateway.Over σ φ] in
/-- What agrees with the console of a session takes its place. -/
theorem Alike.replace {P : Mode → Bool → StatementSet → Prop} {s t : Session σ}
    (hst : Alike Agree P s t) {c : Console} (hc : Agree s.console c) :
    Alike Agree P { s with console := c } t :=
  ⟨hc.symm.trans hst.console, hst.gateway, hst.mode, hst.running, hst.statementSet, hst.known⟩

omit [ResultSource φ] [Gateway.Over σ φ] in
theorem Alike.put {P : Mode → Bool → StatementSet → Prop} {s t : Session σ}
    (hst : Alike Agree P s t) (text : Text) :
    Alike Agree P { s with console := (s.console.put text).2 } t :=
  hst.replace (Console.agree_put hst.console.room_left text)

/-- How a statement ends the loop at once.  Of `QUIT` the loop learns only when it goes on. -/
def atOnce : Option Outcome → Option Outcome
  | some .success => none
  | verdict => verdict

/-- Whether more statements are wanted. -/
def wantsMore : Option Outcome → Bool
  | some .success => false
  | _ => true

omit [ResultSource φ] in
/-- A failure is reported, and ends the session or not. -/
theorem recover_alike {s t : Session σ} (hst : Alike Agree (Known mode true) s t) (f : Failure) :
    (recover f s).1 = atOnce (verdictOn mode f) ∧
      Alike Agree (Known mode (wantsMore (verdictOn mode f))) (recover f s).2 t := by
  have hreport : Alike Agree (Known mode true) (s.report f) t := hst.put _
  unfold recover verdictOn
  rw [hst.known.1]
  cases f.isInternal || mode.exitsOnFailure with
  | true => exact ⟨rfl, hreport⟩
  | false => exact ⟨rfl, hreport⟩

/-- What is evaluated is performed: the session goes on unless the statement ends it at once, and
more statements are wanted unless it was the last. -/
theorem evaluate_alike {s t : Session σ} (hst : Alike Agree (Known mode true) s t)
    {statement : Text} (htrim : Text.trim statement = statement) :
    let verdict := (performStatement mode statement t).1
    (evaluate .standard statement s).1 = atOnce verdict ∧
      Alike Agree (Known mode (wantsMore verdict)) (evaluate .standard statement s).2
        (performStatement mode statement t).2 := by
  unfold evaluate performStatement
  split
  · exact ⟨rfl, hst⟩
  · simp only [Language.standard]
    cases Statement.parse (Text.trim statement) with
    | error fault => exact recover_alike hst (.parse fault)
    | ok found =>
      cases found with
      | none => exact ⟨rfl, hst⟩
      | some op =>
        obtain ⟨hanswer, hleft⟩ :=
          dispatchInterruptibly_alike Console.stable_agree keepsModify_agree hst op
        simp only [htrim, if_true]
        obtain ⟨answer, s', hs⟩ : ∃ answer s', dispatchInterruptibly op s = (answer, s') :=
          ⟨_, _, rfl⟩
        obtain ⟨answer', t', ht⟩ : ∃ answer t', dispatchInterruptibly op t = (answer, t') :=
          ⟨_, _, rfl⟩
        rw [hs, ht] at hanswer hleft ⊢
        dsimp only at hanswer hleft
        subst hanswer
        cases answer with
        | ok _ =>
          by_cases hquit : op = .quit
          · simp only [hquit, if_true]
            exact ⟨rfl, by simpa [hquit, isOk, wantsMore] using hleft⟩
          · have hon : Alike Agree (Known mode true) s' t' := by simpa [hquit] using hleft
            simp only [hquit, if_false]
            exact ⟨rfl, hon⟩
        | error stop =>
          have hon : Alike Agree (Known mode true) s' t' := by simpa [isOk] using hleft
          cases stop with
          | failure f => exact recover_alike hon f
          | crash why => exact ⟨rfl, hon⟩

/-! ## The loop -/

/-- A session has ended as statements did: with the same outcome, and with sessions that agree. -/
def Follows (ending : Ending σ) (performed : Outcome × Session σ) : Prop :=
  ending.outcome = performed.1 ∧
    Alike Agree (fun _ _ _ => True) ending.session performed.2

omit [ResultSource φ] [Gateway.Over σ φ] in
theorem Alike.forget {P : Mode → Bool → StatementSet → Prop} {s t : Session σ}
    (hst : Alike R P s t) : Alike R (fun _ _ _ => True) s t :=
  ⟨hst.console, hst.gateway, hst.mode, hst.running, hst.statementSet, trivial⟩

theorem resume_over (outcome : Outcome) (s : Session σ) (reads : List TerminalRead) :
    resume .standard (.over outcome s) reads = ⟨outcome, s, reads⟩ := by
  cases reads <;> rfl

/-- The statements that are read at a console that accepts all output. -/
def statementsRead (kept : Text) (reads : List TerminalRead) : List Text :=
  ((Console.ofSink .unlimited false .transcript).readAll Script.isComplete Message.prompt kept
    reads).1

/-- Behind the lines that are kept, the loop does with the reads what is done with statements. -/
def LoopFollows (σ : Type) {φ : Type} [ResultSource φ] [Gateway.Over σ φ] (mode : Mode)
    (reads : List TerminalRead) : Prop :=
  ∀ (kept : Text) (s t : Session σ), Alike Agree (Known mode true) s t →
    Follows (resume .standard (await kept s) reads) (performAll mode (statementsRead kept reads) t)

variable {reads : List TerminalRead}

theorem proceed_of_running {s : Session σ} (hrunning : s.running = true)
    (hroom : s.console.sink.room = none) (queued : List Text) :
    proceed .standard queued s =
      let s := { s with console := (s.console.put ['\n']).2 }
      match queued with
      | [] => await [] s
      | statement :: queued =>
        match evaluate .standard statement s with
        | (none, s) => proceed .standard queued s
        | (some outcome, s) => .over outcome s := by
  have haccepted : (s.console.put ['\n']).1 = true := by rw [Console.put_of_room hroom]
  obtain ⟨console, hput⟩ : ∃ console, s.console.put ['\n'] = (true, console) :=
    ⟨_, by rw [← haccepted]⟩
  rw [proceed.eq_def, hrunning, hput]
  rfl

theorem proceed_of_stopped {s : Session σ} (hrunning : s.running = false) (queued : List Text) :
    proceed .standard queued s = .over .success s := by
  rw [proceed.eq_def, hrunning]
  rfl

/-- A statement is evaluated and performed, and what follows it likewise. -/
theorem evaluate_follows {statement : Text} (htrim : Text.trim statement = statement)
    {queued rest : List Text} {s t : Session σ} (hst : Alike Agree (Known mode true) s t)
    (hrest : ∀ s t : Session σ, Alike Agree (Known mode true) s t →
      Follows (resume .standard (proceed .standard queued s) reads) (performAll mode rest t)) :
    Follows
      (resume .standard
        (match evaluate .standard statement s with
          | (none, s) => proceed .standard queued s
          | (some outcome, s) => .over outcome s) reads)
      (performAll mode (statement :: rest) t) := by
  obtain ⟨hgo, hleft⟩ := evaluate_alike hst htrim
  obtain ⟨go, s', hs⟩ : ∃ go s', evaluate .standard statement s = (go, s') := ⟨_, _, rfl⟩
  obtain ⟨verdict, t', ht⟩ : ∃ verdict t', performStatement mode statement t = (verdict, t') :=
    ⟨_, _, rfl⟩
  rw [hs, ht] at hgo hleft
  rw [hs, performAll, ht]
  dsimp only at hgo hleft
  subst hgo
  cases verdict with
  | none => exact hrest s' t' hleft
  | some outcome =>
    cases outcome with
    | success =>
      have hstopped : s'.running = false := hleft.known.2
      change Follows (resume .standard (proceed .standard queued s') reads) (.success, t')
      rw [proceed_of_stopped hstopped, resume_over]
      exact ⟨rfl, hleft.forget⟩
    | failure | crash =>
      dsimp only [atOnce]
      rw [resume_over]
      exact ⟨rfl, hleft.forget⟩

/-- The statements that were read together are performed before the next line is read. -/
theorem proceed_follows (hloop : LoopFollows σ mode reads) {queued : List Text}
    (htrim : ∀ q ∈ queued, Text.trim q = q) {s t : Session σ}
    (hst : Alike Agree (Known mode true) s t) :
    Follows (resume .standard (proceed .standard queued s) reads)
      (performAll mode (queued ++ statementsRead [] reads) t) := by
  induction queued generalizing s t with
  | nil =>
    rw [proceed_of_running hst.known.2 hst.console.room_left]
    exact hloop [] _ t (hst.put _)
  | cons statement queued ih =>
    rw [proceed_of_running hst.known.2 hst.console.room_left]
    refine evaluate_follows (htrim statement List.mem_cons_self) (hst.put _) fun s t hst => ?_
    exact ih (fun q hq => htrim q (List.mem_cons_of_mem statement hq)) hst

theorem trim_of_mem_statements {kept line q : Text}
    (h : q ∈ (Reading.addLine Script.isComplete kept line).statements) : Text.trim q = q := by
  unfold Reading.addLine at h
  dsimp only at h
  split at h
  · rw [List.mem_singleton.1 h]
    rfl
  · next first others hsplit =>
    split at h
    · exact Script.trim_of_mem_split (by rw [hsplit]; exact h)
    · cases h

theorem statementsRead_line (kept line : Text) (reads : List TerminalRead) :
    statementsRead kept (.line line :: reads) =
      (Reading.addLine Script.isComplete kept line).statements ++
        statementsRead (Reading.addLine Script.isComplete kept line).kept reads := by
  unfold statementsRead
  rw [Console.readAll_line _ _ rfl]

/-- The loop does with a read what is done with the statements that it completes. -/
theorem feed_follows (hloop : LoopFollows σ mode reads) (kept : Text) (read : TerminalRead)
    {s t : Session σ} (hst : Alike Agree (Known mode true) s t) :
    Follows (resume .standard (feed .standard kept read s) reads)
      (performAll mode (statementsRead kept (read :: reads)) t) := by
  obtain ⟨d, hd, htake⟩ :=
    Console.take_of_room hst.console.room_left Script.isComplete Message.prompt kept read
  have hleft := hst.replace hd
  have htake' : s.console.take (Language.standard).isComplete Message.prompt kept read = _ := htake
  unfold feed
  rw [htake']
  cases read with
  | line line =>
    have htrim := @trim_of_mem_statements kept line
    rw [statementsRead_line]
    dsimp only [Console.outcome]
    cases hreading : Reading.addLine Script.isComplete kept line with
    | incomplete lines => exact hloop lines _ t hleft
    | blank =>
      exact proceed_follows hloop (fun q hq => by cases hq) hleft
    | complete lines first others =>
      rw [hreading] at htrim
      refine evaluate_follows (htrim List.mem_cons_self) hleft fun s t hst => ?_
      exact proceed_follows hloop (fun q hq => htrim (List.mem_cons_of_mem first hq)) hst
  | interrupted => exact proceed_follows hloop (fun q hq => by cases hq) hleft
  | failed reason =>
    change Follows (resume .standard (.over .success (closeInput reason _)) reads) (.success, t)
    rw [resume_over]
    exact ⟨rfl, (hleft.put _).forget⟩
  | ended =>
    change Follows (resume .standard (.over .success _) reads) (.success, t)
    rw [resume_over]
    exact ⟨rfl, hleft.forget⟩

/-- However much is read, the loop follows the statements. -/
theorem loopFollows (reads : List TerminalRead) : LoopFollows σ mode reads := by
  induction reads with
  | nil =>
    intro kept s t hst
    obtain ⟨d, hd, hawait⟩ :=
      Console.awaitLine_of_room hst.console.room_left Message.prompt kept
    rw [await, hawait]
    exact ⟨rfl, (hst.replace hd).forget⟩
  | cons read reads ih =>
    intro kept s t hst
    obtain ⟨d, hd, hawait⟩ :=
      Console.awaitLine_of_room hst.console.room_left Message.prompt kept
    rw [await, hawait]
    exact feed_follows ih kept read (hst.replace hd)

/-- A session at a console that accepts all output follows the statements that are read. -/
theorem run_follows (g : σ) {console : Console} (h : console.sink.room = none) (mode : Mode)
    (reads : List TerminalRead) :
    Follows (run .standard reads (start g console mode))
      (performAll mode (console.readAll Script.isComplete Message.prompt [] reads).1
        (start g console mode)) := by
  have hst : Alike Agree (Known mode true) (start g console mode) (start g console mode) :=
    ⟨.refl h, rfl, rfl, rfl, rfl, rfl, rfl⟩
  have hread : (console.readAll Script.isComplete Message.prompt [] reads).1 =
      statementsRead [] reads :=
    congrArg Prod.fst (Console.readAll_congr _ _ h rfl [] reads)
  have hnone : ∀ q ∈ ([] : List Text), Text.trim q = q := by simp
  rw [hread]
  exact proceed_follows (loopFollows reads) hnone hst

/-- A session crashes exactly if one of its statements is performed and crashes. -/
theorem crash_iff (g : σ) {console : Console} (h : console.sink.room = none) (mode : Mode)
    (reads : List TerminalRead) (why : Crash) :
    (run .standard reads (start g console mode)).outcome = .crash why ↔
      ∃ statement t,
        Performs mode (console.readAll Script.isComplete Message.prompt [] reads).1
          (start g console mode) statement t ∧ Crashes statement why t := by
  have hbad : Outcome.crash why ≠ .success := nofun
  rw [(run_follows g h mode reads).1, performAll_eq_iff hbad]
  simp only [performStatement_eq_crash_iff]

/-- **A session is a fold over its statements.**  A session at a console that accepts all output
does what is done with the statements that are read, one after the other, up to the one that ends
it: it ends with the same outcome, leaves the gateway and the statement set the same, and the same
happened in the same order, reads aside.  What ends it is `QUIT` or a failure, unless a statement is
performed that crashes. -/
theorem run_eq_performAll (g : σ) {console : Console} (h : console.sink.room = none) (mode : Mode)
    (reads : List TerminalRead) :
    let ending := run .standard reads (start g console mode)
    let statements := (console.readAll Script.isComplete Message.prompt [] reads).1
    let performed := performAll mode statements (start g console mode)
    ending.outcome = performed.1 ∧
      ending.session.gateway = performed.2.gateway ∧
      ending.session.statementSet = performed.2.statementSet ∧
      ending.session.console.events = performed.2.console.events ∧
      ∀ why, ending.outcome = .crash why ↔ ∃ statement t,
        Performs mode statements (start g console mode) statement t ∧
          Crashes statement why t := by
  obtain ⟨houtcome, hsessions⟩ := run_follows g h mode reads
  refine ⟨houtcome, hsessions.gateway, hsessions.statementSet, hsessions.console.events, ?_⟩
  exact fun why => crash_iff g h mode reads why

/-- A gateway that refuses to drop anything. -/
def keeping : Rehearsal where
  properties := ∅
  calls := []
  accepted := 0
  failures := [(.execute, .execution "it is in use")]
  schema := none
  content := none
  source := ⟨[], 0, none, none⟩
  omitJob := false
  savepoint := none
  line := .none

/-- Statements that fail, and statements behind `QUIT` on its line and on the next. -/
def readsWithQuit : List TerminalRead :=
  [.line "DROP TABLE t; SELECT", .interrupted, .line "SET 'a' = '1'; QUIT; RESET;", .line "HELP;"]

theorem run_eq_performAll_quit :
    (Console.ofSink .unlimited false .transcript).sink.room = none ∧
      let first := start keeping (.ofSink .unlimited false .transcript) .interactive
      let ending := run .standard readsWithQuit first
      let statements := (first.console.readAll Script.isComplete Message.prompt [] readsWithQuit).1
      let performed := performAll .interactive statements first
      ending.outcome = performed.1 ∧
        ending.session.gateway = performed.2.gateway ∧
        ending.session.statementSet = performed.2.statementSet ∧
        ending.session.console.events = performed.2.console.events ∧
        ∀ why, ending.outcome = .crash why ↔ ∃ statement t,
          Performs .interactive statements first statement t ∧ Crashes statement why t :=
  ⟨rfl, run_eq_performAll keeping rfl .interactive readsWithQuit⟩

/-- A gateway whose results are streamed into tableaus of the greatest width there is. -/
def wide : Rehearsal :=
  { keeping with
    failures := []
    properties := ((∅ : Properties).insert Setting.resultMode.key "tableau").insert
      Setting.maxColumnWidth.key "18446744073709551615" }

/-- A query, and a statement behind it. -/
def readsWithQuery : List TerminalRead := [.line "SELECT 1;", .line "INSERT INTO a SELECT 2;"]

/-- No failure is met and nobody asked to quit, and yet the second statement is not performed: the
border of the tableau of the first cannot be drawn. -/
theorem run_stops_at_crash :
    let first := start wide (.ofSink .unlimited false .transcript) .interactive
    let ending := run .standard readsWithQuery first
    (first.console.readAll Script.isComplete Message.prompt [] readsWithQuery).1 =
        (["SELECT 1;", "INSERT INTO a SELECT 2;"] : List Text) ∧
      ending.outcome = .crash .sum ∧
      ending.session.gateway.calls = [.asked (.query "SELECT 1")] ∧
      (performAll .interactive ["INSERT INTO a SELECT 2;"] first).2.gateway.calls =
        [.asked (.modify [⟨.insertInto, "a", "INSERT INTO a SELECT 2"⟩])] := by
  decide +kernel

end SqlConsole.Session
