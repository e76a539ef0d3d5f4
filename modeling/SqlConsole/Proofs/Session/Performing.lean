import SqlConsole.Proofs.Session.Scripts
/-!
# What statements hand over

The operation of a statement does to the statement set and to the batches what it should
(`dispatchInterruptibly_effect`), and what a script hands over is what its statements do, one after
the other (`batches_runLines`).  Where every operation hands over certain batches only, so does a
whole run (`performAll_handsOverOnly`), and an initialization file hands nothing over once it comes
to a statement that it may not run (`performAll_of_initialization`).
-/

namespace SqlConsole

theorem Console.batches_of_events {c d : Console} (h : c.events = d.events) :
    c.batches = d.batches := by
  have hevents : ∀ journal : List Event,
      (journal.filter (· ≠ .read)).filterMap Event.batch? = journal.filterMap Event.batch? := by
    intro journal
    rw [List.filterMap_filter]
    congr 1
    funext e
    cases e <;> rfl
  rw [Console.batches, Console.batches, ← hevents, ← hevents d.journal]
  exact congrArg _ h

namespace Session

open Statement

variable {σ φ : Type} [ResultSource φ] [Gateway.Over σ φ] {mode : Mode}

/-! ## One statement -/

/-- What the guard makes of an operation is what happens to the statement set and the batches,
under whatever token. -/
theorem dispatchInterruptibly_effect {s : Session σ} (h : s.console.sink.room = none)
    (op : Operation) :
    match admits op s with
    | .error _ => Effect s.statementSet [] s (dispatchInterruptibly op s).2
    | .ok () => Effect (s.statementSet.after op) (s.statementSet.handsOver op) s
        (dispatchInterruptibly op s).2 := by
  obtain ⟨token, i, j, hdispatch⟩ := exists_dispatch op s
  have hroom : (s.withInterrupts i).console.sink.room = none := h
  have heffect := dispatch_effect hroom op token
  have hadmits : admits op (s.withInterrupts i) = admits op s := rfl
  rw [hadmits] at heffect
  rw [hdispatch]
  cases hguard : admits op s with
  | error denial =>
    rw [hguard] at heffect
    exact ⟨heffect.room, heffect.mode, heffect.statementSet, heffect.batches⟩
  | ok _ =>
    rw [hguard] at heffect
    exact ⟨heffect.room, heffect.mode, heffect.statementSet, heffect.batches⟩

theorem performStatement_of_parse {s : Session σ} {statement : Text} {op : Operation}
    (h : Statement.parse (Text.trim statement) = .ok (some op)) :
    performStatement mode statement s =
      match dispatchInterruptibly op s with
      | (.ok (), t) => (if op = .quit then some .success else none, t)
      | (.error (.failure f), t) => (verdictOn mode f, t)
      | (.error (.crash why), t) => (some (.crash why), t) := by
  have hperform := performStatement_eq mode statement s
  rw [h] at hperform
  exact hperform

/-- Behind a statement the session is what the operation left of it. -/
theorem performStatement_snd {s : Session σ} {statement : Text} {op : Operation}
    (h : Statement.parse (Text.trim statement) = .ok (some op)) :
    (performStatement mode statement s).2 = (dispatchInterruptibly op s).2 := by
  rw [performStatement_of_parse h]
  split
  · next heq => rw [heq]
  · next heq => rw [heq]
  · next heq => rw [heq]

/-- A statement without an operation leaves the session as it is. -/
theorem performStatement_snd_of_forall {s : Session σ} {statement : Text}
    (h : ∀ op, Statement.parse (Text.trim statement) ≠ .ok (some op)) :
    (performStatement mode statement s).2 = s := by
  rw [performStatement_eq]
  cases hparse : Statement.parse (Text.trim statement) with
  | error fault => rfl
  | ok found =>
    cases found with
    | none => rfl
    | some op => exact (h op hparse).elim

theorem performAll_singleton (statement : Text) (s : Session σ) :
    (performAll mode [statement] s).2 = (performStatement mode statement s).2 := by
  rw [performAll]
  split
  · next heq =>
    rw [heq]
    rfl
  · next heq => rw [heq]

/-- What follows an operation that succeeds is performed behind it. -/
theorem performAll_of_ok {s : Session σ} {statement : Text} {op : Operation}
    (h : Statement.parse (Text.trim statement) = .ok (some op)) (hquit : op ≠ .quit)
    (hok : (dispatchInterruptibly op s).1 = .ok ()) (statements : List Text) :
    performAll mode (statement :: statements) s =
      performAll mode statements (dispatchInterruptibly op s).2 := by
  rw [performAll, performStatement_of_parse h]
  obtain ⟨answer, t, hdispatch⟩ : ∃ answer t, dispatchInterruptibly op s = (answer, t) :=
    ⟨_, _, rfl⟩
  rw [hdispatch] at hok ⊢
  dsimp only at hok
  subst hok
  rw [if_neg hquit]

/-! ## Operations that succeed -/

omit [ResultSource φ] in
/-- Where no statement set is open, all but initialization files may do everything but queries. -/
theorem admits_of_closed {s : Session σ} {op : Operation} (hmode : s.mode ≠ .initialization)
    (hclosed : s.statementSet = .closed) (hquery : op.kind ≠ .query) : admits op s = .ok () := by
  have hinactive : s.statementSet.isActive = false := by
    rw [hclosed]
    rfl
  unfold admits Guard.check Guard.checkMode
  rw [hinactive]
  cases hcases : s.mode with
  | initialization => exact (hmode hcases).elim
  | interactive => rfl
  | nonInteractive => simp [hquery]

theorem dispatchInterruptibly_ok {s : Session σ} {op : Operation} (hadmits : admits op s = .ok ())
    (hperform : ∀ token (t : Session σ), t.console.sink.room = none →
      t.statementSet = s.statementSet → (perform op token t).1 = .ok ())
    (h : s.console.sink.room = none) : (dispatchInterruptibly op s).1 = .ok () := by
  obtain ⟨token, i, j, hdispatch⟩ := exists_dispatch op s
  have hsame : admits op (s.withInterrupts i) = .ok () := hadmits
  rw [hdispatch, dispatch_apply, hsame]
  exact hperform token _ h rfl

theorem perform_beginStatementSet_ok {t : Session σ} (h : t.console.sink.room = none)
    (hclosed : t.statementSet = .closed) (token : CancelToken) :
    (perform .beginStatementSet token t).1 = .ok () := by
  have hcollected : t.statementSet.collected = none := by
    rw [hclosed]
    rfl
  show (beginStatementSet t).1 = .ok ()
  rw [beginStatementSet_apply hcollected]
  exact inform_of_room (s := { t with statementSet := ⟨some []⟩ }) h _

theorem perform_insert_ok {t : Session σ} (h : t.console.sink.room = none) {ms : List Modify}
    (hopen : t.statementSet = ⟨some ms⟩) (m : Modify) (token : CancelToken) :
    (perform (.insert m) token t).1 = .ok () := by
  show (insert m token t).1 = .ok ()
  rw [insert_apply, hopen]
  exact inform_of_room (s := { t with statementSet := ⟨some (ms ++ [m])⟩ }) h _

/-! ## Statements one after the other -/

/-- The operations that neither open a statement set nor hand over other batches than certain ones
where none is open. -/
def HandsOverOnly (P : List Modify → Prop) (op : Operation) : Prop :=
  StatementSet.closed.after op = .closed ∧ ∀ b ∈ StatementSet.closed.handsOver op, P b

theorem performStatement_handsOverOnly (mode : Mode) {P : List Modify → Prop} {s : Session σ}
    {statement : Text} (h : s.console.sink.room = none) (hclosed : s.statementSet = .closed)
    (hops : ∀ op, Statement.parse (Text.trim statement) = .ok (some op) → HandsOverOnly P op) :
    ∃ batches, Effect .closed batches s (performStatement mode statement s).2 ∧
      ∀ b ∈ batches, P b := by
  by_cases hparse : ∃ op, Statement.parse (Text.trim statement) = .ok (some op)
  · obtain ⟨op, hparse⟩ := hparse
    obtain ⟨hafter, hbatches⟩ := hops op hparse
    have heffect := dispatchInterruptibly_effect h op
    rw [performStatement_snd hparse]
    cases hadmits : admits op s with
    | error denial =>
      rw [hadmits, hclosed] at heffect
      exact ⟨[], heffect, by simp⟩
    | ok _ =>
      rw [hadmits, hclosed, hafter] at heffect
      exact ⟨_, heffect, hbatches⟩
  · have hrefl := Effect.refl h
    rw [hclosed] at hrefl
    rw [performStatement_snd_of_forall fun op hop => hparse ⟨op, hop⟩]
    exact ⟨[], hrefl, by simp⟩

/-- Where no statement set is open, statements of such operations hand over such batches. -/
theorem performAll_handsOverOnly (mode : Mode) {P : List Modify → Prop} {s : Session σ}
    {statements : List Text} (h : s.console.sink.room = none) (hclosed : s.statementSet = .closed)
    (hops : ∀ t ∈ statements, ∀ op, Statement.parse (Text.trim t) = .ok (some op) →
      HandsOverOnly P op) :
    ∃ batches, Effect .closed batches s (performAll mode statements s).2 ∧ ∀ b ∈ batches, P b := by
  induction statements generalizing s with
  | nil =>
    have hrefl := Effect.refl h
    rw [hclosed] at hrefl
    exact ⟨[], hrefl, by simp⟩
  | cons statement statements ih =>
    obtain ⟨batches, heffect, hbatches⟩ :=
      performStatement_handsOverOnly mode h hclosed (hops statement List.mem_cons_self)
    rw [performAll]
    obtain ⟨verdict, t, hperform⟩ : ∃ verdict t, performStatement mode statement s = (verdict, t) :=
      ⟨_, _, rfl⟩
    rw [hperform] at heffect ⊢
    cases verdict with
    | none =>
      obtain ⟨batches', heffect', hbatches'⟩ := ih heffect.room heffect.statementSet
        fun t ht => hops t (List.mem_cons_of_mem statement ht)
      refine ⟨batches ++ batches', heffect.trans heffect', fun b hb => ?_⟩
      rcases List.mem_append.1 hb with hb | hb
      · exact hbatches b hb
      · exact hbatches' b hb
    | some outcome => exact ⟨batches, heffect, hbatches⟩

/-- What a script hands over is what its statements do. -/
theorem batches_runLines (g : σ) {console : Console} (h : console.sink.room = none) (mode : Mode)
    {script kept : Text} {statements : List Text}
    (hread : console.readLines Message.prompt [] (Text.lines script) = (statements, kept)) :
    (runLines .standard script (start g console mode)).session.console.batches =
      (performAll mode statements (start g console mode)).2.console.batches := by
  have hfollows := runLines_follows (alike_start g h mode) script
  rw [show (start g console mode).console = console from rfl, hread] at hfollows
  exact Console.batches_of_events hfollows.2.console.events

/-! ## Initialization files -/

/-- An initialization file ends with a statement that it may not run, and hands nothing over. -/
theorem performAll_of_initialization {s : Session σ} (h : s.console.sink.room = none)
    (hmode : s.mode = .initialization) {statement : Text}
    (hparse : ∀ found, Statement.parse (Text.trim statement) = .ok found →
      ∃ op, found = some op ∧ op.kind.isPreparation = false) (statements : List Text) :
    (performAll .initialization (statement :: statements) s).2.console.batches =
      s.console.batches := by
  have hfailed (f : Failure) : verdictOn .initialization f = some .failure := by
    simp [verdictOn, Mode.exitsOnFailure]
  rw [performAll]
  cases hfound : Statement.parse (Text.trim statement) with
  | error fault =>
    have hne : (Text.trim statement).isEmpty = false := by
      rw [List.isEmpty_eq_false_iff]
      intro hnil
      rw [hnil, parse_nil] at hfound
      cases hfound
    have hperform : performStatement .initialization statement s = (some .failure, s) := by
      rw [performStatement, hne, hfound]
      simp only [hfailed]
      rfl
    rw [hperform]
  | ok found =>
    obtain ⟨op, rfl, hkind⟩ := hparse found hfound
    have hdenied : admits op s = .error (.notForInitialization op.summary) := by
      unfold admits Guard.check Guard.checkMode
      rw [hmode]
      simp only [hkind]
      rfl
    have heffect := dispatchInterruptibly_effect h op
    rw [hdenied] at heffect
    obtain ⟨token, i, j, hdispatch⟩ := exists_dispatch op s
    have hsame : admits op (s.withInterrupts i) = .error (.notForInitialization op.summary) :=
      hdenied
    rw [performStatement_of_parse hfound]
    rw [hdispatch] at heffect ⊢
    rw [dispatch_apply, hsame] at heffect ⊢
    simp only [hfailed]
    exact heffect.batches.trans (List.append_nil _)

end Session

end SqlConsole
