import SqlConsole.Proofs.Session.Fold
import SqlConsole.Proofs.Session.Terms
import SqlConsole.Proofs.Tableau.Widths
/-!
# Over what an operation crashes

A line that cannot be drawn belongs to a tableau with a column that is wider than texts can be.  So
a view crashes only over the tableau of the rows that came (`View.wide_of_crash`), and an operation
only over a tableau that is drawn of the answer to it (`exists_draws_of_crash`), and likewise a
statement (`Crashes.exists_draws`).  Operations whose answers are not drawn do not crash at all
(`not_crash_of_not_drawn`).
-/

namespace SqlConsole

open Console

namespace View

variable {φ : Type} [ResultSource φ] {mode : ResultMode} {d : Descriptor φ} {rows : List Row}
  {ending : Ending} {why : Crash}

omit [ResultSource φ] in
/-- The lines of a view can be drawn where its tableau is narrow enough. -/
theorem not_mem_output (h : (tableauOf mode d rows).Within Tableau.maxFill) :
    .error why ∉ output mode d rows ending := by
  cases mode with
  | tableau =>
    unfold tableauOf at h
    unfold output
    dsimp only at h ⊢
    split at h
    · next hstreaming =>
      rw [if_pos hstreaming]
      exact not_mem_streamedLines h rows why ending
    · next hbounded =>
      rw [if_neg hbounded]
      cases ending with
      | exhausted => exact h.not_mem_lines rows why
      | cancelled | failed => simp [completeLines]
  | table | changelog =>
    cases ending with
    | exhausted | cancelled =>
      have hlines (rows : List Row) := h.not_mem_lines rows why
      unfold tableauOf at hlines
      simpa [output, titledLines] using hlines _
    | failed => simp [output, titledLines]

/-- **A view crashes only over a tableau that is too wide**: that of the rows that came. -/
theorem wide_of_crash {token : CancelToken} {c : Console}
    (h : (present mode d token c).1 = .error (.crash why)) : ∃ batches ending,
      Yields token d.source c.interrupts batches ending ∧
        ¬ (tableauOf mode d batches.flatten).Within Tableau.maxFill := by
  obtain ⟨batches, ending, hyields⟩ := exists_yields token d.source c.interrupts
  obtain ⟨delivered, ended, drawn, hshows, hstreams, hwaits⟩ :=
    exists_shows_body (c := c.note (.opened mode)) mode d hyields
  have hanswered : drawn.bind (fun _ => ending.answer) = .error (.crash why) :=
    hshows.writes.answered.symm.trans h
  have hdrawn : drawn = .error (.crash why) := by
    cases drawn with
    | ok => cases ending <;> cases hanswered
    | error stop => exact hanswered
  have hmem := (forM_draw_spec _ _).2.2.2 why (hshows.writes.stopped.trans hdrawn)
  refine ⟨batches, ending, hyields, fun hwithin => not_mem_output ?_ hmem⟩
  by_cases hstreaming : Streams mode d
  · -- the widths of a streaming tableau are the same for all rows
    obtain ⟨rfl, hstreamed⟩ := hstreaming
    unfold tableauOf at hwithin ⊢
    dsimp only at hwithin ⊢
    rw [if_pos hstreamed] at hwithin ⊢
    exact hwithin
  · rw [hwaits hstreaming, List.take_length]
    exact hwithin

end View

namespace Session

variable {σ φ : Type} [ResultSource φ] [Gateway.Over σ φ] {op : Operation} {token : CancelToken}
  {s : Session σ} {why : Crash}

/-! ## Operations -/

/-- The tableaus that are drawn of the answers to operations: of what the gateway returns, or of the
rows that come of a result. -/
inductive Draws (token : CancelToken) (s : Session σ) : Operation → Tableau → Prop
  | answer {op : Operation} {result : TableResult} {g : σ} {i : Interrupts}
    (answered : Gateway.handle (.execute op) token s.gateway s.console.interrupts =
      (.ok result, g, i)) : Draws token s op (.fitted result.schema result.rows .plain)
  | result {statement : Text} {d : Descriptor φ} {g : σ} {i : Interrupts}
    {batches : List (List Row)} {ending : View.Ending}
    (answered : Gateway.handle (.query statement) token s.gateway s.console.interrupts =
      (.ok d, g, i))
    (yields : View.Yields token d.source i batches ending) :
    Draws token s (.query statement) (View.tableauOf d.mode d batches.flatten)

omit [ResultSource φ] in
/-- The gateway is asked, and what follows goes on with its answer, unless it failed. -/
theorem ask_bind_cases {α : Type} (r : Request) (token : CancelToken) (attempt : Text)
    (f : r.Reply φ → SessionM σ α) (s : Session σ) :
    (∃ e t, (ask r token attempt >>= f) s = (.error (.failure (.gateway attempt e)), t)) ∨
      ∃ reply g i, Gateway.handle r token s.gateway s.console.interrupts = (.ok reply, g, i) ∧
        (ask r token attempt >>= f) s = f reply { s with
          gateway := g
          console := { s.console with interrupts := i }.note (.asked r) } := by
  have hasked : ask r token attempt s =
      let handled := Gateway.handle r token s.gateway s.console.interrupts
      (handled.1.mapError fun e => .failure (.gateway attempt e), { s with
        gateway := handled.2.1
        console := { s.console with interrupts := handled.2.2 }.note (.asked r) }) := rfl
  rw [Respects.run_bind, hasked]
  rcases Gateway.handle r token s.gateway s.console.interrupts with ⟨e | reply, g, i⟩
  · exact .inl ⟨e, _, rfl⟩
  · exact .inr ⟨reply, g, i, rfl, rfl⟩

omit [ResultSource φ] [Gateway.Over σ φ] in
theorem not_crash_inform (message : Text) (s : Session σ) :
    (inform message s).1 ≠ .error (.crash why) := by
  change (write _ s.console).1 ≠ _
  rw [write_apply]
  dsimp only
  split <;> nofun

/-- What is done with the answer to an operation: a query is shown, an answer is drawn, or nothing
is drawn at all. -/
theorem drawn_cases (op : Operation) (token : CancelToken) :
    (∃ statement, op = .query statement) ∨
      perform (σ := σ) op token = printResult op token ∨
      ∀ r, op.Asks r → r.isDrawn = false := by
  cases op with
  | query statement => exact .inl ⟨statement, rfl⟩
  | addJar | create | drop | alter | use | loadModule | unloadModule | other =>
    exact .inr (.inl rfl)
  | set key value =>
    refine .inr (.inr fun r hr => ?_)
    rcases key with _ | key <;> rcases value with _ | value
    all_goals cases hr
    rfl
  | reset key =>
    refine .inr (.inr fun r hr => ?_)
    cases key <;> cases hr <;> rfl
  | insert | createTableAs | endStatementSet | statementSet =>
    refine .inr (.inr fun r hr => ?_)
    obtain ⟨ms, rfl⟩ := hr
    rfl
  | _ =>
    refine .inr (.inr fun r hr => ?_)
    cases hr <;> rfl

/-- Where no answer is drawn, nothing crashes. -/
theorem not_crash_of_not_drawn (h : ∀ r, op.Asks r → r.isDrawn = false) (token : CancelToken)
    (s : Session σ) : (perform op token s).1 ≠ .error (.crash why) := by
  have hsound : (stopping (σ := σ) fun stop => ∀ why, stop ≠ .crash why).Sound :=
    stopping_sound nofun (fun _ _ => nofun) (fun _ => nofun) fun _ => nofun
  have hgrants (r : Request) (hr : op.Asks r) :
      (stopping (σ := σ) fun stop => ∀ why, stop ≠ .crash why).Grants r :=
    ⟨trivial, fun _ _ _ => trivial, fun _ _ _ _ _ => .inl fun _ => nofun,
      fun hdrawn => absurd hdrawn (Bool.eq_false_iff.1 (h r hr))⟩
  have hanswer := (meets_perform hsound (fun _ _ => trivial) hgrants
    (fun _ => ⟨fun _ => trivial, trivial⟩) token s).2
  intro hcrash
  rw [hcrash] at hanswer
  exact hanswer why rfl

theorem exists_draws_of_query {statement : Text}
    (h : (query statement token s).1 = .error (.crash why)) :
    ∃ t, Draws token s (.query statement) t ∧ ¬ t.Within Tableau.maxFill := by
  obtain ⟨e, t, hfailed⟩ | ⟨d, g, i, hanswered, hgoesOn⟩ := ask_bind_cases (.query statement) token
    ("Failed to execute query '" ++ statement ++ "'") (fun (d : Descriptor φ) => do
      atConsole (View.present d.mode d token)
      if d.mode ≠ .tableau then inform Message.resultQuit) s
  · have hquery : query statement token s = _ := hfailed
    rw [hquery] at h
    cases h
  · have hquery : query statement token s = _ := hgoesOn
    rw [hquery, Respects.run_bind] at h
    split at h
    · split at h
      · exact (not_crash_inform _ _ h).elim
      · cases h
    · next stop t hshown =>
      have hpresent := (congrArg Prod.fst hshown).trans h
      obtain ⟨batches, ending, hyields, hwide⟩ := View.wide_of_crash hpresent
      exact ⟨_, .result hanswered hyields, hwide⟩

theorem exists_draws_of_printResult (h : (printResult op token s).1 = .error (.crash why)) :
    ∃ t, Draws token s op t ∧ ¬ t.Within Tableau.maxFill := by
  obtain ⟨e, t, hfailed⟩ | ⟨result, g, i, hanswered, hgoesOn⟩ := ask_bind_cases (.execute op) token
    ("Failed to execute operation '" ++ op.summary ++ "'") (fun (result : TableResult) =>
      if result.hasContent then
        atConsole (((Tableau.fitted result.schema result.rows .plain).lines result.rows).forM draw)
      else inform Message.executed) s
  · have hprint : printResult op token s = _ := hfailed
    rw [hprint] at h
    cases h
  · have hprint : printResult op token s = _ := hgoesOn
    rw [hprint] at h
    split at h
    · have hmem := (forM_draw_spec _ _).2.2.2 why h
      exact ⟨_, .answer hanswered, fun hwithin => hwithin.not_mem_lines _ why hmem⟩
    · exact (not_crash_inform _ _ h).elim

/-- **An operation crashes only over a tableau that is too wide**, and it is one that is drawn of
the answer to the operation. -/
theorem exists_draws_of_crash (h : (dispatch op token s).1 = .error (.crash why)) :
    ∃ t, Draws token s op t ∧ ¬ t.Within Tableau.maxFill := by
  rw [dispatch_apply] at h
  cases hadmits : admits op s with
  | error denial =>
    rw [hadmits] at h
    cases h
  | ok _ =>
    rw [hadmits] at h
    dsimp only at h
    have hnoted {t : Tableau}
        (hdraws : Draws token { s with console := s.console.note (.dispatched op) } op t) :
        Draws token s op t := by
      cases hdraws with
      | answer answered => exact .answer answered
      | result answered yields => exact .result answered yields
    obtain ⟨statement, rfl⟩ | hprint | hnot := drawn_cases (σ := σ) op token
    · obtain ⟨t, hdraws, hwide⟩ := exists_draws_of_query h
      exact ⟨t, hnoted hdraws, hwide⟩
    · rw [hprint] at h
      obtain ⟨t, hdraws, hwide⟩ := exists_draws_of_printResult h
      exact ⟨t, hnoted hdraws, hwide⟩
    · exact (not_crash_of_not_drawn hnot token _ h).elim

/-- So does a statement: under the token that it is performed with, its operation draws such a
tableau. -/
theorem Crashes.exists_draws {statement : Text} (h : Crashes statement why s) :
    let i := s.console.interrupts
    ∃ op t, Statement.parse (Text.trim statement) = .ok (some op) ∧
      Draws i.newToken.1 (s.withInterrupts (i.newToken.2.install i.newToken.1).2) op t ∧
        ¬ t.Within Tableau.maxFill := by
  obtain ⟨op, hparse, hcrash⟩ := h
  obtain ⟨t, hdraws, hwide⟩ := exists_draws_of_crash hcrash
  exact ⟨op, t, hparse, hdraws, hwide⟩

end Session

end SqlConsole
