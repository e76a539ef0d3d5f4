import SqlConsole.Proofs.Console.Stable
/-!
# What work at the console adds to the journal

`Respects` compares two runs of a program.  `Meets` says what one run does: it leads from any state
to one that a relation allows, answers with what is wanted, and stops for reasons of a kind only.
Programs are put together from steps, and so are the proofs, wherever the relation goes along with
steps behind each other (`Leads`).

At a console the steps are writing and fetching, so every relation that goes along with the two goes
along with showing a result (`meets_body`).  One is `Console.Grows`: the journal has grown by events
of a kind.  Writing and fetching add refusals and fetches only, so showing a result adds no
requests, and no view but its own (`meets_present`).
-/

namespace SqlConsole

/-! ## What a program leads to -/

/-- A relation that goes along with no steps and with steps behind each other. -/
structure Leads {S : Type} (R : S → S → Prop) : Prop where
  refl : ∀ s, R s s
  trans : ∀ {s t u}, R s t → R t u → R s u

/-- A step and what follows its answer, from one state. -/
theorem Leads.bind {S α β : Type} {R : S → S → Prop} (hR : Leads R)
    {m : ExceptT Stop (StateM S) α} {f : α → ExceptT Stop (StateM S) β} {s : S}
    (hm : R s (m s).2) (hf : ∀ a, (m s).1 = .ok a → R (m s).2 (f a (m s).2).2) :
    R s ((m >>= f) s).2 := by
  rw [Respects.run_bind]
  rcases hs : m s with ⟨_ | a, t⟩
  · rwa [hs] at hm
  · rw [hs] at hm hf
    exact hR.trans hm (hf a rfl)

/-- What a program answers: something that is wanted, or a stop of a kind. -/
def Answers {α : Type} (Q : α → Prop) (F : Stop → Prop) : Except Stop α → Prop
  | .ok a => Q a
  | .error stop => F stop

/-- From every state a program leads to a state that the relation allows, and answers with what is
wanted or with a stop of a kind. -/
def Meets {S α : Type} (R : S → S → Prop) (Q : α → Prop) (F : Stop → Prop)
    (m : ExceptT Stop (StateM S) α) : Prop :=
  ∀ s, R s (m s).2 ∧ Answers Q F (m s).1

namespace Meets

variable {S α β : Type} {R : S → S → Prop} {P : α → Prop} {Q : β → Prop} {F : Stop → Prop}

theorem pure (hR : Leads R) {a : α} (ha : P a) :
    Meets R P F (Pure.pure a : ExceptT Stop (StateM S) α) :=
  fun s => ⟨hR.refl s, ha⟩

theorem throw (hR : Leads R) {stop : Stop} (hstop : F stop) :
    Meets R P F (MonadExcept.throw stop : ExceptT Stop (StateM S) α) :=
  fun s => ⟨hR.refl s, hstop⟩

/-- A step, and what follows each of its wanted answers. -/
theorem bind (hR : Leads R) {m : ExceptT Stop (StateM S) α}
    {f : α → ExceptT Stop (StateM S) β} (hm : Meets R P F m)
    (hf : ∀ a, P a → Meets R Q F (f a)) : Meets R Q F (m >>= f) := by
  intro s
  obtain ⟨hstep, hanswer⟩ := hm s
  rw [Respects.run_bind]
  rcases hs : m s with ⟨_ | a, t⟩
  · rw [hs] at hstep hanswer
    exact ⟨hstep, hanswer⟩
  · rw [hs] at hstep hanswer
    obtain ⟨hrest, hlast⟩ := hf a hanswer t
    exact ⟨hR.trans hstep hrest, hlast⟩

theorem get_bind {f : S → ExceptT Stop (StateM S) α} (hf : ∀ s, Meets R P F (f s)) :
    Meets R P F (MonadState.get >>= f) :=
  fun s => hf s s

theorem ite {p : Prop} [Decidable p] {m n : ExceptT Stop (StateM S) α} (hm : Meets R P F m)
    (hn : Meets R P F n) : Meets R P F (if p then m else n) := by
  by_cases hp : p
  · rwa [if_pos hp]
  · rwa [if_neg hp]

theorem forM (hR : Leads R) {f : α → ExceptT Stop (StateM S) PUnit}
    (hf : ∀ a, Meets R (fun _ => True) F (f a)) (as : List α) :
    Meets R (fun _ => True) F (as.forM f) := by
  induction as with
  | nil => exact .pure hR trivial
  | cons a as ih => exact (hf a).bind hR fun _ _ => ih

end Meets

namespace Console

/-! ## Events at a console -/

/-- Only events of a kind were added to the journal. -/
def Grows (E : Event → Prop) (c d : Console) : Prop :=
  ∃ events, d.journal = c.journal ++ events ∧ ∀ e ∈ events, E e

variable {E : Event → Prop} {F : Stop → Prop}

theorem Grows.refl (c : Console) : Grows E c c :=
  ⟨[], (List.append_nil _).symm, by simp⟩

theorem Grows.trans {c d e : Console} (h : Grows E c d) (h' : Grows E d e) : Grows E c e := by
  obtain ⟨events, hevents, hE⟩ := h
  obtain ⟨events', hevents', hE'⟩ := h'
  refine ⟨events ++ events', by rw [hevents', hevents, List.append_assoc], fun e he => ?_⟩
  rcases List.mem_append.1 he with he | he
  · exact hE e he
  · exact hE' e he

theorem leads_grows : Leads (Grows E) := ⟨.refl, .trans⟩

theorem grows_note {e : Event} (he : E e) (c : Console) : Grows E c (c.note e) :=
  ⟨[e], rfl, by simpa using he⟩

/-- A change of anything but the journal. -/
theorem grows_of_journal_eq {c d : Console} (h : d.journal = c.journal) : Grows E c d :=
  ⟨[], by rw [h, List.append_nil], by simp⟩

theorem grows_put (hrefused : E .refused) (t : Text) (c : Console) : Grows E c (c.put t).2 := by
  unfold put
  dsimp only
  split
  · exact grows_of_journal_eq rfl
  · exact (grows_of_journal_eq rfl).trans (grows_note hrefused _)

/-! ## Writing -/

/-- A relation of consoles that writing goes along with, and stops that leave no failure out which a
view can meet with. -/
structure Covers (R : Console → Console → Prop) (F : Stop → Prop) : Prop where
  leads : Leads R
  put : ∀ t c, R c (c.put t).2
  output : F full
  gateway : ∀ attempt fault, F (.failure (.gateway attempt fault))

variable {R : Console → Console → Prop}

theorem meets_write (h : Covers R F) (t : Text) : Meets R (fun _ => True) F (write t) := by
  intro c
  rw [write_apply]
  refine ⟨h.put t c, ?_⟩
  dsimp only
  split
  · trivial
  · exact h.output

theorem meets_writeLine (h : Covers R F) (t : Text) : Meets R (fun _ => True) F (writeLine t) :=
  meets_write h _

theorem meets_draw (h : Covers R F) (hcrash : ∀ why, F (.crash why)) (line : Except Crash Text) :
    Meets R (fun _ => True) F (draw line) := by
  cases line with
  | ok t => exact meets_writeLine h t
  | error why => exact .throw h.leads (hcrash why)

theorem meets_drawAll (h : Covers R F) (hcrash : ∀ why, F (.crash why))
    (lines : List (Except Crash Text)) : Meets R (fun _ => True) F (lines.forM draw) :=
  .forM h.leads (meets_draw h hcrash) lines

theorem meets_writeInfo (h : Covers R F) (message : Text) :
    Meets R (fun _ => True) F (writeInfo message) :=
  .get_bind fun _ => meets_writeLine h _

theorem meets_clear (h : Covers R F) : Meets R (fun _ => True) F clear := by
  refine .get_bind fun c => ?_
  split
  · exact meets_write h _
  · exact .pure h.leads trivial

/-! ## Fetching -/

/-- Fetching from a source of a kind goes along with a relation, and leaves a source of the kind. -/
def CoversFetch {φ : Type} [ResultSource φ] (R : Console → Console → Prop) (Q : φ → Prop) : Prop :=
  ∀ token source c, Q source →
    R c (c.fetch token source).2.2 ∧ Q (c.fetch token source).2.1

/-- Kinds of events and failures that no work at a console goes beyond. -/
structure Tolerates (E : Event → Prop) (F : Stop → Prop) : Prop where
  refused : E .refused
  fetched : ∀ delivered, E (.fetched delivered)
  output : F full
  gateway : ∀ attempt fault, F (.failure (.gateway attempt fault))

theorem Tolerates.covers (h : Tolerates E F) : Covers (Grows E) F :=
  ⟨leads_grows, grows_put h.refused, h.output, h.gateway⟩

theorem Tolerates.coversFetch {φ : Type} [ResultSource φ] (h : Tolerates E F) :
    CoversFetch (φ := φ) (Grows E) fun _ => True := by
  intro token source c _
  have hinterrupts : Grows E c { c with
      interrupts := (ResultSource.fetch token source c.interrupts).2.2 } := grows_of_journal_eq rfl
  exact ⟨hinterrupts.trans (grows_note (h.fetched _) _), trivial⟩

end Console

namespace View

open Console

variable {R : Console → Console → Prop} {E : Event → Prop} {F : Stop → Prop}
  {φ : Type} [ResultSource φ] {Q : φ → Prop}

/-- A program that fetches a batch and goes on with what came of it. -/
theorem meets_of_fetch {α : Type} {P : α → Prop} (hR : Leads R) (hfetch : CoversFetch R Q)
    {token : CancelToken} {source : φ} (hsource : Q source) {m : ConsoleM α}
    {goOn : Except GatewayError (Option (List Row)) → φ → ConsoleM α}
    (hm : ∀ c, m c = goOn (c.fetch token source).1 (c.fetch token source).2.1
      (c.fetch token source).2.2)
    (hgoOn : ∀ answer next, Q next → (∀ batch, answer = .ok (some batch) →
      ResultSource.size next < ResultSource.size source) →
      Meets R P F (goOn answer next)) : Meets R P F m := by
  intro c
  rw [hm]
  obtain ⟨hfetched, hnext⟩ := hfetch token source c hsource
  obtain ⟨hrest, hanswer⟩ := hgoOn (c.fetch token source).1 (c.fetch token source).2.1 hnext
    (fun batch hbatch => size_fetch_lt (d := (c.fetch token source).2.2) (by rw [← hbatch]))
    (c.fetch token source).2.2
  exact ⟨hR.trans hfetched hrest, hanswer⟩

theorem meets_fetchAll (h : Covers R F) (hfetch : CoversFetch R Q) (token : CancelToken)
    {source : φ} (hsource : Q source) : Meets R (fun _ => True) F (fetchAll token source) := by
  induction hsize : ResultSource.size source using Nat.strongRecOn generalizing source with
  | _ n ih =>
    refine meets_of_fetch h.leads hfetch hsource (fetchAll_apply token source) ?_
    intro answer next hQ hnext
    rcases answer with e | _ | batch
    · cases e with
      | cancelled => exact .pure h.leads trivial
      | _ => exact .throw h.leads (h.gateway _ _)
    · exact .pure h.leads trivial
    · exact (ih _ (hsize ▸ hnext batch rfl) hQ rfl).bind h.leads fun _ _ =>
        .pure h.leads trivial

theorem meets_stream (h : Covers R F) (hcrash : ∀ why, F (.crash why)) (hfetch : CoversFetch R Q)
    (t : Tableau) (token : CancelToken) (before : Nat) {source : φ} (hsource : Q source) :
    Meets R (fun _ => True) F (stream t token before source) := by
  induction hsize : ResultSource.size source using Nat.strongRecOn generalizing source before with
  | _ n ih =>
    have hlines (line : Except Crash Text) (t : Text) : Meets R (fun _ => True) F
        (do draw line; writeLine t : ConsoleM Unit) :=
      (meets_draw h hcrash line).bind h.leads fun _ _ => meets_writeLine h t
    refine meets_of_fetch h.leads hfetch hsource (stream_apply t token before source) ?_
    intro answer next hQ hnext
    rcases answer with e | _ | batch
    · cases e with
      | cancelled => exact hlines _ _
      | _ => exact .throw h.leads (h.gateway _ _)
    · exact hlines _ _
    · exact (Meets.forM h.leads (fun row => meets_draw h hcrash _) batch).bind h.leads
        fun _ _ => ih _ (hsize ▸ hnext batch rfl) _ hQ rfl

/-- **Showing a result goes along with whatever writing and fetching do.** -/
theorem meets_body (h : Covers R F) (hcrash : ∀ why, F (.crash why)) (hfetch : CoversFetch R Q)
    (mode : ResultMode) {d : Descriptor φ} (hsource : Q d.source) (token : CancelToken) :
    Meets R (fun _ => True) F (body mode d token) := by
  cases mode with
  | tableau =>
    refine .ite ?_ ?_
    · exact (meets_draw h hcrash _).bind h.leads fun _ _ =>
        (meets_draw h hcrash _).bind h.leads fun _ _ =>
          (meets_draw h hcrash _).bind h.leads fun _ _ =>
            meets_stream h hcrash hfetch _ token 0 hsource
    · exact (meets_fetchAll h hfetch token hsource).bind h.leads fun _ _ =>
        .ite (meets_writeLine h _) (meets_drawAll h hcrash _)
  | table =>
    exact (meets_fetchAll h hfetch token hsource).bind h.leads fun _ _ =>
      (meets_writeLine h _).bind h.leads fun _ _ => meets_drawAll h hcrash _
  | changelog =>
    exact (meets_fetchAll h hfetch token hsource).bind h.leads fun _ _ =>
      (meets_writeLine h _).bind h.leads fun _ _ => meets_drawAll h hcrash _

/-- Showing a result opens the view that was asked for, and no other. -/
theorem meets_present (h : Tolerates E F) (hcrash : ∀ why, F (.crash why)) (mode : ResultMode)
    (d : Descriptor φ) (token : CancelToken) (c : Console) :
    Answers (fun _ => True) F (present mode d token c).1 ∧
      ∃ shown, (present mode d token c).2.journal =
          c.journal ++ .opened mode :: (shown ++ [.closed]) ∧ ∀ e ∈ shown, E e := by
  obtain ⟨⟨shown, hshown, hE⟩, hanswer⟩ :=
    meets_body h.covers hcrash h.coversFetch mode (d := d) trivial token (c.note (.opened mode))
  refine ⟨hanswer, shown, ?_, hE⟩
  change (body mode d token (c.note (.opened mode))).2.journal ++ [.closed] = _
  rw [hshown]
  simp [note]

end View

end SqlConsole
