import SqlConsole.Proofs.Console.Stable
/-!
# When the output is refused

A sink that has refused a text accepts nothing more.  Work at a console that meets with a refusal
stops there (`Heeds`), and as a stop ends every program that is put together from steps, it does
nothing behind it but give up a result that was being shown.  What happened then is hushed
(`Hushed`): behind the first refusal nothing is asked, fetched, read or dispatched.

The rules follow those of `Respects`; all views of results heed refusals (`heeds_present`).
-/

namespace SqlConsole

/-! ## Events -/

/-- Nothing is left to happen behind a refusal: further texts are refused, and a result is given
up. -/
def Event.IsQuiet (e : Event) : Prop := e = .refused ∨ e = .closed

/-- Behind the first refusal all is quiet. -/
def Hushed (events : List Event) : Prop :=
  ∀ before behind, events = before ++ .refused :: behind → ∀ e ∈ behind, e.IsQuiet

theorem hushed_nil : Hushed [] := by
  intro before behind heq
  cases before <;> cases heq

/-- Where nothing was refused before, it only matters what follows. -/
theorem Hushed.append_of_not_mem {xs ys : List Event} (hx : .refused ∉ xs) (hy : Hushed ys) :
    Hushed (xs ++ ys) := by
  intro before behind heq
  obtain ⟨middle, hbefore, hys⟩ | ⟨middle, hxs, hrest⟩ := List.append_eq_append_iff.1 heq
  · exact hy middle behind hys
  · cases middle with
    | nil => exact hy [] behind hrest.symm
    | cons e middle =>
      obtain ⟨rfl, -⟩ := List.cons.inj hrest
      exact (hx (hxs ▸ List.mem_append_right _ List.mem_cons_self)).elim

/-- What is quiet may follow at any time. -/
theorem Hushed.append_quiet {xs ys : List Event} (hx : Hushed xs) (hy : ∀ e ∈ ys, e.IsQuiet) :
    Hushed (xs ++ ys) := by
  intro before behind heq e he
  obtain ⟨middle, hbefore, hys⟩ | ⟨middle, hxs, hrest⟩ := List.append_eq_append_iff.1 heq
  · exact hy e (hys ▸ List.mem_append_right _ (List.mem_cons_of_mem _ he))
  · cases middle with
    | nil =>
      have hys : ys = .refused :: behind := hrest.symm
      exact hy e (hys ▸ List.mem_cons_of_mem _ he)
    | cons e' middle =>
      obtain ⟨rfl, rfl⟩ := List.cons.inj hrest
      rcases List.mem_append.1 he with he | he
      · exact hx before middle hxs e he
      · exact hy e he

theorem hushed_of_not_mem {xs : List Event} (hx : .refused ∉ xs) : Hushed xs := by
  rw [← List.append_nil xs]
  exact hushed_nil.append_of_not_mem hx

namespace Console

/-! ## Sinks that accept nothing more -/

/-- The sink accepts nothing more. -/
def Full (c : Console) : Prop := c.sink.room = some 0

/-- A text is accepted without an event, or it is refused and fills the sink for good. -/
theorem put_cases (t : Text) (c : Console) :
    (c.put t).1 = true ∧ (c.put t).2.journal = c.journal ∨
      (c.put t).1 = false ∧ (c.put t).2.journal = c.journal ++ [.refused] ∧ (c.put t).2.Full := by
  cases hroom : c.sink.room with
  | none =>
    left
    simp [put, Sink.write, hroom]
  | some n =>
    by_cases hfits : Text.byteLength t ≤ n
    · left
      simp [put, Sink.write, hroom, hfits]
    · right
      simp [put, Sink.write, hroom, hfits, Full, note]

/-- A full sink refuses every text that is not empty. -/
theorem put_of_full {c : Console} (hc : c.Full) {t : Text} (ht : t ≠ []) : (c.put t).1 = false := by
  obtain ⟨x, r, rfl⟩ := List.exists_cons_of_ne_nil ht
  have hpos := x.utf8Size_pos
  have hlong : ¬ Text.byteLength (x :: r) ≤ 0 := by
    rw [Text.byteLength_cons]
    omega
  have hroom : c.sink.room = some 0 := hc
  simp only [put, Sink.write, hroom, if_neg hlong]

/-! ## Work that stops at a refusal -/

/-- What happened from one console to another is hushed, and a refusal in it has left a full sink
and made something hold. -/
def Stops (c d : Console) (p : Prop) : Prop :=
  ∃ events, d.journal = c.journal ++ events ∧ Hushed events ∧ (.refused ∈ events → d.Full ∧ p)

variable {c d e : Console} {p q : Prop}

/-- Where nothing was refused, it does not matter what a refusal would have brought. -/
theorem stops_of_journal_append (events : List Event) (h : d.journal = c.journal ++ events)
    (hnone : .refused ∉ events) : Stops c d p :=
  ⟨events, h, hushed_of_not_mem hnone, fun hin => (hnone hin).elim⟩

theorem stops_of_journal_eq (h : d.journal = c.journal) : Stops c d p :=
  stops_of_journal_append [] (by rw [h, List.append_nil]) List.not_mem_nil

theorem stops_note {event : Event} (hevent : event ≠ .refused) (c : Console) :
    Stops c (c.note event) p :=
  stops_of_journal_append [event] rfl (by simpa using hevent.symm)

theorem Stops.imp (h : Stops c d p) (hpq : p → q) : Stops c d q := by
  obtain ⟨events, hjournal, hhushed, hrefused⟩ := h
  exact ⟨events, hjournal, hhushed, fun hin => ⟨(hrefused hin).1, hpq (hrefused hin).2⟩⟩

/-- Work that nothing was refused in, and what follows it. -/
theorem Stops.trans (h : Stops c d p) (hp : ¬ p) (h' : Stops d e q) : Stops c e q := by
  obtain ⟨events, hjournal, hhushed, hrefused⟩ := h
  obtain ⟨events', hjournal', hhushed', hrefused'⟩ := h'
  have hnone : .refused ∉ events := fun hin => hp (hrefused hin).2
  refine ⟨events ++ events', by rw [hjournal', hjournal, List.append_assoc],
    hhushed'.append_of_not_mem hnone, fun hin => ?_⟩
  exact hrefused' ((List.mem_append.1 hin).resolve_left hnone)

/-- Work behind which nothing but quiet events is left to happen. -/
theorem Stops.trans_quiet (events' : List Event) (h : Stops c d p)
    (hjournal' : e.journal = d.journal ++ events') (hquiet : ∀ event ∈ events', event.IsQuiet)
    (hfull : d.Full ∧ p ∨ .refused ∈ events' → e.Full ∧ q) : Stops c e q := by
  obtain ⟨events, hjournal, hhushed, hrefused⟩ := h
  refine ⟨events ++ events', by rw [hjournal', hjournal, List.append_assoc],
    hhushed.append_quiet hquiet, fun hin => ?_⟩
  rcases List.mem_append.1 hin with hin | hin
  · exact hfull (.inl (hrefused hin))
  · exact hfull (.inr hin)

/-- A refused text is the last that happens, and an accepted one does not count. -/
theorem stops_put (t : Text) (c : Console) : Stops c (c.put t).2 ((c.put t).1 = false) := by
  obtain ⟨-, hjournal⟩ | ⟨hrefused, hjournal, hfull⟩ := put_cases t c
  · exact stops_of_journal_eq hjournal
  · refine ⟨[.refused], hjournal, ?_, fun _ => ⟨hfull, hrefused⟩⟩
    exact hushed_nil.append_quiet fun event hin => .inl (List.mem_singleton.1 hin)

/-- A text that is written behind other work, whatever came of it. -/
theorem Stops.put (h : Stops c d p) {t : Text} (ht : t ≠ []) :
    Stops c (d.put t).2 ((d.put t).1 = false) := by
  obtain ⟨haccepted, hjournal⟩ | ⟨hrefused, hjournal, hfull⟩ := put_cases t d
  · refine h.trans_quiet [] (by rw [hjournal, List.append_nil]) (by simp) ?_
    intro hor
    rcases hor with ⟨hd, -⟩ | hin
    · rw [put_of_full hd ht] at haccepted
      cases haccepted
    · cases hin
  · exact h.trans_quiet [.refused] hjournal (fun event hin => .inl (List.mem_singleton.1 hin))
      fun _ => ⟨hfull, hrefused⟩

end Console

/-! ## Programs -/

/-- Whatever is refused in a program, it stops there: what it does at the console of its state is
hushed, and behind a refusal it has stopped. -/
def Heeds {S α : Type} (view : S → Console) (m : ExceptT Stop (StateM S) α) : Prop :=
  ∀ s, Console.Stops (view s) (view (m s).2) (∃ stop, (m s).1 = .error stop)

namespace Heeds

open Console

variable {S α β : Type} {view : S → Console}

/-- A program that leaves the journal as it is. -/
theorem of_journal_eq {m : ExceptT Stop (StateM S) α}
    (h : ∀ s, (view (m s).2).journal = (view s).journal) : Heeds view m :=
  fun s => stops_of_journal_eq (h s)

theorem pure (a : α) : Heeds view (Pure.pure a : ExceptT Stop (StateM S) α) :=
  of_journal_eq fun _ => rfl

theorem throw (stop : Stop) : Heeds view (MonadExcept.throw stop : ExceptT Stop (StateM S) α) :=
  of_journal_eq fun _ => rfl

/-- A step that stops is the last, and one that does not has had nothing refused. -/
theorem bind {m : ExceptT Stop (StateM S) α} {f : α → ExceptT Stop (StateM S) β}
    (hm : Heeds view m) (hf : ∀ a, Heeds view (f a)) : Heeds view (m >>= f) := by
  intro s
  have hstep := hm s
  rw [Respects.run_bind]
  rcases hs : m s with ⟨_ | a, t⟩
  · rw [hs] at hstep
    exact hstep.imp fun _ => ⟨_, rfl⟩
  · rw [hs] at hstep
    refine hstep.trans ?_ (hf a t)
    intro hstopped
    obtain ⟨stop, hstop⟩ := hstopped
    cases hstop

theorem get_bind {f : S → ExceptT Stop (StateM S) α} (hf : ∀ s, Heeds view (f s)) :
    Heeds view (MonadState.get >>= f) :=
  fun s => hf s s

theorem ite {p : Prop} [Decidable p] {m n : ExceptT Stop (StateM S) α} (hm : Heeds view m)
    (hn : Heeds view n) : Heeds view (if p then m else n) := by
  by_cases hp : p
  · rwa [if_pos hp]
  · rwa [if_neg hp]

theorem forM {f : α → ExceptT Stop (StateM S) PUnit} (hf : ∀ a, Heeds view (f a))
    (as : List α) : Heeds view (as.forM f) := by
  induction as with
  | nil => exact pure _
  | cons a as ih => exact (hf a).bind fun _ => ih

end Heeds

namespace Console

/-! ## Writing -/

theorem heeds_write (t : Text) : Heeds id (write t) := by
  intro c
  rw [write_apply]
  refine (stops_put t c).imp fun hrefused => ⟨full, ?_⟩
  rw [hrefused]
  rfl

theorem heeds_writeLine (t : Text) : Heeds id (writeLine t) := heeds_write _

theorem heeds_draw (line : Except Crash Text) : Heeds id (draw line) := by
  cases line with
  | ok t => exact heeds_writeLine t
  | error why => exact .throw _

theorem heeds_drawAll (lines : List (Except Crash Text)) : Heeds id (lines.forM draw) :=
  .forM heeds_draw lines

theorem stops_fetch {φ : Type} [ResultSource φ] (token : CancelToken) (source : φ) (c : Console)
    {p : Prop} :
    Stops c (c.fetch token source).2.2 p :=
  stops_of_journal_append [.fetched _] rfl (by simp)

end Console

namespace View

open Console

variable {φ : Type} [ResultSource φ]

/-! ## Views -/

/-- A program that fetches a batch and goes on with what came of it. -/
theorem heeds_of_fetch {α : Type} {token : CancelToken} {source : φ} {m : ConsoleM α}
    {goOn : Except GatewayError (Option (List Row)) → φ → ConsoleM α}
    (hm : ∀ c, m c = goOn (c.fetch token source).1 (c.fetch token source).2.1
      (c.fetch token source).2.2)
    (hgoOn : ∀ answer next, (∀ batch, answer = .ok (some batch) →
      ResultSource.size next < ResultSource.size source) →
      Heeds id (goOn answer next)) : Heeds id m := by
  intro c
  rw [hm]
  refine (stops_fetch token source c (p := False)).trans id (hgoOn _ _ (fun batch hbatch => ?_) _)
  exact size_fetch_lt (d := (c.fetch token source).2.2) (by rw [← hbatch])

theorem heeds_fetchAll (token : CancelToken) (source : φ) :
    Heeds id (fetchAll token source) := by
  induction hsize : ResultSource.size source using Nat.strongRecOn generalizing source with
  | _ n ih =>
    refine heeds_of_fetch (fetchAll_apply token source) fun answer next hnext => ?_
    rcases answer with e | _ | batch
    · cases e with
      | cancelled => exact .pure _
      | _ => exact .throw _
    · exact .pure _
    · exact (ih _ (hsize ▸ hnext batch rfl) next rfl).bind fun _ => .pure _

/-- No batch is fetched behind a row that could not be written. -/
theorem heeds_stream (t : Tableau) (token : CancelToken) (before : Nat) (source : φ) :
    Heeds id (stream t token before source) := by
  induction hsize : ResultSource.size source using Nat.strongRecOn generalizing source before with
  | _ n ih =>
    refine heeds_of_fetch (stream_apply t token before source) fun answer next hnext => ?_
    rcases answer with e | _ | batch
    · cases e with
      | cancelled => exact (heeds_draw _).bind fun _ => heeds_writeLine _
      | _ => exact .throw _
    · exact (heeds_draw _).bind fun _ => heeds_writeLine _
    · exact (Heeds.forM (fun row => heeds_draw _) batch).bind fun _ =>
        ih _ (hsize ▸ hnext batch rfl) _ next rfl

theorem heeds_body (mode : ResultMode) (d : Descriptor φ) (token : CancelToken) :
    Heeds id (body mode d token) := by
  cases mode with
  | tableau =>
    refine .ite ?_ ?_
    · exact (heeds_draw _).bind fun _ => (heeds_draw _).bind fun _ =>
        (heeds_draw _).bind fun _ => heeds_stream _ token 0 d.source
    · exact (heeds_fetchAll token d.source).bind fun _ => .ite (heeds_writeLine _) (heeds_drawAll _)
  | table =>
    exact (heeds_fetchAll token d.source).bind fun _ =>
      (heeds_writeLine _).bind fun _ => heeds_drawAll _
  | changelog =>
    exact (heeds_fetchAll token d.source).bind fun _ =>
      (heeds_writeLine _).bind fun _ => heeds_drawAll _

/-- A result that could not be shown to its end is given up, and nothing more is done with it. -/
theorem heeds_present (mode : ResultMode) (d : Descriptor φ) (token : CancelToken) :
    Heeds id (present mode d token) := by
  intro c
  have hopened : Stops c (c.note (.opened mode)) False := stops_note (by simp) c
  refine (hopened.trans id (heeds_body mode d token _)).trans_quiet [.closed] rfl ?_ ?_
  · exact fun e he => .inr (List.mem_singleton.1 he)
  · intro hor
    rcases hor with hfailed | hin
    · exact hfailed
    · cases List.mem_singleton.1 hin

end View

end SqlConsole
