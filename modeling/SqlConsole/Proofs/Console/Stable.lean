import SqlConsole.View
/-!
# What work at the console keeps

A program respects a relation of states if it answers alike in related states and leaves related
states behind (`Respects`).  Programs are put together from steps, and so are the proofs: a program
respects what its steps respect.

`Console.Stable` are the relations that writing, fetching and reporting keep, and all views of
results respect them (`respects_present`).  Taken between a console and itself, such a relation is
an invariant of what is done there; taken between two consoles, it says what does not matter.
-/

namespace SqlConsole

/-- An answer without a fault of the statement set. -/
def NoSetFault {α : Type} : Except Stop α → Prop
  | .error (.failure (.statementSet _)) => False
  | _ => True

/-- In related states a program answers alike, without a fault of the statement set, and leaves
related states behind. -/
def Respects {S α : Type} (R : S → S → Prop) (m : ExceptT Stop (StateM S) α) : Prop :=
  ∀ s t, R s t → (m s).1 = (m t).1 ∧ NoSetFault (m s).1 ∧ R (m s).2 (m t).2

namespace Respects

variable {S α β : Type} {R : S → S → Prop}

theorem run_bind (m : ExceptT Stop (StateM S) α) (f : α → ExceptT Stop (StateM S) β) (s : S) :
    (m >>= f) s = match m s with
      | (.ok a, s) => f a s
      | (.error e, s) => (.error e, s) := by
  change (ExceptT.bindCont f (m s).1) (m s).2 = _
  rcases m s with ⟨_ | _, _⟩ <;> rfl

theorem pure (a : α) : Respects R (Pure.pure a : ExceptT Stop (StateM S) α) :=
  fun _ _ h => ⟨rfl, trivial, h⟩

theorem throw {stop : Stop} (hf : NoSetFault (.error stop : Except Stop α)) :
    Respects R (MonadExcept.throw stop : ExceptT Stop (StateM S) α) :=
  fun _ _ h => ⟨rfl, hf, h⟩

theorem bind {m : ExceptT Stop (StateM S) α} {f : α → ExceptT Stop (StateM S) β}
    (hm : Respects R m) (hf : ∀ a, Respects R (f a)) : Respects R (m >>= f) := by
  intro s t h
  obtain ⟨hanswer, hfault, hleft⟩ := hm s t h
  rw [run_bind, run_bind]
  rcases hs : m s with ⟨answer, s'⟩
  rcases ht : m t with ⟨answer', t'⟩
  rw [hs, ht] at hanswer hleft
  rw [hs] at hfault
  dsimp only at hanswer hleft hfault
  subst hanswer
  cases answer with
  | ok a => exact hf a s' t' hleft
  | error e =>
    refine ⟨rfl, ?_, hleft⟩
    rcases e with (_ | _ | _ | _ | _ | _) | _
    case failure.statementSet => exact hfault
    all_goals trivial

/-- A program that reads the state depends on what related states have in common. -/
theorem get_bind {f : S → ExceptT Stop (StateM S) α} (hsame : ∀ s t, R s t → f s = f t)
    (hf : ∀ s, Respects R (f s)) : Respects R (MonadState.get >>= f) := by
  intro s t h
  have hread : ∀ u, (MonadState.get >>= f : ExceptT Stop (StateM S) α) u = f u u := fun _ => rfl
  rw [hread, hread, ← hsame s t h]
  exact hf s s t h

theorem ite {p : Prop} [Decidable p] {m n : ExceptT Stop (StateM S) α} (hm : Respects R m)
    (hn : Respects R n) : Respects R (if p then m else n) := by
  by_cases hp : p
  · rwa [if_pos hp]
  · rwa [if_neg hp]

theorem forM {f : β → ExceptT Stop (StateM S) PUnit} (hf : ∀ b, Respects R (f b)) (bs : List β) :
    Respects R (bs.forM f) := by
  induction bs with
  | nil => exact Respects.pure _
  | cons b bs ih => exact (hf b).bind fun _ => ih

end Respects

namespace Console

/-- A relation of consoles that work at them keeps.  Nothing is said of reads and of the requests
for modifications. -/
structure Stable (R : Console → Console → Prop) : Prop where
  put : ∀ {c d}, R c d → ∀ t, (c.put t).1 = (d.put t).1 ∧ R (c.put t).2 (d.put t).2
  styled : ∀ {c d}, R c d → c.styled = d.styled
  lines : ∀ {c d}, R c d → c.lines = d.lines
  interrupts : ∀ {c d}, R c d → c.interrupts = d.interrupts
  interrupt : ∀ {c d}, R c d → ∀ i, R { c with interrupts := i } { d with interrupts := i }
  note : ∀ {c d}, R c d → ∀ e, (∀ ms, e ≠ .asked (.modify ms)) → R (c.note e) (d.note e)

variable {R : Console → Console → Prop}

/-- The output accepts nothing more. -/
def full : Stop := .failure (.output sinkFull)

/-- What is written is accepted or not, and a text that is not accepted is a failure. -/
theorem write_apply (t : Text) (c : Console) :
    write t c = (if (c.put t).1 then .ok () else .error full, (c.put t).2) := by
  have hrun : write t c =
      (if !(c.put t).1 then throw full else pure () : ConsoleM Unit) (c.put t).2 :=
    rfl
  rw [hrun]
  cases (c.put t).1 <;> rfl

theorem respects_write (h : Stable R) (t : Text) : Respects R (write t) := by
  intro c d hcd
  obtain ⟨haccepted, hleft⟩ := h.put hcd t
  rw [write_apply, write_apply, ← haccepted]
  refine ⟨rfl, ?_, hleft⟩
  dsimp only
  split <;> trivial

theorem respects_writeLine (h : Stable R) (t : Text) : Respects R (writeLine t) :=
  respects_write h _

/-- A line that cannot be drawn is a crash, whatever the state is. -/
theorem respects_draw (h : Stable R) (line : Except Crash Text) : Respects R (draw line) := by
  cases line with
  | ok t => exact respects_writeLine h t
  | error why => exact .throw trivial

theorem respects_drawAll (h : Stable R) (lines : List (Except Crash Text)) :
    Respects R (lines.forM draw) :=
  .forM (respects_draw h) lines

theorem respects_writeInfo (h : Stable R) (message : Text) : Respects R (writeInfo message) := by
  unfold writeInfo
  refine .get_bind (fun c d hcd => ?_) fun c => respects_writeLine h _
  rw [h.styled hcd]

theorem respects_clear (h : Stable R) : Respects R clear := by
  unfold clear
  refine .get_bind (fun c d hcd => ?_) fun c => ?_
  · rw [h.lines hcd]
  · split
    · exact respects_write h _
    · exact .pure ()

/-- What a source answers to a fetch is noted, and the interrupts are what it left of them. -/
theorem fetch_of_eq {φ : Type} [ResultSource φ] {token : CancelToken} {source next : φ}
    {c : Console} {answer : Except GatewayError (Option (List Row))} {i : Interrupts}
    (h : ResultSource.fetch token source c.interrupts = (answer, next, i)) :
    c.fetch token source =
      (answer, next, { c with interrupts := i }.note (.fetched (isBatch answer))) := by
  rw [fetch, h]

/-- Related consoles fetch the same rows. -/
theorem Stable.fetch {φ : Type} [ResultSource φ] (h : Stable R) {c d : Console} (hcd : R c d)
    (token : CancelToken) (source : φ) :
    (c.fetch token source).1 = (d.fetch token source).1 ∧
      (c.fetch token source).2.1 = (d.fetch token source).2.1 ∧
      R (c.fetch token source).2.2 (d.fetch token source).2.2 := by
  unfold Console.fetch
  rw [h.interrupts hcd]
  exact ⟨rfl, rfl, h.note (h.interrupt hcd _) _ (by simp)⟩

end Console

namespace View

open Console

variable {R : Console → Console → Prop} {φ : Type} [ResultSource φ]

/-- A program that fetches a batch and goes on with what came of it. -/
theorem respects_of_fetch {α : Type} (h : Stable R) {token : CancelToken} {source : φ}
    {m : ConsoleM α} {goOn : Except GatewayError (Option (List Row)) → φ → ConsoleM α}
    (hm : ∀ c, m c = goOn (c.fetch token source).1 (c.fetch token source).2.1
      (c.fetch token source).2.2)
    (hgoOn : ∀ answer next, (∀ batch, answer = .ok (some batch) →
      ResultSource.size next < ResultSource.size source) →
      Respects R (goOn answer next)) : Respects R m := by
  intro c d hcd
  obtain ⟨hanswer, hnext, hleft⟩ := h.fetch hcd token source
  rw [hm, hm, ← hanswer, ← hnext]
  refine hgoOn _ _ (fun batch hbatch => ?_) _ _ hleft
  exact size_fetch_lt (d := (c.fetch token source).2.2) (by rw [← hbatch])

/-- What is fetched behind an answer. -/
def fetchedBehind (token : CancelToken) (answer : Except GatewayError (Option (List Row)))
    (next : φ) : ConsoleM Fetched :=
  match answer with
  | .ok none => pure ⟨[], false⟩
  | .error .cancelled => pure ⟨[], true⟩
  | .error e => throw (fetchFailed e)
  | .ok (some batch) => do
    let fetched ← fetchAll token next
    return { fetched with rows := batch ++ fetched.rows }

theorem fetchAll_apply (token : CancelToken) (source : φ) (c : Console) :
    fetchAll token source c = fetchedBehind token (c.fetch token source).1
      (c.fetch token source).2.1 (c.fetch token source).2.2 := by
  rw [fetchAll]
  split
  case h_1 hfetch => rw [hfetch]; rfl
  case h_2 hfetch => rw [hfetch]; rfl
  case h_3 e _ c' hcancelled hfetch =>
    rw [hfetch]
    cases e <;> first | rfl | exact (hcancelled rfl).elim
  case h_4 batch next c' hfetch =>
    dsimp only
    rw [hfetch]
    change _ = (fetchAll token next >>= fun fetched =>
      pure { fetched with rows := batch ++ fetched.rows } : ConsoleM Fetched) c'
    rw [Respects.run_bind]
    rcases fetchAll token next c' with ⟨_ | _, _⟩ <;> rfl

theorem respects_fetchAll (h : Stable R) (token : CancelToken) (source : φ) :
    Respects R (fetchAll token source) := by
  induction hsize : ResultSource.size source using Nat.strongRecOn generalizing source with
  | _ n ih =>
    refine respects_of_fetch h (fetchAll_apply token source) fun answer next hnext => ?_
    rcases answer with e | _ | batch
    · cases e with
      | cancelled => exact .pure _
      | _ => exact .throw trivial
    · exact .pure _
    · exact (ih _ (hsize ▸ hnext batch rfl) next rfl).bind fun _ => .pure _

/-- What is written behind an answer. -/
def streamedBehind (t : Tableau) (token : CancelToken) (before : Nat)
    (answer : Except GatewayError (Option (List Row))) (next : φ) : ConsoleM Unit :=
  match answer with
  | .ok none => do draw t.border; writeLine (received before)
  | .error .cancelled => do draw t.border; writeLine (terminated before)
  | .error e => throw (fetchFailed e)
  | .ok (some batch) => do
    batch.forM fun row => draw (t.row row)
    stream t token (before + batch.length) next

theorem stream_apply (t : Tableau) (token : CancelToken) (before : Nat) (source : φ)
    (c : Console) :
    stream t token before source c = streamedBehind t token before (c.fetch token source).1
      (c.fetch token source).2.1 (c.fetch token source).2.2 := by
  rw [stream]
  split
  case h_1 hfetch => rw [hfetch]; rfl
  case h_2 hfetch => rw [hfetch]; rfl
  case h_3 e _ c' hcancelled hfetch =>
    rw [hfetch]
    cases e <;> first | rfl | exact (hcancelled rfl).elim
  case h_4 batch next c' hfetch =>
    dsimp only
    rw [hfetch]
    change _ = ((batch.forM fun row => draw (t.row row)) >>= fun _ =>
      stream t token (before + batch.length) next : ConsoleM Unit) c'
    rw [Respects.run_bind]
    rcases (batch.forM fun row => draw (t.row row) : ConsoleM Unit) c' with ⟨_ | _, _⟩ <;> rfl

theorem respects_stream (h : Stable R) (t : Tableau) (token : CancelToken) (before : Nat)
    (source : φ) : Respects R (stream t token before source) := by
  induction hsize : ResultSource.size source using Nat.strongRecOn generalizing source before with
  | _ n ih =>
    refine respects_of_fetch h (stream_apply t token before source) fun answer next hnext => ?_
    rcases answer with e | _ | batch
    · cases e with
      | cancelled => exact (respects_draw h _).bind fun _ => respects_writeLine h _
      | _ => exact .throw trivial
    · exact (respects_draw h _).bind fun _ => respects_writeLine h _
    · exact (Respects.forM (fun row => respects_draw h _) batch).bind fun _ =>
        ih _ (hsize ▸ hnext batch rfl) _ next rfl

theorem respects_body (h : Stable R) (mode : ResultMode) (d : Descriptor φ) (token : CancelToken) :
    Respects R (body mode d token) := by
  cases mode with
  | tableau =>
    refine .ite ?_ ?_
    · refine (respects_draw h _).bind fun _ => (respects_draw h _).bind fun _ =>
        (respects_draw h _).bind fun _ => respects_stream h _ token 0 d.source
    · refine (respects_fetchAll h token d.source).bind fun fetched => .ite ?_ ?_
      · exact respects_writeLine h _
      · exact respects_drawAll h _
  | table =>
    exact (respects_fetchAll h token d.source).bind fun _ =>
      (respects_writeLine h _).bind fun _ => respects_drawAll h _
  | changelog =>
    exact (respects_fetchAll h token d.source).bind fun _ =>
      (respects_writeLine h _).bind fun _ => respects_drawAll h _

/-- Showing a result keeps what work at a console keeps. -/
theorem respects_present (h : Stable R) (mode : ResultMode) (d : Descriptor φ) (token : CancelToken) :
    Respects R (present mode d token) := by
  intro c c' hcc
  obtain ⟨hanswer, hfault, hleft⟩ :=
    respects_body h mode d token _ _ (h.note hcc (.opened mode) (by simp))
  exact ⟨hanswer, hfault, h.note hleft .closed (by simp)⟩

end View

end SqlConsole
