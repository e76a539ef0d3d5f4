import SqlConsole.Proofs.Console.Growth
/-!
# Interrupts and the guards that direct them

While a guard is alive, interrupts go to its token; when it is dropped, the handler that it found is
put back.  The handlers that are to be put back form a stack, on which the present one is the
uppermost (`Guarded.stack`): a guard is pushed and popped, and an interrupt leaves the stack alone.
So guards that are dropped in the opposite order of their installation leave the handler as it was
(`Guarded.run_of_wellNested`).

Interrupts that go to a new token cancel it and nothing else, and all of them are handled
(`Interrupts.raiseTimes_begun`).
-/

namespace SqlConsole

namespace Interrupts

/-! ## Raising -/

/-- Deliver a number of interrupts, one after the other. -/
def raiseTimes : Nat → Interrupts → Interrupts
  | 0, i => i
  | n + 1, i => (raiseTimes n i).raise.2

theorem raiseTimes_add (m n : Nat) (i : Interrupts) :
    raiseTimes n (raiseTimes m i) = raiseTimes (m + n) i := by
  induction n with
  | zero => rfl
  | succ n ih => exact congrArg (·.raise.2) ih

/-- An interrupt does not change who is told of the next. -/
@[simp] theorem handler_raise (i : Interrupts) : i.raise.2.handler = i.handler := by
  unfold raise
  dsimp only
  split <;> simp_all [cancel]

/-- The tokens stay, whether they are cancelled or not. -/
@[simp] theorem length_raise (i : Interrupts) :
    i.raise.2.cancelled.length = i.cancelled.length := by
  unfold raise
  dsimp only
  split <;> simp [cancel]

/-- An interrupt that goes to a token reaches no other. -/
theorem isCancelled_raise {i : Interrupts} {token : CancelToken}
    (h : i.handler ≠ some (.cancel token)) :
    i.raise.2.isCancelled token = i.isCancelled token := by
  unfold raise
  dsimp only
  split
  · rfl
  · next other hhandler =>
    have hne : other ≠ token := by
      intro heq
      exact h (heq ▸ hhandler)
    simp only [isCancelled, cancel]
    rw [List.getElem?_set_ne hne]
  · rfl

/-- The token that was made last is behind all others. -/
theorem isCancelled_new (handler : Option Handler) (cancelled : List Bool) (last : Bool)
    (heard : List Text) (raised : List Bool) :
    isCancelled ⟨handler, cancelled ++ [last], heard, raised⟩ cancelled.length = last := by
  simp [isCancelled]

/-- The others are as they were. -/
theorem isCancelled_old (i : Interrupts) (handler : Option Handler) (last : Bool)
    (heard : List Text) (raised : List Bool) {token : CancelToken}
    (h : token ≠ i.cancelled.length) :
    isCancelled ⟨handler, i.cancelled ++ [last], heard, raised⟩ token = i.isCancelled token := by
  unfold isCancelled
  by_cases hlt : token < i.cancelled.length
  · rw [List.getElem?_append_left hlt]
  · have hbehind : i.cancelled.length < token := Nat.lt_of_le_of_ne (Nat.le_of_not_lt hlt) h.symm
    have hnone : (i.cancelled ++ [last])[token]? = none := by
      rw [List.getElem?_eq_none_iff, List.length_append]
      exact hbehind
    rw [hnone, List.getElem?_eq_none (Nat.le_of_lt hbehind)]

/-- A new token is made, and interrupts go to it. -/
def begun (i : Interrupts) : Interrupts := (i.newToken.2.install i.newToken.1).2

theorem begun_eq (i : Interrupts) : i.begun = {
    handler := some (.cancel i.cancelled.length)
    cancelled := i.cancelled ++ [false]
    heard := i.heard
    raised := i.raised } := rfl

/-- **Interrupts that go to a new token cancel it, and each of them is handled.** -/
theorem raiseTimes_begun (n : Nat) (i : Interrupts) :
    raiseTimes n i.begun = {
      handler := some (.cancel i.cancelled.length)
      cancelled := i.cancelled ++ [decide (0 < n)]
      heard := i.heard
      raised := i.raised ++ List.replicate n true } := by
  induction n with
  | zero => simp [raiseTimes, begun_eq]
  | succ n ih =>
    rw [raiseTimes, ih]
    simp [raise, cancel, List.replicate_succ']

end Interrupts

/-- The operation that an event dispatches. -/
def Event.operation? : Event → Option Operation
  | .dispatched op => some op
  | _ => none

namespace Console

/-- The operations that were dispatched, in their order. -/
def operations (c : Console) : List Operation := c.journal.filterMap Event.operation?

theorem operations_note {e : Event} (he : e.operation? = none) (c : Console) :
    (c.note e).operations = c.operations := by
  simp [operations, note, he]

@[simp] theorem operations_put (t : Text) (c : Console) :
    (c.put t).2.operations = c.operations := by
  unfold put
  dsimp only
  split
  · rfl
  · exact operations_note rfl _

@[simp] theorem interrupts_put (t : Text) (c : Console) :
    (c.put t).2.interrupts = c.interrupts := by
  unfold put
  dsimp only
  split <;> rfl

/-- From one console to another interrupts were raised, and nothing else was done to them.  Nothing
was dispatched. -/
structure Raised (c d : Console) : Prop where
  interrupts : ∃ n, d.interrupts = c.interrupts.raiseTimes n
  operations : d.operations = c.operations

theorem leads_raised : Leads Raised where
  refl _ := ⟨⟨0, rfl⟩, rfl⟩
  trans := by
    intro c d e hcd hde
    obtain ⟨m, hm⟩ := hcd.interrupts
    obtain ⟨n, hn⟩ := hde.interrupts
    refine ⟨⟨m + n, ?_⟩, hde.operations.trans hcd.operations⟩
    rw [hn, hm, Interrupts.raiseTimes_add]

theorem raised_put (t : Text) (c : Console) : Raised c (c.put t).2 :=
  ⟨⟨0, interrupts_put t c⟩, operations_put t c⟩

theorem raised_note {e : Event} (he : e.operation? = none) (c : Console) : Raised c (c.note e) :=
  ⟨⟨0, rfl⟩, operations_note he c⟩

theorem covers_raised : Covers Raised fun _ => True :=
  ⟨leads_raised, raised_put, trivial, fun _ _ => trivial⟩

end Console

/-- Sources of a kind do nothing to the interrupts but raise some, and stay of the kind. -/
def ResultSource.OnlyRaises {φ : Type} [ResultSource φ] (Q : φ → Prop) : Prop :=
  ∀ token source i, Q source →
    (∃ n, (fetch token source i).2.2 = i.raiseTimes n) ∧ Q (fetch token source i).2.1

/-- Showing a result does nothing to the interrupts but what its source does. -/
theorem View.raised_present {φ : Type} [ResultSource φ] {Q : φ → Prop}
    (hQ : ResultSource.OnlyRaises Q) (mode : ResultMode) {d : Descriptor φ} (hsource : Q d.source)
    (token : CancelToken) (c : Console) : Console.Raised c (present mode d token c).2 := by
  have hfetch : Console.CoversFetch Console.Raised Q := by
    intro token source c hsource
    obtain ⟨hraised, hnext⟩ := hQ token source c.interrupts hsource
    exact ⟨⟨hraised, Console.operations_note rfl _⟩, hnext⟩
  obtain ⟨hbody, -⟩ := meets_body Console.covers_raised (fun _ => trivial) hfetch mode hsource token
    (c.note (.opened mode))
  exact Console.leads_raised.trans (Console.raised_note rfl c)
    (Console.leads_raised.trans hbody (Console.raised_note rfl _))

/-! ## Guards -/

/-- What happens to the handler while guards come and go. -/
inductive GuardStep where
  /-- A guard is installed: interrupts go to its token. -/
  | install (token : CancelToken)
  | interrupt
  /-- The guard that was installed last is dropped. -/
  | drop
  deriving DecidableEq, Repr

/-- The interrupts, and the handlers that the living guards are to put back, the last guard's
first. -/
structure Guarded where
  interrupts : Interrupts
  saved : List (Option Handler)
  deriving DecidableEq, Repr

namespace Guarded

def step (g : Guarded) : GuardStep → Guarded
  | .install token =>
    let (previous, interrupts) := g.interrupts.install token
    ⟨interrupts, previous :: g.saved⟩
  | .interrupt => { g with interrupts := g.interrupts.raise.2 }
  | .drop =>
    match g.saved with
    | [] => g
    | previous :: saved => ⟨g.interrupts.restore previous, saved⟩

def run (steps : List GuardStep) (g : Guarded) : Guarded := steps.foldl step g

/-- Every guard is dropped, and none before it was installed, given how many were installed
before. -/
def closes : Nat → List GuardStep → Bool
  | living, [] => living = 0
  | living, .install _ :: steps => closes (living + 1) steps
  | living, .interrupt :: steps => closes living steps
  | 0, .drop :: _ => false
  | living + 1, .drop :: steps => closes living steps

/-- Guards are dropped in the opposite order of their installation, and all of them. -/
def WellNested (steps : List GuardStep) : Prop := closes 0 steps = true

/-- All handlers, the present one first. -/
def stack (g : Guarded) : List (Option Handler) := g.interrupts.handler :: g.saved

/-- **Where guards are dropped that were there before, their handlers are gone from the stack**, and
nothing else has changed. -/
theorem stack_run {living : Nat} {steps : List GuardStep} (h : closes living steps = true)
    {g : Guarded} (hg : living ≤ g.saved.length) : (run steps g).stack = g.stack.drop living := by
  induction steps generalizing living g with
  | nil =>
    have hnone : living = 0 := by simpa [closes] using h
    subst hnone
    rfl
  | cons first steps ih =>
    cases first with
    | install token =>
      -- one guard more is dropped, and one handler more is on the stack
      have hgrown : living + 1 ≤ (g.step (.install token)).saved.length := by
        simpa [step] using hg
      exact ih h hgrown
    | interrupt =>
      have hkept : (run steps (g.step .interrupt)).stack = (g.step .interrupt).stack.drop living :=
        ih (by simpa [closes] using h) hg
      have hstack : (g.step .interrupt).stack = g.stack := by simp [step, stack]
      rw [← hstack]
      exact hkept
    | drop =>
      obtain ⟨interrupts, saved⟩ := g
      cases living with
      | zero => simp [closes] at h
      | succ living =>
        cases saved with
        | nil => simp at hg
        | cons previous saved => exact ih h (Nat.le_of_succ_le_succ hg)

/-- **Well nested guards leave the handler as it was**, and the guards around them untouched. -/
theorem run_of_wellNested {steps : List GuardStep} (h : WellNested steps) (g : Guarded) :
    (run steps g).interrupts.handler = g.interrupts.handler ∧ (run steps g).saved = g.saved := by
  have hstack : (run steps g).stack = g.stack := stack_run h (Nat.zero_le _)
  exact List.cons.inj hstack

end Guarded

end SqlConsole
