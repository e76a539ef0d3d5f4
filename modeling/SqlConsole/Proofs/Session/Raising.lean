import SqlConsole.Gateway.Rehearsal
import SqlConsole.Proofs.Console.Guards
import SqlConsole.Proofs.Gateway.Delivery
import SqlConsole.Proofs.Session.Steps
/-!
# Gateways that only raise interrupts

A gateway that does nothing to the interrupts but raise some (`Gateway.OnlyRaises`) leaves nothing
else to be done to them: writing does not touch them, and sources are the gateway's own.  So no
operation does anything to the interrupts but raise some (`raises_dispatch`), whatever it asks and
shows.

The local gateway is one, and does not even raise any (`Local.onlyRaises`).  So are rehearsals where
no batch is planned to find its statement cancelled (`Rehearsal.onlyRaises`).
-/

namespace SqlConsole

/-! ## Gateways that only raise -/

/-- As long as something holds of a gateway that it keeps true, it does nothing to the interrupts
but raise some, and neither do the sources that it hands out. -/
structure Gateway.OnlyRaises {σ φ : Type} [ResultSource φ] [Gateway.Over σ φ] (P : σ → Prop)
    (Q : φ → Prop) : Prop where
  handle : ∀ r token g i, P g →
    (∃ n, (Gateway.handle r token g i).2.2 = i.raiseTimes n) ∧ P (Gateway.handle r token g i).2.1
  query : ∀ statement token g i (d : Descriptor φ), P g →
    (Gateway.handle (.query statement) token g i).1 = .ok d → Q d.source
  source : ResultSource.OnlyRaises Q

namespace Session

variable {σ φ α : Type} [ResultSource φ] [Gateway.Over σ φ] {P : σ → Prop} {Q : φ → Prop}

/-- From one session to another nothing was dispatched, and nothing was done to the interrupts but
to raise some.  Something still holds of the gateway. -/
def Raises (P : σ → Prop) (s t : Session σ) : Prop :=
  P s.gateway → Console.Raised s.console t.console ∧ P t.gateway

omit [ResultSource φ] [Gateway.Over σ φ] in
theorem leads_raises : Leads (Raises P) where
  refl s hs := ⟨Console.leads_raised.refl _, hs⟩
  trans := by
    intro s t u hst htu hs
    obtain ⟨hraised, ht⟩ := hst hs
    obtain ⟨hraised', hu⟩ := htu ht
    exact ⟨Console.leads_raised.trans hraised hraised', hu⟩

/-! ## Operations -/

/-- Nothing is said of what a program answers. -/
abbrev MeetsRaises (P : σ → Prop) (m : SessionM σ α) : Prop :=
  Meets (Raises P) (fun _ => True) (fun _ => True) m

theorem answers_true (answer : Except Stop α) :
    Answers (fun _ => True) (fun _ => True) answer := by
  cases answer <;> trivial

/-- A change of the session alone. -/
theorem meetsRaises_of_eq {m : SessionM σ α} (hgateway : ∀ s, (m s).2.gateway = s.gateway)
    (hconsole : ∀ s, (m s).2.console = s.console) : MeetsRaises P m := by
  intro s
  refine ⟨fun hs => ?_, answers_true _⟩
  rw [hgateway, hconsole]
  exact ⟨Console.leads_raised.refl _, hs⟩

section

variable (honly : Gateway.OnlyRaises P Q)
include honly

theorem raises_ask (r : Request) (token : CancelToken) (attempt : Text) :
    MeetsRaises P (ask r token attempt) := by
  intro s
  refine ⟨fun hs => ?_, answers_true _⟩
  obtain ⟨hraised, hnext⟩ := honly.handle r token s.gateway s.console.interrupts hs
  exact ⟨⟨hraised, Console.operations_note rfl _⟩, hnext⟩

/-- A query is answered with a source that only raises, so showing its result does nothing else. -/
theorem raises_showing (statement attempt : Text) (token : CancelToken)
    {f : ResultMode → SessionM σ α} (hf : ∀ mode, MeetsRaises P (f mode)) :
    MeetsRaises P (ask (.query statement) token attempt >>= fun (d : Descriptor φ) =>
      atConsole (View.present d.mode d token) >>= fun _ => f d.mode) := by
  intro s
  refine ⟨fun hs => ?_, answers_true _⟩
  have hasked := (raises_ask honly (.query statement) token attempt s).1
  refine leads_raises.bind hasked (fun (d : Descriptor φ) hd => ?_) hs
  have hsource : Q d.source := by
    refine honly.query statement token s.gateway s.console.interrupts d hs ?_
    simp only [ask] at hd
    rcases hanswer : (Gateway.handle (.query statement) token s.gateway
      s.console.interrupts).1 with e | d'
    · rw [hanswer] at hd
      cases hd
    · rw [hanswer] at hd
      exact congrArg Except.ok (Except.ok.inj hd)
  have hshown : MeetsRaises P (atConsole (View.present d.mode d token) : SessionM σ Unit) :=
    fun s => ⟨fun hs => ⟨View.raised_present honly.source d.mode hsource token s.console, hs⟩,
      answers_true _⟩
  exact (hshown.bind leads_raises (fun _ _ => hf d.mode) _).1

/-- **No step of a session does anything to the interrupts but raise some.** -/
theorem raises_of_built {token : CancelToken} {m : SessionM σ α} (h : Built token m) :
    MeetsRaises P m := by
  induction h with
  | pure a => exact .pure leads_raises trivial
  | throw f => exact .throw leads_raises trivial
  | write t =>
    intro s
    refine ⟨fun hs => ⟨?_, hs⟩, answers_true _⟩
    have hwritten : (atConsole (Console.write t) s).2.console = (s.console.put t).2 := by
      simp only [atConsole, Console.write_apply]
    rw [hwritten]
    exact Console.raised_put t s.console
  | put | halt => exact meetsRaises_of_eq (fun _ => rfl) fun _ => rfl
  | ask r attempt => exact raises_ask honly r token attempt
  | showing statement attempt _ ih => exact raises_showing honly statement attempt token ih
  | read _ ih => exact .get_bind ih
  | bind _ _ ihm ihf => exact ihm.bind leads_raises fun a _ => ihf a

/-- A dispatch is noted, and nothing is done to the interrupts but to raise some. -/
theorem raises_dispatch (op : Operation) (token : CancelToken) {s : Session σ}
    (hs : P s.gateway) :
    (∃ n, (dispatch op token s).2.console.interrupts = s.console.interrupts.raiseTimes n) ∧
      (dispatch op token s).2.console.operations = s.console.operations ++ [op] ∧
      P (dispatch op token s).2.gateway := by
  have hnoted : (s.console.note (.dispatched op)).operations = s.console.operations ++ [op] := by
    simp [Console.operations, Console.note, Event.operation?]
  rw [dispatch_apply]
  cases admits op s with
  | error denial => exact ⟨⟨0, rfl⟩, hnoted, hs⟩
  | ok _ =>
    obtain ⟨hraised, hleft⟩ := (raises_of_built honly (built_perform op token)
      { s with console := s.console.note (.dispatched op) }).1 hs
    exact ⟨hraised.interrupts, hraised.operations.trans hnoted, hleft⟩

end

end Session

/-! ## The gateways of this library -/

/-- A source that is not made to cancel its statement leaves the interrupts alone. -/
theorem RowSource.onlyRaises :
    ResultSource.OnlyRaises fun s : RowSource => s.cancelAfter = none := by
  intro token s i hs
  have hnever : s.cancelAfter ≠ some s.fetches := by
    rw [hs]
    exact (Option.some_ne_none _).symm
  change (∃ n, (s.fetch token i).2.2 = _) ∧ (s.fetch token i).2.1.cancelAfter = none
  unfold fetch
  dsimp only
  rw [if_neg hnever]
  split
  · exact ⟨⟨0, rfl⟩, hs⟩
  split
  · exact ⟨⟨0, rfl⟩, hs⟩
  cases s.batches with
  | nil | cons => exact ⟨⟨0, rfl⟩, hs⟩

namespace Local

theorem interrupts_handle (r : Request) (token : CancelToken) (g : Local) (i : Interrupts) :
    (handle r token g i).2.2 = i := by
  cases r with
  | query | modify =>
    unfold handle
    dsimp only
    split <;> rfl
  | _ => rfl

/-- The local gateway leaves the interrupts alone. -/
theorem onlyRaises :
    Gateway.OnlyRaises (fun _ : Local => True) fun s : RowSource => s.cancelAfter = none where
  handle r token g i _ := ⟨⟨0, interrupts_handle r token g i⟩, trivial⟩
  query statement token g i d _ hd := by
    obtain ⟨g', hquery⟩ := exists_query_of_handle hd
    obtain ⟨rows, -, hsource⟩ := exists_answer_of_query hquery
    rw [hsource]
    rfl
  source := RowSource.onlyRaises

end Local

namespace Rehearsal

theorem raised_meet (r : Request) (token : CancelToken) (g : Rehearsal) (i : Interrupts) :
    (∃ n, (g.meet r token i).2 = i.raiseTimes n) ∧ (g.meet r token i).1.source = g.source := by
  have hinterrupt : (∃ n, (g.interrupt token i).2 = i.raiseTimes n) ∧
      (g.interrupt token i).1.source = g.source := by
    unfold interrupt
    cases g.line with
    | none | dead => exact ⟨⟨0, rfl⟩, rfl⟩
    | live => exact ⟨⟨1, rfl⟩, rfl⟩
  cases r with
  | query | modify => exact hinterrupt
  | _ => exact ⟨⟨0, rfl⟩, rfl⟩

/-- What a rehearsal does to the interrupts is what the planned interrupt does, and its source is
for the next query again. -/
theorem handle_spec (r : Request) (token : CancelToken) (g : Rehearsal) (i : Interrupts) :
    (handle r token g i).2.2 = ((g.note (.asked r)).meet r token i).2 ∧
      (handle r token g i).2.1.source = g.source := by
  have hsource := (raised_meet r token (g.note (.asked r)) i).2
  have hact (h : Rehearsal) : (h.act r).2.source = h.source := by
    cases r <;> rfl
  unfold handle
  dsimp only
  split
  · exact ⟨rfl, hsource⟩
  · exact ⟨rfl, (hact _).trans hsource⟩

/-- Rehearsals raise interrupts, and do nothing else to them where no batch is planned to find its
statement cancelled. -/
theorem onlyRaises :
    Gateway.OnlyRaises (fun g : Rehearsal => g.source.cancelAfter = none)
      fun s : RowSource => s.cancelAfter = none where
  handle r token g i hg := by
    obtain ⟨hinterrupts, hsource⟩ := handle_spec r token g i
    change (∃ n, (handle r token g i).2.2 = _) ∧ (handle r token g i).2.1.source.cancelAfter = none
    rw [hinterrupts, hsource]
    exact ⟨(raised_meet r token _ i).1, hg⟩
  query statement token g i d hg hd := by
    have hsource := (raised_meet (.query statement) token (g.note (.asked (.query statement))) i).2
    change (handle (.query statement) token g i).1 = .ok d at hd
    unfold handle at hd
    dsimp only at hd
    split at hd
    · cases hd
    · cases hd
      rw [← hg]
      exact congrArg RowSource.cancelAfter hsource
  source := RowSource.onlyRaises

end Rehearsal

end SqlConsole
