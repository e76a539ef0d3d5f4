import Mathlib.Data.List.Induction
import SqlConsole.Gateway.Rehearsal
import SqlConsole.Proofs.Console.Agreement
import SqlConsole.Proofs.Session.Stable
/-!
# Statement sets neither lose nor repeat a modification

Modifications are handed over to the gateway in batches: one alone where no statement set is open,
those of a set together when it ends, and those of a block at once.  `StatementSet.after` and
`StatementSet.handsOver` say what an admitted operation makes of the statement set and which batches
it hands over, and `dispatch_effect` that it does just that, whatever the gateway answers.

Over a whole run the batches and what still waits are the modifications of the admitted operations
in their order (`batches_append_pending`), and what waits was inserted since the set was begun
(`openedSince_of_isActive`).
-/

namespace SqlConsole

/-! ## Modifications of operations -/

namespace Operation

/-- The modification of an `INSERT` or `CREATE TABLE AS`. -/
def insertion? : Operation → Option Modify
  | .insert m | .createTableAs m => some m
  | _ => none

/-- The modifications that an operation is about. -/
def modifies : Operation → List Modify
  | .insert m | .createTableAs m => [m]
  | .statementSet ms => ms
  | _ => []

end Operation

namespace StatementSet

/-- What an admitted operation makes of a statement set. -/
def after (op : Operation) (set : StatementSet) : StatementSet :=
  match op, set.collected with
  | .beginStatementSet, none => ⟨some []⟩
  | .insert m, some ms | .createTableAs m, some ms => ⟨some (ms ++ [m])⟩
  | .endStatementSet, some _ => .closed
  | _, _ => set

/-- The batches that an admitted operation hands over, given the statement set before it. -/
def handsOver (op : Operation) (set : StatementSet) : List (List Modify) :=
  match op, set.collected with
  | .insert m, none | .createTableAs m, none => [[m]]
  | .endStatementSet, some ms => if ms.isEmpty then [] else [ms]
  | .statementSet ms, _ => [ms]
  | _, _ => []

/-- What is handed over and what waits afterwards is what waited before and what is new. -/
theorem handsOver_append_pending {op : Operation} {set : StatementSet}
    (h : set.isActive → op.kind.isForStatementSet) :
    (set.handsOver op).flatten ++ (set.after op).pending = set.pending ++ op.modifies := by
  obtain ⟨collected⟩ := set
  cases collected with
  | none => cases op <;> simp [handsOver, after, pending, Operation.modifies]
  | some ms =>
    have hop := h rfl
    cases op with
    | endStatementSet =>
      cases ms <;> simp [handsOver, after, pending, closed, Operation.modifies]
    | insert m | createTableAs m => simp [handsOver, after, pending, Operation.modifies]
    | _ => cases hop

/-- Only `BEGIN` opens a statement set, and nothing waits in it then. -/
theorem eq_begin_of_isActive_after {op : Operation} {set : StatementSet}
    (hclosed : set.isActive = false) (hopen : (set.after op).isActive) :
    op = .beginStatementSet ∧ (set.after op).pending = [] := by
  obtain ⟨_ | ms⟩ := set
  · cases op with
    | beginStatementSet => exact ⟨rfl, rfl⟩
    | _ => cases hopen
  · cases hclosed

/-- While a statement set stays open, insertions wait in it. -/
theorem pending_after {op : Operation} {set : StatementSet} (hopen : set.isActive)
    (hop : op.kind.isForStatementSet) (hstays : (set.after op).isActive) :
    (set.after op).pending = set.pending ++ op.insertion?.toList := by
  obtain ⟨_ | ms⟩ := set
  · cases hopen
  · cases op with
    | insert | createTableAs => rfl
    | endStatementSet => cases hstays
    | _ => cases hop

/-- `END` closes an open statement set and hands over what waits in it, if anything does. -/
theorem after_endStatementSet {set : StatementSet} (hopen : set.isActive) :
    set.after .endStatementSet = .closed ∧
      set.handsOver .endStatementSet = if set.pending = [] then [] else [set.pending] := by
  obtain ⟨_ | ms⟩ := set
  · cases hopen
  · refine ⟨rfl, ?_⟩
    cases ms <;> simp [handsOver, pending]

end StatementSet

/-! ## Batches -/

/-- The modifications that a request hands over. -/
def Event.batch? : Event → Option (List Modify)
  | .asked (.modify ms) => some ms
  | _ => none

/-- The batches of modifications that were handed over. -/
def Console.batches (c : Console) : List (List Modify) := c.journal.filterMap Event.batch?

/-- One console, which accepts all output and has handed certain batches over. -/
def Console.Frame (batches : List (List Modify)) (c d : Console) : Prop :=
  c = d ∧ c.sink.room = none ∧ c.batches = batches

theorem Console.stable_frame (batches : List (List Modify)) : Stable (Frame batches) where
  put := by
    rintro c _ ⟨rfl, hroom, hbatches⟩ t
    rw [put_of_room hroom]
    exact ⟨rfl, rfl, rfl, hbatches⟩
  styled h := congrArg _ h.1
  lines h := congrArg _ h.1
  interrupts h := congrArg _ h.1
  interrupt := by
    rintro c _ ⟨rfl, hroom, hbatches⟩ i
    exact ⟨rfl, hroom, hbatches⟩
  note := by
    rintro c _ ⟨rfl, hroom, hbatches⟩ e he
    refine ⟨rfl, hroom, ?_⟩
    have hnone : e.batch? = none := by
      unfold Event.batch?
      split
      · next ms => exact (he ms rfl).elim
      · rfl
    simp only [Console.batches, note, List.filterMap_append, List.filterMap_cons, hnone,
      List.filterMap_nil, List.append_nil]
    exact hbatches

namespace Session

variable {σ α : Type}

/-- What happens to a session: the mode stays, the statement set becomes another one, and batches
are handed over. -/
structure Effect (set : StatementSet) (batches : List (List Modify)) (s t : Session σ) : Prop where
  room : t.console.sink.room = none
  mode : t.mode = s.mode
  statementSet : t.statementSet = set
  batches : t.console.batches = s.console.batches ++ batches

theorem Effect.refl {s : Session σ} (h : s.console.sink.room = none) :
    Effect s.statementSet [] s s :=
  ⟨h, rfl, rfl, (List.append_nil _).symm⟩

theorem Effect.trans {set set' : StatementSet} {batches batches' : List (List Modify)}
    {s t u : Session σ} (h : Effect set batches s t) (h' : Effect set' batches' t u) :
    Effect set' (batches ++ batches') s u := by
  refine ⟨h'.room, h'.mode.trans h.mode, h'.statementSet, ?_⟩
  rw [h'.batches, h.batches, List.append_assoc]

/-- A mode and a statement set. -/
def Fixed (mode : Mode) (set : StatementSet) : Mode → Bool → StatementSet → Prop :=
  fun m _ st => m = mode ∧ st = set

/-- What respects the frame of a console has no effect on the statement set and the batches. -/
theorem effect_of_respects {m : SessionM σ α} {s : Session σ} (h : s.console.sink.room = none)
    (hm : Respects (Alike (Console.Frame s.console.batches) (Fixed s.mode s.statementSet)) m) :
    Effect s.statementSet [] s (m s).2 := by
  have hs : Alike (Console.Frame s.console.batches) (Fixed s.mode s.statementSet) s s :=
    ⟨⟨rfl, h, rfl⟩, rfl, rfl, rfl, rfl, rfl, rfl⟩
  obtain ⟨-, -, hleft⟩ := hm s s hs
  refine ⟨hleft.console.2.1, hleft.known.1, hleft.known.2, ?_⟩
  rw [hleft.console.2.2, List.append_nil]

theorem inform_of_room {s : Session σ} (h : s.console.sink.room = none) (message : Text) :
    (inform message s).1 = .ok () := by
  change (Console.write _ s.console).1 = .ok ()
  rw [Console.write_apply, Console.put_of_room h]
  rfl

/-- A step that succeeds, and what follows it. -/
theorem run_bind_ok {β : Type} {m : SessionM σ α} {f : α → SessionM σ β} {s : Session σ} {a : α}
    (h : (m s).1 = .ok a) : (m >>= f) s = f a (m s).2 := by
  obtain ⟨answer, t, hm⟩ : ∃ answer t, m s = (answer, t) := ⟨_, _, rfl⟩
  rw [Respects.run_bind]
  rw [hm] at h ⊢
  dsimp only at h
  rw [h]

theorem effect_of_inform {s : Session σ} (h : s.console.sink.room = none) (message : Text) :
    Effect s.statementSet [] s (inform message s).2 :=
  effect_of_respects h (respects_inform (Console.stable_frame _) message)

theorem effect_of_putStatementSet {s : Session σ} (h : s.console.sink.room = none)
    (set : StatementSet) : Effect set [] s (putStatementSet set s).2 :=
  ⟨h, rfl, rfl, (List.append_nil _).symm⟩

/-- What is said before modifications are handed over can be said. -/
theorem announce_effect {s : Session σ} (h : s.console.sink.room = none) (sync : Bool) :
    ((if sync then inform Message.waiting else pure () : SessionM σ Unit) s).1 = .ok () ∧
      Effect s.statementSet [] s
        ((if sync then inform Message.waiting else pure () : SessionM σ Unit) s).2 := by
  cases sync with
  | true => exact ⟨inform_of_room h _, effect_of_inform h _⟩
  | false => exact ⟨rfl, .refl h⟩

variable {φ : Type} [ResultSource φ] [Gateway.Over σ φ]

omit [ResultSource φ] in
theorem effect_of_handOver {s : Session σ} (h : s.console.sink.room = none) (modifies : List Modify)
    (token : CancelToken) : Effect s.statementSet [modifies] s (handOver modifies token s).2 :=
  ⟨h, rfl, rfl, by simp [handOver, ask, Console.batches, Console.note, Event.batch?]⟩

omit [ResultSource φ] in
/-- Submitting hands one batch over, whatever the gateway answers. -/
theorem submit_effect {s : Session σ} (h : s.console.sink.room = none) (modifies : List Modify)
    (token : CancelToken) : Effect s.statementSet [modifies] s (submit modifies token s).2 := by
  have hsubmitting := effect_of_inform h Message.submitting
  rw [submit_eq, run_bind_ok (inform_of_room h _)]
  generalize (inform Message.submitting s).2 = t at hsubmitting
  obtain ⟨hok, hannounced⟩ := announce_effect hsubmitting.room t.waits
  change Effect _ _ s (((if t.waits then inform Message.waiting else pure ()) >>= fun _ => _) t).2
  rw [run_bind_ok hok]
  generalize ((if t.waits then inform Message.waiting else pure () : SessionM σ Unit) t).2 = u
    at hannounced
  have hbefore := (hsubmitting.trans hannounced).trans
    (effect_of_handOver hannounced.room modifies token)
  rw [hannounced.statementSet, hsubmitting.statementSet] at hbefore
  rw [Respects.run_bind]
  obtain ⟨answer, v, hv⟩ : ∃ answer v, handOver modifies token u = (answer, v) := ⟨_, _, rfl⟩
  rw [hv] at hbefore ⊢
  cases answer with
  | error e => exact hbefore
  | ok result =>
    have hacknowledged := effect_of_respects hbefore.room
      (respects_acknowledge (Console.stable_frame _) t.waits result)
    have hsaid := hbefore.trans hacknowledged
    rwa [hbefore.statementSet] at hsaid

/-! ## One operation -/

/-- Plain operations leave the statement set as it is and hand nothing over. -/
theorem after_of_isPlain {op : Operation} (hop : op.isPlain) (set : StatementSet) :
    set.after op = set ∧ set.handsOver op = [] := by
  cases op with
  | quit | insert | createTableAs | beginStatementSet | endStatementSet | statementSet => cases hop
  | _ => exact ⟨rfl, rfl⟩

/-- `CREATE TABLE AS` is an insertion. -/
theorem after_createTableAs (m : Modify) (set : StatementSet) :
    set.after (.createTableAs m) = set.after (.insert m) ∧
      set.handsOver (.createTableAs m) = set.handsOver (.insert m) := by
  obtain ⟨_ | ms⟩ := set <;> exact ⟨rfl, rfl⟩

/-- A block is handed over at once. -/
theorem after_statementSet (ms : List Modify) (set : StatementSet) :
    set.after (.statementSet ms) = set ∧ set.handsOver (.statementSet ms) = [ms] := by
  obtain ⟨_ | waiting⟩ := set <;> exact ⟨rfl, rfl⟩

omit [ResultSource φ] in
theorem insert_effect {s : Session σ} (h : s.console.sink.room = none) (m : Modify)
    (token : CancelToken) :
    Effect (s.statementSet.after (.insert m)) (s.statementSet.handsOver (.insert m)) s
      (insert m token s).2 := by
  rw [insert_apply]
  obtain ⟨gateway, console, mode, running, ⟨_ | ms⟩⟩ := s
  · exact submit_effect h [m] token
  · have hput := effect_of_putStatementSet h ⟨some (ms ++ [m])⟩
    exact hput.trans (effect_of_inform hput.room Message.addedToSet)

omit [ResultSource φ] in
theorem endStatementSet_effect {s : Session σ} (h : s.console.sink.room = none)
    (token : CancelToken) :
    Effect (s.statementSet.after .endStatementSet) (s.statementSet.handsOver .endStatementSet) s
      (endStatementSet token s).2 := by
  rw [endStatementSet_apply]
  obtain ⟨gateway, console, mode, running, ⟨_ | ms⟩⟩ := s
  · exact .refl h
  · have hput := effect_of_putStatementSet h .closed
    cases ms with
    | nil => exact hput.trans (effect_of_inform hput.room Message.emptySet)
    | cons m ms => exact hput.trans (submit_effect hput.room (m :: ms) token)

omit [ResultSource φ] [Gateway.Over σ φ] in
theorem beginStatementSet_effect {s : Session σ} (h : s.console.sink.room = none)
    (hclosed : s.statementSet.collected = none) :
    Effect (s.statementSet.after .beginStatementSet)
      (s.statementSet.handsOver .beginStatementSet) s (beginStatementSet s).2 := by
  rw [beginStatementSet_apply hclosed]
  obtain ⟨gateway, console, mode, running, ⟨_ | ms⟩⟩ := s
  · have hput := effect_of_putStatementSet h ⟨some []⟩
    exact hput.trans (effect_of_inform hput.room Message.setBegun)
  · cases hclosed

/-- An operation that may run now does to the statement set and to the batches what it should. -/
theorem perform_effect {s : Session σ} (h : s.console.sink.room = none) {op : Operation}
    (hop : s.statementSet.isActive → op.kind.isForStatementSet) (token : CancelToken) :
    Effect (s.statementSet.after op) (s.statementSet.handsOver op) s (perform op token s).2 := by
  by_cases hplain : op.isPlain
  · obtain ⟨hafter, hbatches⟩ := after_of_isPlain hplain s.statementSet
    rw [hafter, hbatches]
    exact effect_of_respects h (respects_perform_of_isPlain (Console.stable_frame _) hplain token)
  · cases op with
    | quit =>
      have hrunning : ForgetsRunning (Fixed s.mode s.statementSet) := fun _ _ _ _ hfixed => hfixed
      exact effect_of_respects h (respects_quit (Console.stable_frame _) hrunning)
    | insert m => exact insert_effect h m token
    | createTableAs m =>
      obtain ⟨hafter, hbatches⟩ := after_createTableAs m s.statementSet
      rw [hafter, hbatches]
      exact insert_effect h m token
    | beginStatementSet =>
      have hclosed : s.statementSet.collected = none := by
        cases hset : s.statementSet.collected with
        | none => rfl
        | some ms => cases hop (by simp [StatementSet.isActive, hset])
      exact beginStatementSet_effect h hclosed
    | endStatementSet => exact endStatementSet_effect h token
    | statementSet ms =>
      obtain ⟨hafter, hbatches⟩ := after_statementSet ms s.statementSet
      rw [hafter, hbatches]
      exact submit_effect h ms token
    | _ => exact (hplain rfl).elim

/-- An operation is noted, and a denied one does nothing else.  An admitted one does to the
statement set and to the batches what it should, whatever the gateway answers. -/
theorem dispatch_effect {s : Session σ} (h : s.console.sink.room = none) (op : Operation)
    (token : CancelToken) :
    match admits op s with
    | .error _ => Effect s.statementSet [] s (dispatch op token s).2
    | .ok () => Effect (s.statementSet.after op) (s.statementSet.handsOver op) s
        (dispatch op token s).2 := by
  have hnoted : Effect s.statementSet [] s
      { s with console := s.console.note (.dispatched op) } :=
    ⟨h, rfl, rfl, by simp [Console.batches, Console.note, Event.batch?]⟩
  rw [dispatch_apply]
  cases hadmits : admits op s with
  | error denial => exact hnoted
  | ok _ =>
    exact hnoted.trans (perform_effect hnoted.room (isForStatementSet_of_admits hadmits) token)

/-- No dispatch meets a fault of the statement set. -/
theorem noSetFault_dispatch (op : Operation) (token : CancelToken) (s : Session σ) :
    NoSetFault (dispatch op token s).1 := by
  have hstable : Console.Stable (Eq : Console → Console → Prop) :=
    ⟨fun h t => by rw [h]; exact ⟨rfl, rfl⟩, fun h => congrArg _ h, fun h => congrArg _ h,
      fun h => congrArg _ h, fun h i => by rw [h], fun h e _ => by rw [h]⟩
  have hmodify : KeepsModify (Eq : Console → Console → Prop) := fun ms c d h => by rw [h]
  have hs : Alike Eq (fun _ _ _ => True) s s := ⟨rfl, rfl, rfl, rfl, rfl, trivial⟩
  exact (respects_dispatch hstable hmodify (fun _ _ _ _ _ => trivial)
    (fun _ _ _ _ _ _ => trivial) token s s hs).2.1

/-! ## Runs -/

/-- Dispatch operations one after the other, whatever comes of them. -/
def dispatchAll (steps : List (Operation × CancelToken)) (s : Session σ) : Session σ :=
  steps.foldl (fun s (op, token) => (dispatch op token s).2) s

/-- The operations of a run that the guard admits. -/
def admitted : List (Operation × CancelToken) → Session σ → List Operation
  | [], _ => []
  | (op, token) :: steps, s =>
    let tail := admitted steps (dispatch op token s).2
    match admits op s with
    | .error _ => tail
    | .ok () => op :: tail

theorem dispatchAll_concat (steps : List (Operation × CancelToken)) (op : Operation)
    (token : CancelToken) (s : Session σ) :
    dispatchAll (steps ++ [(op, token)]) s = (dispatch op token (dispatchAll steps s)).2 := by
  rw [dispatchAll, List.foldl_append]
  rfl

theorem dispatch_room {s : Session σ} (h : s.console.sink.room = none) (op : Operation)
    (token : CancelToken) :
    (dispatch op token s).2.console.sink.room = none ∧ (dispatch op token s).2.mode = s.mode := by
  have heffect := dispatch_effect h op token
  split at heffect
  · exact ⟨heffect.room, heffect.mode⟩
  · exact ⟨heffect.room, heffect.mode⟩

theorem dispatchAll_room {s : Session σ} (h : s.console.sink.room = none)
    (steps : List (Operation × CancelToken)) :
    (dispatchAll steps s).console.sink.room = none ∧ (dispatchAll steps s).mode = s.mode := by
  induction steps generalizing s with
  | nil => exact ⟨h, rfl⟩
  | cons step steps ih =>
    obtain ⟨hroom, hmode⟩ := dispatch_room h step.1 step.2
    obtain ⟨hroom', hmode'⟩ := ih hroom
    exact ⟨hroom', hmode'.trans hmode⟩

/-- What a dispatch hands over and what waits behind it. -/
theorem batches_append_pending_step {s : Session σ} (h : s.console.sink.room = none)
    (op : Operation) (token : CancelToken) :
    (dispatch op token s).2.console.batches.flatten ++
        (dispatch op token s).2.statementSet.pending =
      s.console.batches.flatten ++ s.statementSet.pending ++
        match admits op s with
        | .error _ => []
        | .ok () => op.modifies := by
  have heffect := dispatch_effect h op token
  cases hadmits : admits op s with
  | error denial =>
    rw [hadmits] at heffect
    dsimp only at heffect ⊢
    rw [heffect.batches, heffect.statementSet, List.append_nil, List.append_nil]
  | ok _ =>
    rw [hadmits] at heffect
    dsimp only at heffect ⊢
    rw [heffect.batches, heffect.statementSet, List.flatten_append, List.append_assoc,
      StatementSet.handsOver_append_pending (isForStatementSet_of_admits hadmits),
      List.append_assoc]

/-- **Nothing is lost, repeated or put out of order.**  The batches that were handed over, and then
what still waits, are the modifications of all admitted operations in their order. -/
theorem batches_append_pending {s : Session σ} (h : s.console.sink.room = none)
    (steps : List (Operation × CancelToken)) :
    (dispatchAll steps s).console.batches.flatten ++ (dispatchAll steps s).statementSet.pending =
      s.console.batches.flatten ++ s.statementSet.pending ++
        (admitted steps s).flatMap Operation.modifies := by
  induction steps generalizing s with
  | nil => simp [dispatchAll, admitted]
  | cons step steps ih =>
    obtain ⟨op, token⟩ := step
    have hstep := batches_append_pending_step h op token
    have hrest := ih (dispatch_room h op token).1
    rw [hstep] at hrest
    refine hrest.trans ?_
    rw [admitted]
    cases admits op s with
    | error denial => simp
    | ok _ => simp [List.append_assoc]

/-! ## Open statement sets -/

omit [ResultSource φ] in
/-- Initialization files begin no statement sets. -/
theorem admits_begin_of_initialization {s : Session σ} (h : s.mode = .initialization) :
    admits .beginStatementSet s = .error (.notForInitialization "BEGIN STATEMENT SET") := by
  rw [admits, h]
  rfl

omit [ResultSource φ] in
/-- In the other modes insertions are admitted while a statement set is open. -/
theorem admits_of_isForStatementSet {s : Session σ} {op : Operation} (h : s.mode ≠ .initialization)
    (hop : op.kind.isForStatementSet) : admits op s = .ok () := by
  have hquery : op.kind ≠ .query := fun heq => by rw [heq] at hop; cases hop
  unfold admits Guard.check Guard.checkMode
  cases hmode : s.mode with
  | initialization => exact (h hmode).elim
  | interactive => simp [hop]
  | nonInteractive => simp [hop, hquery]

/-- Where a dispatch opens a statement set, it was an admitted `BEGIN`. -/
theorem begins_of_dispatch {s : Session σ} (h : s.console.sink.room = none) {op : Operation}
    {token : CancelToken} (hclosed : s.statementSet.isActive = false)
    (hopen : (dispatch op token s).2.statementSet.isActive) :
    op = .beginStatementSet ∧ admits op s = .ok () ∧
      (dispatch op token s).2.statementSet.pending = [] := by
  have heffect := dispatch_effect h op token
  cases hadmits : admits op s with
  | error denial =>
    rw [hadmits] at heffect
    rw [heffect.statementSet, hclosed] at hopen
    cases hopen
  | ok _ =>
    rw [hadmits] at heffect
    rw [heffect.statementSet] at hopen ⊢
    obtain ⟨hop, hpending⟩ := StatementSet.eq_begin_of_isActive_after hclosed hopen
    exact ⟨hop, rfl, hpending⟩

/-- Where a dispatch leaves a statement set open, an insertion waits in it. -/
theorem pending_of_dispatch {s : Session σ} (h : s.console.sink.room = none) {op : Operation}
    {token : CancelToken} (hmode : s.mode ≠ .initialization) (hopen : s.statementSet.isActive)
    (hstays : (dispatch op token s).2.statementSet.isActive) :
    (dispatch op token s).2.statementSet.pending =
      s.statementSet.pending ++ op.insertion?.toList := by
  have heffect := dispatch_effect h op token
  cases hadmits : admits op s with
  | error denial =>
    have hnone : op.insertion? = none := by
      cases op with
      | insert | createTableAs =>
        rw [admits_of_isForStatementSet hmode rfl] at hadmits
        cases hadmits
      | _ => rfl
    rw [hadmits] at heffect
    rw [heffect.statementSet, hnone]
    simp
  | ok _ =>
    rw [hadmits] at heffect
    rw [heffect.statementSet] at hstays ⊢
    exact StatementSet.pending_after hopen (isForStatementSet_of_admits hadmits hopen) hstays

theorem mode_of_isActive {s : Session σ} (h : s.console.sink.room = none)
    (hclosed : s.statementSet.isActive = false) {steps : List (Operation × CancelToken)}
    (hopen : (dispatchAll steps s).statementSet.isActive) : s.mode ≠ .initialization := by
  intro hmode
  induction steps generalizing s with
  | nil => rw [dispatchAll, List.foldl_nil, hclosed] at hopen; cases hopen
  | cons step steps ih =>
    obtain ⟨op, token⟩ := step
    obtain ⟨hroom, hmode'⟩ := dispatch_room h op token
    refine ih hroom ?_ hopen (hmode'.trans hmode)
    cases hnext : (dispatch op token s).2.statementSet.isActive with
    | false => rfl
    | true =>
      obtain ⟨rfl, hadmits, -⟩ := begins_of_dispatch h hclosed hnext
      rw [admits_begin_of_initialization hmode] at hadmits
      cases hadmits

/-- A statement set is open, and holds what was inserted since it was begun. -/
def OpenedSince (s : Session σ) (steps : List (Operation × CancelToken)) : Prop :=
  ∃ before token since, steps = before ++ (.beginStatementSet, token) :: since ∧
    (dispatchAll before s).statementSet.isActive = false ∧
    (∀ now, now <+: since →
      (dispatchAll (before ++ (.beginStatementSet, token) :: now) s).statementSet.isActive) ∧
    (dispatchAll steps s).statementSet.pending = since.filterMap (·.1.insertion?)

/-- An open statement set was begun during the run and stayed open since. -/
theorem openedSince_of_isActive {s : Session σ} (h : s.console.sink.room = none)
    (hclosed : s.statementSet.isActive = false) (steps : List (Operation × CancelToken))
    (hopen : (dispatchAll steps s).statementSet.isActive) : OpenedSince s steps := by
  induction steps using List.reverseRecOn with
  | nil => rw [dispatchAll, List.foldl_nil, hclosed] at hopen; cases hopen
  | append_singleton steps step ih =>
    obtain ⟨op, token⟩ := step
    have hmode := mode_of_isActive h hclosed hopen
    obtain ⟨hroom, hmode'⟩ := dispatchAll_room h steps
    have hopen' := hopen
    rw [dispatchAll_concat] at hopen'
    cases hbefore : (dispatchAll steps s).statementSet.isActive with
    | true =>
      obtain ⟨before, token', since, rfl, hfirst, hstays, hpending⟩ := ih hbefore
      refine ⟨before, token', since ++ [(op, token)], by simp, hfirst, ?_, ?_⟩
      · intro now hnow
        rcases List.prefix_concat_iff.1 hnow with rfl | hnow
        · simpa using hopen
        · exact hstays now hnow
      · rw [dispatchAll_concat, pending_of_dispatch hroom (hmode'.symm ▸ hmode) hbefore hopen',
          hpending, List.filterMap_append]
        cases hop : op.insertion? <;> simp [hop]
    | false =>
      obtain ⟨rfl, -, hpending⟩ := begins_of_dispatch hroom hbefore hopen'
      refine ⟨steps, token, [], rfl, hbefore, ?_, ?_⟩
      · intro now hnow
        rw [List.prefix_nil.1 hnow]
        exact hopen
      · rw [dispatchAll_concat, hpending]
        rfl

/-- What holds of the statement set and the batches after a run of dispatches. -/
structure Conserves (first : Session σ) (steps : List (Operation × CancelToken)) : Prop where
  /-- Nothing waits where no statement set is open. -/
  closed : (dispatchAll steps first).statementSet.isActive = false →
    (dispatchAll steps first).statementSet.pending = []
  /-- In an open statement set waits what was inserted since it was begun. -/
  opened : (dispatchAll steps first).statementSet.isActive → OpenedSince first steps
  /-- `END` closes an open statement set and hands over what waited in it, as one batch and
  whatever the gateway answers; an empty statement set hands nothing over. -/
  ended : (dispatchAll steps first).statementSet.isActive → ∀ token,
    let s := dispatchAll steps first
    let t := (dispatch .endStatementSet token s).2
    t.statementSet = .closed ∧
      t.console.batches = s.console.batches ++
        if s.statementSet.pending = [] then [] else [s.statementSet.pending]
  /-- All batches and then what still waits are the modifications of the admitted operations. -/
  conserved : (dispatchAll steps first).console.batches.flatten ++
      (dispatchAll steps first).statementSet.pending =
    first.console.batches.flatten ++ (admitted steps first).flatMap Operation.modifies
  /-- The statement set itself never fails. -/
  faultless : ∀ op token fault,
    (dispatch op token (dispatchAll steps first)).1 ≠ .error (.failure (.statementSet fault))

/-- `END` closes an open statement set and hands over what waited in it. -/
theorem endStatementSet_of_isActive {s : Session σ} (h : s.console.sink.room = none)
    (hmode : s.mode ≠ .initialization) (hopen : s.statementSet.isActive) (token : CancelToken) :
    (dispatch .endStatementSet token s).2.statementSet = .closed ∧
      (dispatch .endStatementSet token s).2.console.batches = s.console.batches ++
        if s.statementSet.pending = [] then [] else [s.statementSet.pending] := by
  have heffect := dispatch_effect h .endStatementSet token
  rw [admits_of_isForStatementSet hmode rfl] at heffect
  obtain ⟨hafter, hbatches⟩ := StatementSet.after_endStatementSet hopen
  exact ⟨heffect.statementSet.trans hafter, heffect.batches.trans (by rw [hbatches])⟩

/-- **Statement sets conserve modifications.**  After any run of dispatches on a new session, in any
mode and whatever the gateway answers, no modification is lost, handed over twice, put out of order,
or left behind by a closed statement set. -/
theorem conserves_dispatchAll (g : σ) {console : Console} (h : console.sink.room = none)
    (mode : Mode) (steps : List (Operation × CancelToken)) :
    Conserves (start g console mode) steps := by
  have hroom : (start g console mode).console.sink.room = none := h
  have hclosed : (start g console mode).statementSet.isActive = false := rfl
  obtain ⟨hroom', hmode'⟩ := dispatchAll_room hroom steps
  refine ⟨fun hnone => ?_, openedSince_of_isActive hroom hclosed steps, fun hopen token => ?_, ?_,
    fun op token fault heq => ?_⟩
  · rw [StatementSet.pending, Option.isSome_eq_false_iff.1 hnone |> Option.isNone_iff_eq_none.1]
    rfl
  · have hmode := mode_of_isActive hroom hclosed hopen
    exact endStatementSet_of_isActive hroom' (hmode'.symm ▸ hmode) hopen token
  · rw [batches_append_pending hroom steps]
    simp [start, StatementSet.pending, StatementSet.closed]
  · have hfault := noSetFault_dispatch op token (dispatchAll steps (start g console mode))
    rw [heq] at hfault
    exact hfault

/-- A gateway that refuses all modifications. -/
def refusing : Rehearsal where
  properties := ∅
  calls := []
  accepted := 0
  failures := [(.modify, .execution "no slots")]
  schema := none
  content := none
  source := ⟨[], 0, none, none⟩
  omitJob := false
  savepoint := none
  line := .none

/-- Modifications alone, in a statement set with a denied query, and in a block, all of which the
gateway refuses. -/
theorem conserves_refusing :
    (Console.ofSink .unlimited false .transcript).sink.room = none ∧
      Conserves (start refusing (.ofSink .unlimited false .transcript) .nonInteractive)
        [(.insert ⟨.insertInto, "a", "INSERT INTO a SELECT 1"⟩, 0), (.beginStatementSet, 1),
          (.insert ⟨.insertInto, "b", "INSERT INTO b SELECT 2"⟩, 2), (.query "SELECT 3", 3),
          (.createTableAs ⟨.createTableAs, "c", "CREATE TABLE c AS SELECT 4"⟩, 4),
          (.endStatementSet, 5),
          (.statementSet [⟨.insertOverwrite, "d", "INSERT OVERWRITE d SELECT 5"⟩], 6)] :=
  ⟨rfl, conserves_dispatchAll refusing rfl .nonInteractive _⟩

end Session

end SqlConsole
