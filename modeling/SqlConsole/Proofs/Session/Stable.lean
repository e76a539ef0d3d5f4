import SqlConsole.Proofs.Console.Stable
import SqlConsole.Session.Dispatch
/-!
# What operations keep

`Session.Alike` relates sessions that differ at their consoles only.  Operations that neither end
the session nor touch its statement set respect it whatever is known of the mode, the statement set
and whether the session goes on (`respects_perform_of_isPlain`).  What is not known of the
statement set can be changed by the others (`respects_dispatch`), none of which ever meets a fault
of the statement set: the guard keeps `BEGIN` away from an open set.
-/

namespace SqlConsole

/-- The operations that neither end a session nor have to do with modifications. -/
def Operation.isPlain : Operation → Bool
  | .quit | .insert _ | .createTableAs _ | .beginStatementSet | .endStatementSet
  | .statementSet _ => false
  | _ => true

namespace Session

variable {σ α : Type}

/-- Sessions with related consoles that have everything else in common, and what is known of it. -/
structure Alike (R : Console → Console → Prop) (P : Mode → Bool → StatementSet → Prop)
    (s t : Session σ) : Prop where
  console : R s.console t.console
  gateway : s.gateway = t.gateway
  mode : s.mode = t.mode
  running : s.running = t.running
  statementSet : s.statementSet = t.statementSet
  known : P s.mode s.running s.statementSet

variable {R : Console → Console → Prop} {P : Mode → Bool → StatementSet → Prop}

theorem Alike.atConsole {s t : Session σ} (h : Alike R P s t) {c d : Console} (hcd : R c d) :
    Alike R P { s with console := c } { t with console := d } :=
  ⟨hcd, h.gateway, h.mode, h.running, h.statementSet, h.known⟩

theorem respects_atConsole {m : ConsoleM α} (hm : Respects R m) :
    Respects (Alike (σ := σ) R P) (atConsole m) := by
  intro s t h
  obtain ⟨hanswer, hfault, hleft⟩ := hm _ _ h.console
  exact ⟨hanswer, hfault, h.atConsole hleft⟩

theorem respects_writeLine (h : Console.Stable R) (t : Text) :
    Respects (Alike (σ := σ) R P) (writeLine t) :=
  respects_atConsole (Console.respects_writeLine h t)

theorem respects_inform (h : Console.Stable R) (message : Text) :
    Respects (Alike (σ := σ) R P) (inform message) :=
  respects_atConsole (Console.respects_writeInfo h message)

variable {φ : Type} [Gateway.Over σ φ]

theorem Alike.properties {s t : Session σ} (h : Alike R P s t) : s.properties = t.properties :=
  congrArg Gateway.properties h.gateway

theorem respects_ask (h : Console.Stable R) (r : Request) (token : CancelToken) (attempt : Text)
    (hr : ∀ {c d}, R c d → R (c.note (.asked r)) (d.note (.asked r))) :
    Respects (Alike (σ := σ) R P) (ask r token attempt) := by
  intro s t hst
  unfold ask
  rw [← hst.gateway, ← h.interrupts hst.console]
  rcases Gateway.handle r token s.gateway s.console.interrupts with ⟨answer, gateway, interrupts⟩
  refine ⟨rfl, ?_, hr (h.interrupt hst.console _), rfl, hst.mode, hst.running, hst.statementSet,
    hst.known⟩
  cases answer <;> trivial

/-- A request that is not for a modification is entered into the journal like any other event. -/
theorem Stable.asked (h : Console.Stable R) {r : Request} (hr : ∀ ms, r ≠ .modify ms)
    {c d : Console} (hcd : R c d) : R (c.note (.asked r)) (d.note (.asked r)) :=
  h.note hcd _ fun ms heq => hr ms (Event.asked.inj heq)

/-! ## Plain operations -/

theorem respects_setProperty (h : Console.Stable R) (key value : Text) (token : CancelToken) :
    Respects (Alike (σ := σ) R P) (setProperty key value token) :=
  (respects_ask h _ _ _ (Stable.asked h (by simp))).bind fun _ => respects_inform h _

theorem respects_listProperties (h : Console.Stable R) :
    Respects (Alike (σ := σ) R P) listProperties := by
  refine .get_bind (fun s t hst => ?_) fun s => .ite ?_ ?_
  · rw [hst.properties]
  · exact respects_inform h _
  · exact .forM (fun _ => respects_writeLine h _) _

theorem respects_resetProperties (h : Console.Stable R) (key : Option Text) (token : CancelToken) :
    Respects (Alike (σ := σ) R P) (resetProperties key token) := by
  cases key with
  | none =>
    exact (respects_ask h _ _ _ (Stable.asked h (by simp))).bind fun _ => respects_inform h _
  | some key =>
    exact (respects_ask h _ _ _ (Stable.asked h (by simp))).bind fun _ => respects_inform h _

variable [ResultSource φ] in
theorem respects_query (h : Console.Stable R) (statement : Text) (token : CancelToken) :
    Respects (Alike (σ := σ) R P) (query statement token) := by
  refine (respects_ask h _ _ _ (Stable.asked h (by simp))).bind fun d => ?_
  refine (respects_atConsole (View.respects_present h _ _ _)).bind fun _ => .ite ?_ ?_
  · exact respects_inform h _
  · exact .pure _

theorem respects_execute (h : Console.Stable R) (op : Operation) (token : CancelToken) :
    Respects (Alike (σ := σ) R P) (execute op token) :=
  respects_ask h _ _ _ (Stable.asked h (by simp))

theorem respects_printContent (h : Console.Stable R) (op : Operation) (token : CancelToken) :
    Respects (Alike (σ := σ) R P) (printContent op token) := by
  refine (respects_execute h op token).bind fun result => ?_
  split
  · exact .throw trivial
  · exact .throw trivial
  · exact respects_writeLine h _

theorem respects_printResult (h : Console.Stable R) (op : Operation) (token : CancelToken) :
    Respects (Alike (σ := σ) R P) (printResult op token) := by
  refine (respects_execute h op token).bind fun result => .ite ?_ ?_
  · exact respects_atConsole (Console.respects_drawAll h _)
  · exact respects_inform h _

theorem respects_removeJar (h : Console.Stable R) (path : Text) (token : CancelToken) :
    Respects (Alike (σ := σ) R P) (removeJar path token) :=
  (respects_ask h _ _ _ (Stable.asked h (by simp))).bind fun _ => respects_inform h _

theorem respects_stopJob (h : Console.Stable R) (job : Text) (savepoint drain : Bool)
    (token : CancelToken) : Respects (Alike (σ := σ) R P) (stopJob job savepoint drain token) := by
  refine (respects_ask h _ _ _ (Stable.asked h (by simp))).bind fun path => .ite ?_ ?_
  · exact respects_inform h _
  · cases path with
    | none => exact .throw trivial
    | some path => exact respects_inform h _

variable [ResultSource φ] in
/-- Plain operations keep whatever work at a console keeps, and change nothing else. -/
theorem respects_perform_of_isPlain (h : Console.Stable R) {op : Operation} (hop : op.isPlain)
    (token : CancelToken) : Respects (Alike (σ := σ) R P) (perform op token) := by
  cases op with
  | quit | insert | createTableAs | beginStatementSet | endStatementSet | statementSet => cases hop
  | clear => exact respects_atConsole (Console.respects_clear h)
  | help => exact respects_writeLine h _
  | set key value =>
    cases key with
    | none => exact respects_listProperties h
    | some key =>
      cases value with
      | none => exact respects_listProperties h
      | some value => exact respects_setProperty h key value token
  | reset key => exact respects_resetProperties h key token
  | query statement => exact respects_query h statement token
  | explain | showCreateTable | showCreateView => exact respects_printContent h _ token
  | removeJar path => exact respects_removeJar h path token
  | stopJob job savepoint drain => exact respects_stopJob h job savepoint drain token
  | addJar | create | drop | alter | use | loadModule | unloadModule | other =>
    exact respects_printResult h _ token

/-! ## Modifications -/

/-- Whether a session waits for its modifications to finish. -/
def waits (s : Session σ) : Bool := Setting.dmlSync.get s.properties

def handOver (modifies : List Modify) (token : CancelToken) : SessionM σ TableResult :=
  ask (.modify modifies) token "Failed to submit SQL update statement"

/-- What is said of the answer to a request for modifications. -/
def acknowledge (sync : Bool) (result : TableResult) : SessionM σ Unit :=
  match result.job with
  | none =>
    throw (.failure (.broken "the executor accepted a modify operation without a job handle"))
  | some job =>
    if sync then inform Message.finished
    else do
      inform Message.submitted
      writeLine ("Job ID: " ++ job ++ "\n")

/-- Modifications are announced, handed over, and acknowledged. -/
theorem submit_eq (modifies : List Modify) (token : CancelToken) :
    submit (σ := σ) modifies token =
      inform Message.submitting >>= fun _ => get >>= fun s =>
        (if s.waits then inform Message.waiting else pure ()) >>= fun _ =>
          handOver modifies token >>= acknowledge s.waits := by
  unfold submit waits
  congr
  funext _
  congr
  funext s
  generalize Setting.dmlSync.get s.properties = sync
  cases sync <;> rfl

omit [Gateway.Over σ φ] in
theorem respects_acknowledge (h : Console.Stable R) (sync : Bool) (result : TableResult) :
    Respects (Alike (σ := σ) R P) (acknowledge sync result) := by
  unfold acknowledge
  split
  · exact .throw trivial
  · exact .ite (respects_inform h _)
      ((respects_inform h _).bind fun _ => respects_writeLine h _)

/-- Requests for modifications are entered into the journal like any other event. -/
def KeepsModify (R : Console → Console → Prop) : Prop :=
  ∀ ms {c d}, R c d → R (c.note (.asked (.modify ms))) (d.note (.asked (.modify ms)))

theorem respects_handOver (h : Console.Stable R) (hmodify : KeepsModify R) (modifies : List Modify)
    (token : CancelToken) : Respects (Alike (σ := σ) R P) (handOver modifies token) :=
  respects_ask h _ _ _ (hmodify modifies)

theorem respects_submit (h : Console.Stable R) (hmodify : KeepsModify R) (modifies : List Modify)
    (token : CancelToken) : Respects (Alike (σ := σ) R P) (submit modifies token) := by
  rw [submit_eq]
  refine (respects_inform h _).bind fun _ => .get_bind (fun s t hst => ?_) fun s => ?_
  · rw [waits, hst.properties]
    rfl
  · refine (Respects.ite (respects_inform h _) (.pure _)).bind fun _ => ?_
    exact (respects_handOver h hmodify modifies token).bind fun _ => respects_acknowledge h _ _

/-- Nothing is known of the statement set. -/
def ForgetsSet (P : Mode → Bool → StatementSet → Prop) : Prop :=
  ∀ mode running set set', P mode running set → P mode running set'

omit [Gateway.Over σ φ] in
theorem respects_putStatementSet (hset : ForgetsSet P) (set : StatementSet) :
    Respects (Alike (σ := σ) R P) (putStatementSet set) :=
  fun _ _ h => ⟨rfl, trivial, h.console, h.gateway, h.mode, h.running, rfl, hset _ _ _ set h.known⟩

/-- What an insertion does, given what waits in the statement set. -/
def insertInto (m : Modify) (token : CancelToken) : Option (List Modify) → SessionM σ Unit
  | none => submit [m] token
  | some ms => do
    putStatementSet ⟨some (ms ++ [m])⟩
    inform Message.addedToSet

theorem insert_apply (m : Modify) (token : CancelToken) (s : Session σ) :
    insert m token s = insertInto m token s.statementSet.collected s := by
  obtain ⟨gateway, console, mode, running, ⟨collected⟩⟩ := s
  cases collected <;> rfl

/-- What `END` does, given what waits in the statement set. -/
def finish (token : CancelToken) : Option (List Modify) → SessionM σ Unit
  | none => throw (.failure (.denied Denial.noOpenStatementSet.message))
  | some ms => do
    putStatementSet .closed
    if ms.isEmpty then inform Message.emptySet else submit ms token

theorem endStatementSet_apply (token : CancelToken) (s : Session σ) :
    endStatementSet token s = finish token s.statementSet.collected s := by
  obtain ⟨gateway, console, mode, running, ⟨collected⟩⟩ := s
  cases collected <;> rfl

omit [Gateway.Over σ φ] in
theorem beginStatementSet_apply {s : Session σ} (h : s.statementSet.collected = none) :
    beginStatementSet s =
      (do putStatementSet ⟨some []⟩; inform Message.setBegun : SessionM σ Unit) s := by
  obtain ⟨gateway, console, mode, running, ⟨collected⟩⟩ := s
  cases h
  rfl

omit [Gateway.Over σ φ] in
/-- A program that depends on what waits in the statement set. -/
theorem respects_of_collected {m : SessionM σ α} {f : Option (List Modify) → SessionM σ α}
    (hm : ∀ s, m s = f s.statementSet.collected s)
    (hf : ∀ collected, Respects (Alike (σ := σ) R P) (f collected)) : Respects (Alike R P) m := by
  intro s t h
  rw [hm, hm, ← h.statementSet]
  exact hf _ s t h

theorem respects_insert (h : Console.Stable R) (hmodify : KeepsModify R) (hset : ForgetsSet P)
    (m : Modify) (token : CancelToken) : Respects (Alike (σ := σ) R P) (insert m token) := by
  refine respects_of_collected (insert_apply m token) fun collected => ?_
  cases collected with
  | none => exact respects_submit h hmodify _ token
  | some ms => exact (respects_putStatementSet hset _).bind fun _ => respects_inform h _

theorem respects_endStatementSet (h : Console.Stable R) (hmodify : KeepsModify R)
    (hset : ForgetsSet P) (token : CancelToken) :
    Respects (Alike (σ := σ) R P) (endStatementSet token) := by
  refine respects_of_collected (endStatementSet_apply token) fun collected => ?_
  cases collected with
  | none => exact .throw trivial
  | some ms =>
    refine (respects_putStatementSet hset _).bind fun _ => .ite ?_ ?_
    · exact respects_inform h _
    · exact respects_submit h hmodify _ token

omit [Gateway.Over σ φ] in
/-- A statement set is begun where none is open. -/
theorem beginStatementSet_alike (h : Console.Stable R) (hset : ForgetsSet P) {s t : Session σ}
    (hst : Alike R P s t) (hclosed : s.statementSet.collected = none) :
    (beginStatementSet s).1 = (beginStatementSet t).1 ∧ NoSetFault (beginStatementSet s).1 ∧
      Alike R P (beginStatementSet s).2 (beginStatementSet t).2 := by
  have hbegun : Respects (Alike (σ := σ) R P)
      (do putStatementSet ⟨some []⟩; inform Message.setBegun) :=
    (respects_putStatementSet hset _).bind fun _ => respects_inform h _
  rw [beginStatementSet_apply hclosed, beginStatementSet_apply (hst.statementSet ▸ hclosed)]
  exact hbegun s t hst

/-! ## Dispatch -/

/-- What the guard admits while a statement set is open. -/
theorem isForStatementSet_of_admits {op : Operation} {s : Session σ} (h : admits op s = .ok ())
    (hactive : s.statementSet.isActive) : op.kind.isForStatementSet := by
  unfold admits Guard.check at h
  rw [hactive] at h
  cases hmode : Guard.checkMode op s.mode s.properties with
  | error denial => rw [hmode] at h; cases h
  | ok _ =>
    rw [hmode] at h
    cases hkind : op.kind.isForStatementSet with
    | true => rfl
    | false => rw [hkind] at h; cases h

/-- The guard lets no statement set be begun where one is open. -/
theorem collected_of_admits_begin {s : Session σ} (h : admits .beginStatementSet s = .ok ()) :
    s.statementSet.collected = none := by
  cases hset : s.statementSet.collected with
  | none => rfl
  | some ms => cases isForStatementSet_of_admits h (by simp [StatementSet.isActive, hset])

/-- Nothing is known of whether the session goes on. -/
def ForgetsRunning (P : Mode → Bool → StatementSet → Prop) : Prop :=
  ∀ mode running running' set, P mode running set → P mode running' set

omit [Gateway.Over σ φ] in
theorem respects_quit (h : Console.Stable R) (hrunning : ForgetsRunning P) :
    Respects (Alike (σ := σ) R P) quit := by
  refine (respects_inform h _).bind fun _ s t hst => ⟨rfl, trivial, ?_⟩
  exact ⟨hst.console, hst.gateway, hst.mode, rfl, hst.statementSet, hrunning _ _ _ _ hst.known⟩

variable [ResultSource φ] in
theorem respects_perform (h : Console.Stable R) (hmodify : KeepsModify R) (hset : ForgetsSet P)
    {op : Operation} (hquit : op = .quit → ForgetsRunning P) (hbegin : op ≠ .beginStatementSet)
    (token : CancelToken) :
    Respects (Alike (σ := σ) R P) (perform op token) := by
  by_cases hop : op.isPlain
  · exact respects_perform_of_isPlain h hop token
  · cases op with
    | quit => exact respects_quit h (hquit rfl)
    | beginStatementSet => exact (hbegin rfl).elim
    | insert m | createTableAs m => exact respects_insert h hmodify hset m token
    | endStatementSet => exact respects_endStatementSet h hmodify hset token
    | statementSet ms => exact respects_submit h hmodify ms token
    | _ => exact (hop rfl).elim

/-- What the guard says of related sessions is the same. -/
theorem Alike.admits {s t : Session σ} (h : Alike R P s t) (op : Operation) :
    admits op s = admits op t := by
  unfold Session.admits
  rw [h.mode, h.properties, h.statementSet]

variable [ResultSource φ] in
/-- Noting the operation and then the guard's denial, or its work. -/
theorem dispatch_apply (op : Operation) (token : CancelToken) (s : Session σ) :
    dispatch op token s =
      let noted := { s with console := s.console.note (.dispatched op) }
      match admits op s with
      | .error denial => (.error (.failure (.denied denial.message)), noted)
      | .ok () => perform op token noted := by
  change (match admits op s with
    | .error denial => throw (.failure (.denied denial.message))
    | .ok () => perform op token : SessionM σ Unit) _ = _
  cases admits op s <;> rfl

variable [ResultSource φ] in
/-- **Dispatch keeps what work at a console keeps**, if requests for modifications keep it too and
nothing is known of the statement set, and it never meets a fault of the statement set. -/
theorem respects_dispatch (h : Console.Stable R) (hmodify : KeepsModify R) (hset : ForgetsSet P)
    {op : Operation} (hquit : op = .quit → ForgetsRunning P) (token : CancelToken) :
    Respects (Alike (σ := σ) R P) (dispatch op token) := by
  intro s t hst
  rw [dispatch_apply, dispatch_apply, ← hst.admits]
  have hnoted := hst.atConsole (h.note hst.console (.dispatched op) (by simp))
  dsimp only
  split
  · exact ⟨rfl, trivial, hnoted⟩
  · next hadmits =>
    by_cases hbegin : op = .beginStatementSet
    · subst hbegin
      exact beginStatementSet_alike h hset hnoted (collected_of_admits_begin hadmits)
    · exact respects_perform h hmodify hset hquit hbegin token _ _ hnoted

end Session

end SqlConsole
