import SqlConsole.Proofs.Console.Growth
import SqlConsole.Proofs.Session.Stable
import SqlConsole.Session.Loop
/-!
# Terms that operations keep to

`Session.Terms` are limits to what happens in a session: to the events that are added to the
journal, to what becomes of the gateway and of the statement set, and to the stops.  What an
operation asks of the gateway is fixed by `Operation.Asks`.  If the terms grant each of these
requests, the operation keeps to the terms (`meets_perform`).

Whatever a dispatch keeps is kept by a whole run (`invariant_run`), on every input and in every
language.
-/

namespace SqlConsole

/-! ## Requests -/

/-- What an operation may ask of the gateway. -/
def Operation.Asks : Operation → Request → Prop
  | .quit, _ | .clear, _ | .help, _ | .beginStatementSet, _ => False
  | .set (some key) (some value), r => r = .setProperty (Text.trim key) (Text.trim value)
  | .set _ _, _ => False
  | .reset (some key), r => r = .resetProperty (Text.trim key)
  | .reset none, r => r = .resetProperties
  | .insert _, r | .createTableAs _, r | .endStatementSet, r | .statementSet _, r =>
    ∃ ms, r = .modify ms
  | .query statement, r => r = .query statement
  | .removeJar path, r => r = .removeJar path
  | .stopJob job savepoint drain, r => r = .stopJob job savepoint drain
  | op, r => r = .execute op

/-- The operations that are answered with a single text. -/
def Operation.isAnsweredWithText : Operation → Bool
  | .explain _ | .showCreateTable _ | .showCreateView _ => true
  | _ => false

/-- The requests whose answers are drawn. -/
def Request.isDrawn : Request → Bool
  | .query _ => true
  | .execute op => !op.isAnsweredWithText
  | _ => false

/-- A reply that holds what the client relies on: the job of modifications, the text of an answer,
the path of a savepoint. -/
def Request.Fulfils {φ : Type} : (r : Request) → r.Reply φ → Prop
  | .modify _, (result : TableResult) => result.job ≠ none
  | .execute op, (result : TableResult) =>
    op.isAnsweredWithText → ∃ v, result.firstField? = some v ∧ v ≠ .null
  | .stopJob _ savepoint _, (path : Option Text) => savepoint → path ≠ none
  | _, _ => True

namespace Session

variable {σ φ : Type}

/-! ## Terms -/

/-- Limits to what happens in a session. -/
structure Terms (σ : Type) where
  /-- The events that may be added to the journal. -/
  event : Event → Prop
  /-- What may become of the gateway. -/
  gateway : σ → σ → Prop
  /-- What may become of the statement set. -/
  set : StatementSet → StatementSet → Prop
  /-- What may end a statement before its end. -/
  stop : Stop → Prop

namespace Terms

/-- What has happened from one session to another is within the limits, and the mode has not
changed. -/
structure Within (x : Terms σ) (s t : Session σ) : Prop where
  console : Console.Grows x.event s.console t.console
  gateway : x.gateway s.gateway t.gateway
  mode : t.mode = s.mode
  set : x.set s.statementSet t.statementSet

/-- Terms that rule nothing out which does not depend on an operation. -/
structure Sound (x : Terms σ) : Prop where
  console : Console.Tolerates x.event x.stop
  dispatched : ∀ op, x.event (.dispatched op)
  gateway : Leads x.gateway
  set : Leads x.set
  denied : ∀ reason, x.stop (.failure (.denied reason))
  statementSet : ∀ fault, x.stop (.failure (.statementSet fault))

/-- Terms that allow a request.  Where they rule broken words out, the gateway keeps its word; where
they rule crashes out, its answer is not drawn. -/
structure Grants [Gateway.Over σ φ] (x : Terms σ) (r : Request) : Prop where
  asked : x.event (.asked r)
  gateway : ∀ token g i, x.gateway g (Gateway.handle r token g i).2.1
  reply : ∀ token (g : σ) i reply, (Gateway.handle r token g i).1 = .ok reply →
    (∀ what, x.stop (.failure (.broken what))) ∨ r.Fulfils reply
  crash : r.isDrawn → ∀ why, x.stop (.crash why)

variable {x : Terms σ}

theorem Sound.leads (hx : x.Sound) : Leads x.Within where
  refl _ := ⟨.refl _, hx.gateway.refl _, rfl, hx.set.refl _⟩
  trans h h' := ⟨h.console.trans h'.console, hx.gateway.trans h.gateway h'.gateway,
    h'.mode.trans h.mode, hx.set.trans h.set h'.set⟩

theorem Sound.atConsole (hx : x.Sound) {s : Session σ} {c : Console}
    (h : Console.Grows x.event s.console c) : x.Within s { s with console := c } :=
  ⟨h, hx.gateway.refl _, rfl, hx.set.refl _⟩

end Terms

/-! ## Steps of operations -/

section

variable {x : Terms σ} (hx : x.Sound)
include hx

theorem meets_atConsole {α : Type} {Q : α → Prop} {m : ConsoleM α}
    (hm : Meets (Console.Grows x.event) Q x.stop m) : Meets x.Within Q x.stop (atConsole m) :=
  fun s => ⟨hx.atConsole (hm s.console).1, (hm s.console).2⟩

theorem meets_writeLine (t : Text) :
    Meets x.Within (fun _ => True) x.stop (writeLine t) :=
  meets_atConsole hx (Console.meets_writeLine hx.console.covers t)

theorem meets_inform (message : Text) :
    Meets x.Within (fun _ => True) x.stop (inform message) :=
  meets_atConsole hx (Console.meets_writeInfo hx.console.covers message)

theorem meets_withStatementSet {α : Type} (change : StatementSet → Except StatementSet.Error α) :
    Meets x.Within (fun _ => True) x.stop (withStatementSet (σ := σ) change) := by
  refine .get_bind fun s => ?_
  split
  · exact .pure hx.leads trivial
  · exact .throw hx.leads (hx.statementSet _)

theorem meets_putStatementSet (hset : ∀ a b, x.set a b) (set : StatementSet) :
    Meets x.Within (fun _ => True) x.stop (putStatementSet set) :=
  fun _ => ⟨⟨.refl _, hx.gateway.refl _, rfl, hset _ _⟩, trivial⟩

theorem meets_quit : Meets x.Within (fun _ => True) x.stop quit :=
  (meets_inform hx _).bind hx.leads fun _ _ _ =>
    ⟨⟨.refl _, hx.gateway.refl _, rfl, hx.set.refl _⟩, trivial⟩

variable [Gateway.Over σ φ]

/-- A request that is granted is answered with what the client relies on, if that matters. -/
theorem meets_ask {r : Request} (hr : x.Grants r) (token : CancelToken) (attempt : Text) :
    Meets x.Within (fun reply => (∀ what, x.stop (.failure (.broken what))) ∨ r.Fulfils reply) x.stop
      (ask r token attempt) := by
  intro s
  have hgateway := hr.gateway token s.gateway s.console.interrupts
  have hreply := hr.reply token s.gateway s.console.interrupts
  unfold ask
  rcases hhandle : Gateway.handle r token s.gateway s.console.interrupts with
    ⟨answer, gateway, interrupts⟩
  rw [hhandle] at hgateway hreply
  refine ⟨⟨?_, hgateway, rfl, hx.set.refl _⟩, ?_⟩
  · exact (Console.grows_of_journal_eq rfl).trans (Console.grows_note hr.asked _)
  · cases answer with
    | error e => exact hx.console.gateway _ _
    | ok reply => exact hreply reply rfl

/-- A request whose reply is not looked at. -/
theorem meets_ask_then {r : Request} (hr : x.Grants r) (token : CancelToken) (attempt : Text)
    {α : Type} {m : SessionM σ α} (hm : Meets x.Within (fun _ => True) x.stop m) :
    Meets x.Within (fun _ => True) x.stop (ask r token attempt >>= fun _ => m) :=
  (meets_ask hx hr token attempt).bind hx.leads fun _ _ => hm

theorem meets_submit {ms : List Modify} (hr : x.Grants (.modify ms)) (token : CancelToken) :
    Meets x.Within (fun _ => True) x.stop (submit ms token) := by
  rw [submit_eq]
  refine (meets_inform hx _).bind hx.leads fun _ _ => .get_bind fun s => ?_
  refine (Meets.ite (meets_inform hx _) (.pure hx.leads trivial)).bind hx.leads fun _ _ => ?_
  refine (meets_ask hx hr token _).bind hx.leads fun result hresult => ?_
  unfold acknowledge
  split
  · next hjob => exact .throw hx.leads (hresult.elim (· _) fun hword => (hword hjob).elim)
  · exact .ite (meets_inform hx _)
      ((meets_inform hx _).bind hx.leads fun _ _ => meets_writeLine hx _)

theorem meets_insert (hset : ∀ a b, x.set a b) (hr : ∀ ms, x.Grants (.modify ms)) (m : Modify)
    (token : CancelToken) : Meets x.Within (fun _ => True) x.stop (insert m token) := by
  refine .get_bind fun s => .ite ?_ (meets_submit hx (hr _) token)
  exact (meets_withStatementSet hx _).bind hx.leads fun set _ =>
    (meets_putStatementSet hx hset set).bind hx.leads fun _ _ => meets_inform hx _

theorem meets_endStatementSet (hset : ∀ a b, x.set a b) (hr : ∀ ms, x.Grants (.modify ms))
    (token : CancelToken) :
    Meets x.Within (fun _ => True) x.stop (endStatementSet token) := by
  intro s
  rw [endStatementSet_apply]
  cases s.statementSet.collected with
  | none => exact Meets.throw hx.leads (hx.denied _) s
  | some ms =>
    have hends : Meets x.Within (fun _ => True) x.stop (finish token (some ms)) :=
      (meets_putStatementSet hx hset _).bind hx.leads fun _ _ =>
        .ite (meets_inform hx _) (meets_submit hx (hr ms) token)
    exact hends s

variable [ResultSource φ] in
theorem meets_query {statement : Text} (hr : x.Grants (.query statement))
    (hopened : ∀ mode, x.event (.opened mode)) (hclosed : x.event .closed) (token : CancelToken) :
    Meets x.Within (fun _ => True) x.stop (query statement token) := by
  refine (meets_ask hx hr token _).bind hx.leads fun (d : Descriptor φ) _ => ?_
  have hpresent : Meets x.Within (fun _ => True) x.stop
      (atConsole (View.present d.mode d token)) := ?_
  · exact hpresent.bind hx.leads fun _ _ => .ite (meets_inform hx _) (.pure hx.leads trivial)
  refine meets_atConsole hx fun c => ?_
  obtain ⟨hanswer, shown, hjournal, hshown⟩ :=
    View.meets_present hx.console (hr.crash rfl) d.mode d token c
  refine ⟨⟨_, hjournal, fun e he => ?_⟩, hanswer⟩
  rcases List.mem_cons.1 he with rfl | he
  · exact hopened d.mode
  rcases List.mem_append.1 he with he | he
  · exact hshown e he
  · exact List.mem_singleton.1 he ▸ hclosed

theorem meets_printContent {op : Operation} (hr : x.Grants (.execute op))
    (hop : op.isAnsweredWithText) (token : CancelToken) :
    Meets x.Within (fun _ => True) x.stop (printContent op token) := by
  refine (meets_ask hx hr token _).bind hx.leads fun (result : TableResult) hresult => ?_
  have hbroken (hnone : ∀ v, result.firstField? = some v → v = .null) (what : Text) :
      x.stop (.failure (.broken what)) := by
    rcases hresult with hany | hword
    · exact hany what
    · obtain ⟨v, hv, hne⟩ := hword hop
      exact (hne (hnone v hv)).elim
  split
  · next hnone => exact .throw hx.leads (hbroken (fun v hv => by rw [hnone] at hv; cases hv) _)
  · next hnull =>
    exact .throw hx.leads (hbroken (fun v hv => by rw [hnull] at hv; cases hv; rfl) _)
  · exact meets_writeLine hx _

theorem meets_printResult {op : Operation} (hr : x.Grants (.execute op))
    (hop : op.isAnsweredWithText = false) (token : CancelToken) :
    Meets x.Within (fun _ => True) x.stop (printResult op token) := by
  refine (meets_ask hx hr token _).bind hx.leads fun result _ => .ite ?_ (meets_inform hx _)
  have hdrawn : (Request.execute op).isDrawn := by rw [Request.isDrawn, hop]; rfl
  exact meets_atConsole hx (Console.meets_drawAll hx.console.covers (hr.crash hdrawn) _)

theorem meets_stopJob {job : Text} {savepoint drain : Bool}
    (hr : x.Grants (.stopJob job savepoint drain)) (token : CancelToken) :
    Meets x.Within (fun _ => True) x.stop (stopJob job savepoint drain token) := by
  refine (meets_ask hx hr token _).bind hx.leads fun (path : Option Text) hpath => ?_
  cases savepoint with
  | false => exact meets_inform hx _
  | true =>
    cases path with
    | some path => exact meets_inform hx _
    | none => exact .throw hx.leads (hpath.elim (· _) fun hword => (hword rfl rfl).elim)

/-! ## Operations -/

variable [ResultSource φ]

/-- **Plain operations keep to terms that grant what they ask.** -/
theorem meets_perform_of_isPlain {op : Operation} (hplain : op.isPlain)
    (hr : ∀ r, op.Asks r → x.Grants r)
    (hquery : op.kind = .query → (∀ mode, x.event (.opened mode)) ∧ x.event .closed)
    (token : CancelToken) : Meets x.Within (fun _ => True) x.stop (perform op token) := by
  have hlist : Meets x.Within (fun _ => True) x.stop (listProperties (σ := σ)) :=
    .get_bind fun s => .ite (meets_inform hx _)
      (.forM hx.leads (fun _ => meets_writeLine hx _) _)
  cases op with
  | quit | insert | createTableAs | beginStatementSet | endStatementSet | statementSet =>
    cases hplain
  | clear => exact meets_atConsole hx (Console.meets_clear hx.console.covers)
  | help => exact meets_writeLine hx _
  | set key value =>
    cases key with
    | none => exact hlist
    | some key =>
      cases value with
      | none => exact hlist
      | some value => exact meets_ask_then hx (hr _ rfl) token _ (meets_inform hx _)
  | reset key =>
    cases key with
    | none => exact meets_ask_then hx (hr _ rfl) token _ (meets_inform hx _)
    | some key => exact meets_ask_then hx (hr _ rfl) token _ (meets_inform hx _)
  | query statement =>
    obtain ⟨hopened, hclosed⟩ := hquery rfl
    exact meets_query hx (hr _ rfl) hopened hclosed token
  | explain | showCreateTable | showCreateView => exact meets_printContent hx (hr _ rfl) rfl token
  | removeJar path => exact meets_ask_then hx (hr _ rfl) token _ (meets_inform hx _)
  | stopJob job savepoint drain => exact meets_stopJob hx (hr _ rfl) token
  | addJar | create | drop | alter | use | loadModule | unloadModule | other =>
    exact meets_printResult hx (hr _ rfl) rfl token

/-- So do the others, if the statement set may become any other. -/
theorem meets_perform (hset : ∀ a b, x.set a b) {op : Operation}
    (hr : ∀ r, op.Asks r → x.Grants r)
    (hquery : op.kind = .query → (∀ mode, x.event (.opened mode)) ∧ x.event .closed)
    (token : CancelToken) : Meets x.Within (fun _ => True) x.stop (perform op token) := by
  by_cases hplain : op.isPlain
  · exact meets_perform_of_isPlain hx hplain hr hquery token
  · cases op with
    | quit => exact meets_quit hx
    | insert m | createTableAs m => exact meets_insert hx hset (fun ms => hr _ ⟨ms, rfl⟩) m token
    | beginStatementSet =>
      exact (meets_withStatementSet hx _).bind hx.leads fun set _ =>
        (meets_putStatementSet hx hset set).bind hx.leads fun _ _ => meets_inform hx _
    | endStatementSet => exact meets_endStatementSet hx hset (fun ms => hr _ ⟨ms, rfl⟩) token
    | statementSet ms => exact meets_submit hx (hr _ ⟨ms, rfl⟩) token
    | _ => exact (hplain rfl).elim

/-- A dispatch keeps to terms that an admitted operation keeps to. -/
theorem dispatch_within (op : Operation) (token : CancelToken) (s : Session σ)
    (hperform : admits op s = .ok () →
      Meets x.Within (fun _ => True) x.stop (perform op token)) :
    x.Within s (dispatch op token s).2 ∧ Answers (fun _ => True) x.stop (dispatch op token s).1 := by
  have hnoted : x.Within s { s with console := s.console.note (.dispatched op) } :=
    hx.atConsole (Console.grows_note (hx.dispatched op) _)
  rw [dispatch_apply]
  cases hadmits : admits op s with
  | error denial => exact ⟨hnoted, hx.denied _⟩
  | ok _ =>
    obtain ⟨hwithin, hanswer⟩ :=
      hperform hadmits { s with console := s.console.note (.dispatched op) }
    exact ⟨hx.leads.trans hnoted hwithin, hanswer⟩

end

/-- Terms that limit stops alone. -/
def stopping (F : Stop → Prop) : Terms σ where
  event _ := True
  gateway _ _ := True
  set _ _ := True
  stop := F

theorem stopping_sound {F : Stop → Prop} (houtput : F Console.full)
    (hgateway : ∀ attempt fault, F (.failure (.gateway attempt fault)))
    (hdenied : ∀ reason, F (.failure (.denied reason)))
    (hset : ∀ fault, F (.failure (.statementSet fault))) : (stopping (σ := σ) F).Sound where
  console := ⟨trivial, fun _ => trivial, houtput, hgateway⟩
  dispatched _ := trivial
  gateway := ⟨fun _ => trivial, fun _ _ => trivial⟩
  set := ⟨fun _ => trivial, fun _ _ => trivial⟩
  denied := hdenied
  statementSet := hset

variable [ResultSource φ] [Gateway.Over σ φ]

/-- A dispatch stops only for what a gateway which keeps its word leaves possible, and keeps the
mode. -/
theorem dispatch_stopping {F : Stop → Prop} (hF : (stopping (σ := σ) F).Sound)
    (hcrash : ∀ why, F (.crash why))
    (hword : ∀ r token (g : σ) i reply, (Gateway.handle r token g i).1 = .ok reply →
      (∀ what, F (.failure (.broken what))) ∨ r.Fulfils reply)
    (op : Operation) (token : CancelToken) (s : Session σ) :
    (dispatch op token s).2.mode = s.mode ∧
      Answers (fun _ => True) F (dispatch op token s).1 := by
  have hgrants (r : Request) : (stopping (σ := σ) F).Grants r :=
    ⟨trivial, fun _ _ _ => trivial, hword r, fun _ => hcrash⟩
  obtain ⟨hwithin, hanswer⟩ := dispatch_within hF op token s fun _ =>
    meets_perform hF (fun _ _ => trivial) (fun r _ => hgrants r)
      (fun _ => ⟨fun _ => trivial, trivial⟩) token
  exact ⟨hwithin.mode, hanswer⟩

theorem mode_dispatch (op : Operation) (token : CancelToken) (s : Session σ) :
    (dispatch op token s).2.mode = s.mode :=
  (dispatch_stopping (F := fun _ => True)
    (stopping_sound trivial (fun _ _ => trivial) (fun _ => trivial) fun _ => trivial)
    (fun _ => trivial) (fun _ _ _ _ _ _ => .inl fun _ => trivial) op token s).1

/-! ## Runs -/

section

/-- What a session keeps at every step: while events of a kind are added to the journal, and when an
operation is dispatched. -/
structure Invariant (E : Event → Prop) (I : Session σ → Prop) : Prop where
  refused : E .refused
  read : E .read
  console : ∀ {s c}, I s → Console.Grows E s.console c → I { s with console := c }
  dispatch : ∀ {s} op token, I s → I (dispatch op token s).2

variable {E : Event → Prop} {I : Session σ → Prop} (h : Invariant E I) {s : Session σ}
include h

theorem Invariant.put (hs : I s) (t : Text) : I { s with console := (s.console.put t).2 } :=
  h.console hs (Console.grows_put h.refused t _)

theorem Invariant.dispatchInterruptibly (hs : I s) (op : Operation) :
    I (dispatchInterruptibly op s).2 := by
  have hbefore := h.console (c := { s.console with
    interrupts := (s.console.interrupts.newToken.2.install s.console.interrupts.newToken.1).2 }) hs
    (Console.grows_of_journal_eq rfl)
  have hafter := h.dispatch op s.console.interrupts.newToken.1 hbefore
  exact h.console hafter (Console.grows_of_journal_eq rfl)

theorem Invariant.evaluate (hs : I s) (language : Language) (statement : Text) :
    I (evaluate language statement s).2 := by
  unfold Session.evaluate
  split
  · exact hs
  split
  · exact h.put hs _
  · exact hs
  · next op _ =>
    split
    · have hdispatched := h.dispatchInterruptibly hs op
      split
      · next heq => rwa [heq] at hdispatched
      · next heq =>
        rw [heq] at hdispatched
        exact h.put hdispatched _
      · next heq => rwa [heq] at hdispatched
    · exact h.put hs _

/-- The session of a machine that waits or is over. -/
def Progress.session : Progress σ → Session σ
  | .waiting _ s | .over _ s => s

theorem Invariant.await (hs : I s) (kept : Text) : I (Session.await kept s).session := by
  have hasked : I { s with console := (s.console.awaitLine Message.prompt kept).2 } := by
    have hread := h.console hs (Console.grows_note h.read _)
    unfold Console.awaitLine
    dsimp only
    split
    · exact hread
    · exact h.put hread _
  unfold Session.await
  split
  · next hawait => rwa [hawait] at hasked
  · next hawait =>
    rw [hawait] at hasked
    exact h.put hasked _

theorem Invariant.proceed (hs : I s) (language : Language) (queued : List Text) :
    I (Session.proceed language queued s).session := by
  induction queued generalizing s with
  | nil =>
    have hline := h.put hs ['\n']
    rw [proceed.eq_def]
    split
    · exact hs
    split
    · next hput => rwa [hput] at hline
    · next hput =>
      rw [hput] at hline
      exact h.await hline []
  | cons statement queued ih =>
    have hline := h.put hs ['\n']
    rw [proceed.eq_def]
    split
    · exact hs
    split
    · next hput => rwa [hput] at hline
    · next hput =>
      rw [hput] at hline
      have hevaluated := h.evaluate hline language statement
      dsimp only
      split
      · next heq =>
        rw [heq] at hevaluated
        exact ih hevaluated
      · next heq => rwa [heq] at hevaluated

/-- Taking what the terminal delivers writes a line at most. -/
theorem Invariant.take (hs : I s) (isComplete : Text → Bool) (prompt kept : Text)
    (read : TerminalRead) :
    I { s with console := (s.console.take isComplete prompt kept read).2 } := by
  refine h.console hs ?_
  cases read with
  | ended | failed | interrupted => exact .refl _
  | line line =>
    have hecho : Console.Grows E s.console (s.console.echoLine prompt kept line).2 := by
      unfold Console.echoLine
      split
      · exact Console.grows_put h.refused _ _
      · exact .refl _
    unfold Console.take
    dsimp only
    split
    · next heq => rwa [heq] at hecho
    · next heq =>
      rw [heq] at hecho
      refine hecho.trans (Console.grows_of_journal_eq ?_)
      cases Reading.addLine isComplete kept line <;> rfl

theorem Invariant.feed (hs : I s) (language : Language) (kept : Text) (read : TerminalRead) :
    I (Session.feed language kept read s).session := by
  have htaken := h.take hs language.isComplete Message.prompt kept read
  unfold Session.feed
  generalize s.console.take language.isComplete Message.prompt kept read = taken at htaken
  obtain ⟨outcome, console⟩ := taken
  cases outcome with
  | ended => exact htaken
  | failed reason => exact h.put htaken _
  | interrupted => exact h.proceed htaken language []
  | read reading =>
    cases reading with
    | incomplete lines => exact h.await htaken lines
    | blank => exact h.proceed htaken language []
    | complete lines first others =>
      have hevaluated := h.evaluate htaken language first
      dsimp only
      split
      · next heq =>
        rw [heq] at hevaluated
        exact h.proceed hevaluated language others
      · next heq => rwa [heq] at hevaluated

theorem Invariant.resume {language : Language} {progress : Progress σ} (hp : I progress.session)
    (reads : List TerminalRead) : I (Session.resume language progress reads).session := by
  induction reads generalizing progress with
  | nil => cases progress <;> exact hp
  | cons read reads ih =>
    cases progress with
    | waiting kept s => exact ih (h.feed hp language kept read)
    | _ => exact hp

/-- **What every dispatch keeps, a run keeps**, whatever is read, in any language. -/
theorem invariant_run (language : Language) (reads : List TerminalRead) (hs : I s) :
    I (run language reads s).session :=
  h.resume (h.proceed hs language []) reads

end

end Session

end SqlConsole
