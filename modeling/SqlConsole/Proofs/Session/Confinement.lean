import Mathlib.Logic.Relation
import SqlConsole.Proofs.Gateway.Replies
/-!
# Modes confine what a script can do

In an initialization file only operations are admitted that prepare a session, and each of them asks
only for what prepares a session (`prepares_of_asks`).  So a run asks for nothing else, leaves the
statement set as it is, and leaves the jobs of a local gateway alone
(`onlyPrepares_run`, `jobs_run`).

In a script the guard looks at the result mode before a query is started, and the local gateway
looks at it again when it starts the query.  Nothing happens in between, so each query that is
started is shown as a tableau (`dispatch_shown`), and over a run no other view is opened.
-/

namespace SqlConsole

/-- A gateway has answered requests of a kind, and nothing else has happened to it. -/
def Gateway.Answered {σ φ : Type} [Gateway.Over σ φ] (allowed : Request → Bool) : σ → σ → Prop :=
  Relation.ReflTransGen fun g d =>
    ∃ r token i, allowed r ∧ d = (Gateway.handle r token g i).2.1

/-- The views that were opened, in their order. -/
def Event.view? : Event → Option ResultMode
  | .opened mode => some mode
  | _ => none

def Console.views (c : Console) : List ResultMode := c.journal.filterMap Event.view?

namespace Session

variable {σ φ : Type} [ResultSource φ] [Gateway.Over σ φ]

/-! ## Initialization files -/

/-- From one session to another the gateway was asked for nothing but what prepares a session, and
the statement set has stayed as it was. -/
structure OnlyPrepares (first last : Session σ) : Prop where
  journal : ∃ events, last.console.journal = first.console.journal ++ events ∧
    ∀ r, .asked r ∈ events → r.prepares
  gateway : Gateway.Answered Request.prepares first.gateway last.gateway
  statementSet : last.statementSet = first.statementSet

/-- The terms of an initialization file. -/
def preparing : Terms σ where
  event e := ∀ r, e = .asked r → r.prepares
  gateway := Gateway.Answered Request.prepares
  set a b := b = a
  stop _ := True

omit [ResultSource φ] in
theorem preparing_sound : (preparing (σ := σ)).Sound where
  console := ⟨nofun, nofun, trivial, fun _ _ => trivial⟩
  dispatched _ := nofun
  gateway := ⟨fun _ => .refl, .trans⟩
  set := ⟨fun _ => rfl, fun h h' => h'.trans h⟩
  denied _ := trivial
  statementSet _ := trivial

omit [ResultSource φ] in
theorem preparing_grants {r : Request} (hr : r.prepares) : (preparing (σ := σ)).Grants r where
  asked _ h := Event.asked.inj h ▸ hr
  gateway token _ i := .single ⟨r, token, i, hr, rfl⟩
  reply _ _ _ _ _ := .inl fun _ => trivial
  crash _ _ := trivial

/-- Operations that prepare a session ask for what prepares it. -/
theorem prepares_of_asks {op : Operation} {r : Request} (hop : op.kind.isPreparation)
    (hr : op.Asks r) : r.prepares := by
  cases op with
  | set key value =>
    cases key with
    | none => cases hr
    | some key =>
      cases value with
      | none => cases hr
      | some value => cases hr; rfl
  | reset key => cases key <;> cases hr <;> rfl
  | create | drop | use | alter | loadModule | unloadModule | addJar | removeJar => cases hr; rfl
  | _ => cases hop

omit [ResultSource φ] in
/-- In an initialization file the guard admits nothing but what prepares a session. -/
theorem isPreparation_of_admits {op : Operation} {s : Session σ} (hmode : s.mode = .initialization)
    (h : admits op s = .ok ()) : op.kind.isPreparation := by
  by_cases hop : op.kind.isPreparation
  · exact hop
  · unfold admits Guard.check Guard.checkMode at h
    rw [hmode] at h
    dsimp only at h
    rw [if_neg hop] at h
    cases h

theorem dispatch_preparing {s : Session σ} (hmode : s.mode = .initialization) (op : Operation)
    (token : CancelToken) : preparing.Within s (dispatch op token s).2 := by
  refine (dispatch_within preparing_sound op token s fun hadmits => ?_).1
  have hop := isPreparation_of_admits hmode hadmits
  have hplain : op.isPlain := by
    cases op with
    | quit | insert | createTableAs | beginStatementSet | endStatementSet | statementSet => cases hop
    | _ => rfl
  refine meets_perform_of_isPlain preparing_sound hplain
    (fun r hr => preparing_grants (prepares_of_asks hop hr)) (fun hquery => ?_) token
  rw [hquery] at hop
  cases hop

omit [ResultSource φ] in
theorem onlyPrepares_of_within {s t : Session σ} (h : preparing.Within s t) : OnlyPrepares s t := by
  obtain ⟨events, hjournal, hevents⟩ := h.console
  exact ⟨⟨events, hjournal, fun r hr => hevents _ hr r rfl⟩, h.gateway, h.set⟩

/-- A run of an initialization file keeps to its terms. -/
theorem run_preparing (language : Language) (reads : List TerminalRead) {first : Session σ}
    (hmode : first.mode = .initialization) :
    preparing.Within first (run language reads first).session := by
  have hinvariant : Invariant preparing.event
      fun s => s.mode = .initialization ∧ preparing.Within first s := {
    refused := nofun
    read := nofun
    console := fun ⟨hmode, hwithin⟩ hgrows =>
      ⟨hmode, preparing_sound.leads.trans hwithin (preparing_sound.atConsole hgrows)⟩
    dispatch := fun op token ⟨hmode, hwithin⟩ =>
      have hstep := dispatch_preparing hmode op token
      ⟨hstep.mode.trans hmode, preparing_sound.leads.trans hwithin hstep⟩ }
  exact (invariant_run hinvariant language reads ⟨hmode, preparing_sound.leads.refl first⟩).2

omit [ResultSource φ] [Gateway.Over σ φ] in
/-- What prepares a session leaves the jobs of a local gateway alone. -/
theorem jobs_of_answered {g d : Local} (h : Gateway.Answered Request.prepares g d) :
    d.jobs = g.jobs := by
  induction h with
  | refl => rfl
  | tail _ hstep ih =>
    obtain ⟨r, token, i, hr, rfl⟩ := hstep
    exact (Local.jobs_handle hr token _ i).trans ih

/-! ## Scripts -/

/-- The terms of everything but queries: no query is started and no view is opened. -/
def unseen : Terms Local where
  event e := e.view? = none
  gateway g d := d.queries = g.queries
  set _ _ := True
  stop _ := True

theorem unseen_sound : unseen.Sound where
  console := ⟨rfl, fun _ => rfl, trivial, fun _ _ => trivial⟩
  dispatched _ := rfl
  gateway := ⟨fun _ => rfl, fun h h' => h'.trans h⟩
  set := ⟨fun _ => trivial, fun _ _ => trivial⟩
  denied _ := trivial
  statementSet _ := trivial

theorem unseen_grants {r : Request} (hr : ∀ statement, r ≠ .query statement) :
    unseen.Grants r where
  asked := rfl
  gateway token g i := Local.queries_handle hr token g i
  reply _ _ _ _ _ := .inl fun _ => trivial
  crash _ _ := trivial

/-- Events that open no view. -/
theorem views_append {events : List Event} {c d : Console} (h : d.journal = c.journal ++ events)
    (hevents : ∀ e ∈ events, e.view? = none) : d.views = c.views := by
  have hnone : events.filterMap Event.view? = [] := List.filterMap_eq_nil_iff.2 hevents
  rw [Console.views, h, List.filterMap_append, hnone, List.append_nil]
  rfl

theorem views_of_grows {c d : Console} (h : Console.Grows unseen.event c d) : d.views = c.views := by
  obtain ⟨events, hjournal, hevents⟩ := h
  exact views_append hjournal hevents

/-- From one session to another as many queries were started as tableaus were opened, and no other
view. -/
def Shown (s t : Session Local) : Prop :=
  ∃ n, t.gateway.queries = s.gateway.queries + n ∧
    t.console.views = s.console.views ++ List.replicate n .tableau

theorem shown_of_within {s t : Session Local} (h : unseen.Within s t) : Shown s t :=
  ⟨0, h.gateway, by rw [views_of_grows h.console]; simp⟩

theorem Shown.trans {s t u : Session Local} (h : Shown s t) (h' : Shown t u) : Shown s u := by
  obtain ⟨n, hqueries, hviews⟩ := h
  obtain ⟨m, hqueries', hviews'⟩ := h'
  refine ⟨n + m, by omega, ?_⟩
  rw [hviews', hviews, List.append_assoc, List.replicate_append_replicate]

theorem not_query_of_asks {op : Operation} {r : Request} (hop : op.kind ≠ .query)
    (hr : op.Asks r) : ∀ statement, r ≠ .query statement := by
  intro statement heq
  subst heq
  cases op with
  | query => exact hop rfl
  | set key value =>
    cases key with
    | none => cases hr
    | some key => cases value <;> cases hr
  | reset key => cases key <;> cases hr
  | insert | createTableAs | endStatementSet | statementSet =>
    obtain ⟨ms, hms⟩ := hr
    cases hms
  | _ => cases hr

omit [ResultSource φ] in
/-- The guard lets a script start a query only where results are shown as tableaus. -/
theorem resultMode_of_admits {statement : Text} {s : Session σ} (hmode : s.mode = .nonInteractive)
    (h : admits (.query statement) s = .ok ()) :
    Setting.resultMode.get s.properties = .tableau := by
  by_cases htableau : Setting.resultMode.get s.properties = .tableau
  · exact htableau
  · unfold admits Guard.check Guard.checkMode at h
    rw [hmode] at h
    dsimp only at h
    rw [if_pos ⟨rfl, htableau⟩] at h
    cases h

/-- A query that the local gateway answers is counted, and its mode is what the properties say. -/
theorem handle_query (statement : Text) (token : CancelToken) (g : Local) (i : Interrupts) :
    (∃ e, Gateway.handle (.query statement) token g i = (.error e, g, i)) ∨
      ∃ d : Descriptor, d.mode = Setting.resultMode.get g.properties ∧
        Gateway.handle (.query statement) token g i =
          (.ok d, { g with queries := g.queries + 1 }, i) := by
  have hhandle : Gateway.handle (.query statement) token g i =
      if i.isCancelled token then (.error .cancelled, g, i)
      else ((Local.settle g (g.query statement)).1, (Local.settle g (g.query statement)).2, i) := rfl
  rw [hhandle]
  by_cases hcancelled : i.isCancelled token
  · rw [if_pos hcancelled]
    exact .inl ⟨.cancelled, rfl⟩
  · rw [if_neg hcancelled]
    cases hquery : g.query statement with
    | error e => exact .inl ⟨e, rfl⟩
    | ok found =>
      obtain ⟨hmode, heq⟩ := Local.eq_of_query hquery
      exact .inr ⟨found.1, hmode, by rw [← heq]; rfl⟩

/-- Ask for a query to be started. -/
def startQuery (statement : Text) (token : CancelToken) : SessionM σ (Descriptor φ) :=
  ask (.query statement) token ("Failed to execute query '" ++ statement ++ "'")

def showResult (token : CancelToken) (d : Descriptor φ) : SessionM σ Unit := do
  atConsole (View.present d.mode d token)
  if d.mode ≠ .tableau then inform Message.resultQuit

theorem query_eq (statement : Text) (token : CancelToken) :
    query (σ := σ) statement token = startQuery statement token >>= showResult token := rfl

/-- A query is started and counted, to be shown as the properties say, or it is refused. -/
theorem startQuery_cases (statement : Text) (token : CancelToken) (s : Session Local) :
    ∃ answer t, startQuery statement token s = (answer, t) ∧
      t.console.views = s.console.views ∧
      match answer with
      | .error _ => t.gateway.queries = s.gateway.queries
      | .ok d => t.gateway.queries = s.gateway.queries + 1 ∧
          d.mode = Setting.resultMode.get s.properties := by
  have hstart : ∃ t, startQuery statement token s =
        (((Gateway.handle (.query statement) token s.gateway s.console.interrupts).1.mapError
          fun e => .failure (.gateway ("Failed to execute query '" ++ statement ++ "'") e)), t) ∧
      t.console.views = s.console.views ∧
      t.gateway = (Gateway.handle (.query statement) token s.gateway s.console.interrupts).2.1 :=
    ⟨_, rfl, views_append rfl (by simp [Event.view?]), rfl⟩
  obtain ⟨t, hstart, hviews, hgateway⟩ := hstart
  refine ⟨_, t, hstart, hviews, ?_⟩
  obtain ⟨e, hrefused⟩ | ⟨d, hmode, hstarted⟩ :=
    handle_query statement token s.gateway s.console.interrupts
  · rw [hgateway, hrefused]
    rfl
  · rw [hgateway, hstarted]
    exact ⟨rfl, hmode⟩

/-- Showing a result opens the view that it is to be shown in, and no other. -/
theorem showResult_tableau {d : Descriptor} (hd : d.mode = .tableau) (token : CancelToken)
    (s : Session Local) :
    (showResult token d s).2.gateway = s.gateway ∧
      (showResult token d s).2.console.views = s.console.views ++ [.tableau] := by
  have hshow : showResult token d = (atConsole (View.present d.mode d token) >>= fun _ =>
      pure () : SessionM Local Unit) := by
    unfold showResult
    simp [hd]
  have hpresent : (atConsole (View.present d.mode d token) s).2.console.views =
      s.console.views ++ [.tableau] := by
    obtain ⟨-, shown, hjournal, hshown⟩ :=
      View.meets_present unseen_sound.console (fun _ => trivial) d.mode d token s.console
    have hnone : shown.filterMap Event.view? = [] := List.filterMap_eq_nil_iff.2 hshown
    change ((View.present d.mode d token s.console).2.journal).filterMap Event.view? = _
    rw [hjournal, List.filterMap_append, List.filterMap_cons, List.filterMap_append, hnone, hd]
    rfl
  rw [hshow, Respects.run_bind]
  rcases hs : atConsole (View.present d.mode d token) s with ⟨_ | _, t⟩
  · rw [hs] at hpresent
    exact ⟨congrArg (·.2.gateway) hs.symm, hpresent⟩
  · rw [hs] at hpresent
    exact ⟨congrArg (·.2.gateway) hs.symm, hpresent⟩

/-- A query that is started where the result mode is tableau is shown as a tableau. -/
theorem query_shown (statement : Text) {s : Session Local}
    (htableau : Setting.resultMode.get s.properties = .tableau) (token : CancelToken) :
    Shown s (query statement token s).2 := by
  obtain ⟨answer, t, hstart, hviews, hanswer⟩ := startQuery_cases statement token s
  rw [query_eq, Respects.run_bind, hstart]
  cases answer with
  | error f => exact ⟨0, hanswer, by simpa using hviews⟩
  | ok d =>
    obtain ⟨hqueries, hmode⟩ := hanswer
    obtain ⟨hgateway, hshown⟩ := showResult_tableau (hmode.trans htableau) token t
    refine ⟨1, ?_, ?_⟩
    · rw [← hqueries]
      exact congrArg Local.queries hgateway
    · rw [← hviews]
      exact hshown

/-- Every dispatch in a script starts a query that it shows as a tableau, or starts none. -/
theorem dispatch_shown {s : Session Local} (hmode : s.mode = .nonInteractive) (op : Operation)
    (token : CancelToken) :
    Shown s (dispatch op token s).2 := by
  by_cases hop : ∃ statement, op = .query statement
  · obtain ⟨statement, rfl⟩ := hop
    have hnoted : Shown s { s with console := s.console.note (.dispatched (.query statement)) } :=
      ⟨0, rfl, by simpa using views_append rfl (by simp [Event.view?])⟩
    rw [dispatch_apply]
    cases hadmits : admits (.query statement) s with
    | error denial => exact hnoted
    | ok _ =>
      have htableau : Setting.resultMode.get
          { s with console := s.console.note (.dispatched (.query statement)) }.properties =
            .tableau := resultMode_of_admits hmode hadmits
      exact hnoted.trans (query_shown statement htableau token)
  · have hkind : op.kind ≠ .query := by
      cases op with
      | query statement => exact (hop ⟨statement, rfl⟩).elim
      | _ => exact Operation.Kind.noConfusion
    have hwithin := (dispatch_within unseen_sound op token s fun _ =>
      meets_perform unseen_sound (fun _ _ => trivial)
        (fun r hr => unseen_grants (not_query_of_asks hkind hr)) (absurd · hkind) token).1
    exact shown_of_within hwithin

/-- **Modes confine what a script can do.**  Whatever is read, and whatever gateway it is read for, a
run in initialization mode asks only for what prepares a session and opens no statement set; so it
leaves the jobs of a local gateway as they are.  In a script every query that a local gateway starts
is shown as a tableau, and nothing is shown in any other way. -/
theorem modes_confine :
    (∀ (σ φ : Type) [ResultSource φ] [Gateway.Over σ φ] (g : σ) (console : Console)
      (reads : List TerminalRead), OnlyPrepares (start g console .initialization)
        (run .standard reads (start g console .initialization)).session) ∧
    (∀ (σ φ : Type) [ResultSource φ] [Gateway.Over σ φ] (s : Session σ) (op : Operation)
      (token : CancelToken), OnlyPrepares { s with mode := .initialization }
        (dispatch op token { s with mode := .initialization }).2) ∧
    (∀ (g : Local) (console : Console) (reads : List TerminalRead),
      (run .standard reads (start g console .initialization)).session.gateway.jobs = g.jobs) ∧
    (∀ (g : Local) (console : Console) (reads : List TerminalRead),
      Shown (start g console .nonInteractive)
        (run .standard reads (start g console .nonInteractive)).session) := by
  refine ⟨?_, ?_, ?_, ?_⟩
  · intro σ φ _ _ g console reads
    exact onlyPrepares_of_within (run_preparing .standard reads rfl)
  · intro σ φ _ _ s op token
    exact onlyPrepares_of_within (dispatch_preparing rfl op token)
  · intro g console reads
    have hwithin : preparing.Within (start g console .initialization) _ :=
      run_preparing .standard reads rfl
    exact jobs_of_answered hwithin.gateway
  · intro g console reads
    have hinvariant : Invariant (σ := Local) unseen.event fun s =>
        s.mode = .nonInteractive ∧ Shown (start g console .nonInteractive) s := {
      refused := rfl
      read := rfl
      console := fun ⟨hmode, hshown⟩ hgrows =>
        ⟨hmode, hshown.trans (shown_of_within (unseen_sound.atConsole hgrows))⟩
      dispatch := fun op token ⟨hmode, hshown⟩ =>
        ⟨(mode_dispatch op token _).trans hmode, hshown.trans (dispatch_shown hmode op token)⟩ }
    exact (invariant_run hinvariant .standard reads ⟨rfl, 0, rfl, by simp⟩).2

end Session

end SqlConsole
