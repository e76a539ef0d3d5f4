import SqlConsole.Proofs.Catalog.InPlace
import SqlConsole.Proofs.Gateway.JobSteps
/-!
# Requests in place

A request to the local gateway, step by step: what is looked at, and what is written in which order
(`perform`).  A jar is taken out to see whether it was there, and a job is stopped and a savepoint
counted behind all that can fail.

* `on_perform`: performing a request does what it is answered, where modules differ in their names.
* `comesOf_afterCalls`: whatever requests do to the catalog is done by actions, so modules
  differ in their names behind any requests to a new gateway.
* `failed_calls_change_nothing`: **what fails leaves the whole gateway as it was**, unless it is
  about modifications.  These are submitted in place already, and may fail behind their first table.
-/

namespace SqlConsole.Local

variable {α : Type} {g d : Local} {e : GatewayError} {statement : Text} {token : CancelToken}
  {i : Interrupts}

/-! ## Queries of cancelled statements -/

theorem handle_query_of_cancelled (h : i.isCancelled token = true) :
    handle (.query statement) token g i = (.error .cancelled, g, i) := if_pos h

theorem handle_query_of_not_cancelled (h : ¬ i.isCancelled token = true) :
    handle (.query statement) token g i =
      ((settle g (g.query statement)).1, (settle g (g.query statement)).2, i) := if_neg h

namespace InPlace

open SqlConsole.InPlace

/-! ## The catalog of a gateway -/

/-- Work on the catalog of a gateway. -/
def onCatalog (p : InPlace Catalog α) : InPlace Local α := do
  let g ← get
  match p.on g.catalog with
  | (.ok a, catalog) => set { g with catalog }; return a
  | (.error e, catalog) => set { g with catalog }; throw e

theorem on_onCatalog (p : InPlace Catalog α) (g : Local) :
    (onCatalog p).on g = ((p.on g.catalog).1, { g with catalog := (p.on g.catalog).2 }) := by
  rw [onCatalog, on_bind_ok (on_get g)]
  rcases p.on g.catalog with ⟨e | a, catalog⟩
  · rfl
  · rfl

/-- Work on the catalog, and acknowledge that it was done. -/
def acknowledge (p : InPlace Catalog Unit) : InPlace Local TableResult := do
  onCatalog p
  return .ok

theorem on_acknowledge {p : InPlace Catalog Unit} {made : Except GatewayError Catalog}
    (h : p.Does g.catalog (made.map ((), ·))) : (acknowledge p).on g = settleCatalog g made := by
  rw [acknowledge, on_bind, on_onCatalog, h]
  cases made with
  | ok catalog => rfl
  | error e => rfl

theorem atomic_acknowledge {p : InPlace Catalog Unit} (hp : p.Atomic g.catalog) :
    (acknowledge p).Atomic g := by
  intro e d h
  rw [acknowledge, on_bind, on_onCatalog] at h
  rcases hrun : p.on g.catalog with ⟨e' | a, catalog⟩
  · rw [hrun] at h
    obtain ⟨-, rfl⟩ := Prod.mk.inj h
    rw [hp e' catalog hrun]
  · rw [hrun] at h
    cases h

/-! ## Operations -/

/-- The action on the catalog that an operation asks for. -/
def action? : Operation → Option Catalog.Action
  | .create ⟨.catalog, name, guarded, _⟩ => some (.change (.createCatalog name guarded))
  | .create ⟨.database, name, guarded, _⟩ => some (.change (.createDatabase name guarded))
  | .create ⟨kind, name, guarded, ddl⟩ => some (.change (.createObject kind name ddl guarded))
  | .drop ⟨.catalog, name, guarded, _⟩ => some (.change (.dropCatalog name guarded))
  | .drop ⟨.database, name, guarded, _⟩ => some (.change (.dropDatabase name guarded))
  | .drop ⟨kind, name, guarded, _⟩ => some (.change (.dropObject kind name guarded))
  | .use (.catalog name) _ => some (.change (.useCatalog name))
  | .use (.database name) _ => some (.change (.useDatabase name))
  | .use (.modules names) _ => some (.useModules names)
  | .loadModule name => some (.loadModule name)
  | .unloadModule name => some (.unloadModule name)
  | _ => none

theorem execute_of_action? {op : Operation} {a : Catalog.Action} (h : action? op = some a)
    (g : Local) : g.execute op = settleCatalog g (g.catalog.act a) := by
  cases op with
  | create d =>
    obtain ⟨object, name, guarded, ddl⟩ := d
    cases object <;> cases h <;> rfl
  | drop d =>
    obtain ⟨object, name, guarded, ddl⟩ := d
    cases object <;> cases h <;> rfl
  | use target s => cases target <;> cases h <;> rfl
  | loadModule | unloadModule =>
    cases h
    rfl
  | _ => cases h

/-- Ask a question that changes nothing. -/
def ask (f : Local → Except GatewayError α) : InPlace Local α := do
  match f (← get) with
  | .ok a => return a
  | .error e => throw e

theorem on_ask (f : Local → Except GatewayError α) (g : Local) : (ask f).on g = (f g, g) := by
  rw [ask, on_bind_ok (on_get g)]
  cases f g with
  | ok a => rfl
  | error e => rfl

/-- Submit modifications.  Tables that were created before one fails stay. -/
def submit (ms : List Modify) : InPlace Local TableResult := do
  let g ← get
  match g.modify ms with
  | (.ok result, g) => set g; return result
  | (.error e, g) => set g; throw e

theorem on_submit (ms : List Modify) (g : Local) : (submit ms).on g = g.modify ms := by
  rw [submit, on_bind_ok (on_get g)]
  rcases g.modify ms with ⟨e | result, d⟩
  · rfl
  · rfl

/-- Do what an operation asks of the catalog. -/
def actOn (op : Operation) : InPlace Local TableResult :=
  match action? op with
  | some a => acknowledge (Catalog.InPlace.act a)
  | none => throw (.execution (op.kind.name ++
      " is a client command and cannot be executed by the gateway"))

def execute (op : Operation) : InPlace Local TableResult :=
  match op with
  | .alter d => ask fun g => (Local.alter g.catalog d).map fun _ => .ok
  | .addJar path => do
    modifyThe Local fun g => { g with jars := g.jars.insert path }
    return .ok
  | .showCreateTable name => ask fun g => showCreate g.catalog .table name
  | .showCreateView name => ask fun g => showCreate g.catalog .view name
  | .explain statement => ask fun g => .ok (explain g.catalog statement)
  | .insert m | .createTableAs m => submit [m]
  | .statementSet ms => submit ms
  | .other statement => ask fun g => g.answerWords statement
  | op => actOn op

theorem execute_eq_acknowledge {op : Operation} {a : Catalog.Action} (h : action? op = some a) :
    execute op = acknowledge (Catalog.InPlace.act a) := by
  have hact : actOn op = acknowledge (Catalog.InPlace.act a) := by
    rw [actOn, h]
  cases op with
  | create | drop | use | loadModule | unloadModule => exact hact
  | _ => cases h

/-- An operation acts on the catalog, submits modifications, adds a jar, or only answers. -/
theorem execute_cases (op : Operation) :
    (∃ a, action? op = some a) ∨
      (∃ ms, (Request.execute op).modifications? = some ms ∧ execute op = submit ms ∧
        ∀ g : Local, g.execute op = g.modify ms) ∨
      (∃ path, op = .addJar path) ∨
      ∃ f : Local → Except GatewayError TableResult,
        ∀ g, (execute op).on g = (f g, g) ∧ g.execute op = (f g, g) := by
  cases op with
  | create d =>
    obtain ⟨object, name, guarded, ddl⟩ := d
    cases object <;> exact .inl ⟨_, rfl⟩
  | drop d =>
    obtain ⟨object, name, guarded, ddl⟩ := d
    cases object <;> exact .inl ⟨_, rfl⟩
  | use target s => cases target <;> exact .inl ⟨_, rfl⟩
  | loadModule | unloadModule => exact .inl ⟨_, rfl⟩
  | insert m | createTableAs m => exact .inr (.inl ⟨[m], rfl, rfl, fun _ => rfl⟩)
  | statementSet ms => exact .inr (.inl ⟨ms, rfl, rfl, fun _ => rfl⟩)
  | addJar path => exact .inr (.inr (.inl ⟨path, rfl⟩))
  | alter | showCreateTable | showCreateView | other =>
    exact .inr (.inr (.inr ⟨_, fun g => ⟨on_ask _ g, rfl⟩⟩))
  | _ => exact .inr (.inr (.inr ⟨_, fun g => ⟨rfl, rfl⟩⟩))

theorem on_execute (hg : g.catalog.DistinctModules) (op : Operation) :
    (execute op).on g = g.execute op := by
  rcases execute_cases op with ⟨a, ha⟩ | ⟨ms, -, hsubmit, hmodify⟩ | ⟨path, rfl⟩ | ⟨f, hf⟩
  · rw [execute_of_action? ha, execute_eq_acknowledge ha]
    exact on_acknowledge (Catalog.InPlace.does_act hg a)
  · rw [hsubmit, hmodify, on_submit]
  · rfl
  · rw [(hf g).1, (hf g).2]

/-- An operation that fails and submits no modifications leaves the gateway. -/
theorem atomic_execute {op : Operation} (hop : (Request.execute op).modifications? = none)
    (g : Local) : (execute op).Atomic g := by
  intro e d h
  rcases execute_cases op with ⟨a, ha⟩ | ⟨ms, hms, -⟩ | ⟨path, rfl⟩ | ⟨f, hf⟩
  · rw [execute_eq_acknowledge ha] at h
    exact atomic_acknowledge (Catalog.InPlace.atomic_act a g.catalog) e d h
  · cases hop.symm.trans hms
  · cases h
  · exact (Prod.mk.inj ((hf g).1.symm.trans h)).2.symm

/-! ## Requests -/

def setProperty (key value : Text) : InPlace Local Unit := do
  match Property.check key value with
  | .ok () => modifyThe Local fun g => { g with overrides := g.overrides.insert key value }
  | .error fault => throw (.invalidProperty fault)

theorem does_setProperty (key value : Text) (g : Local) :
    (setProperty key value).Does g ((g.setProperty key value).map ((), ·)) := by
  unfold setProperty Local.setProperty
  cases Property.check key value with
  | ok u => rfl
  | error fault => rfl

/-- A query is counted when all that can fail is done. -/
def query (statement : Text) : InPlace Local Descriptor := do
  let (schema, rows) ← ask fun g => g.answerQuery statement
  let properties := (← get).properties
  let streaming := Setting.runtimeMode.get properties = .streaming
  modifyThe Local fun g => { g with queries := g.queries + 1 }
  return {
    resultId := "result-" ++ Text.ofNat (← get).queries
    schema
    mode := Setting.resultMode.get properties
    streaming
    maxColumnWidth := Setting.maxColumnWidth.get properties
    source := { batches := if streaming then rows.map ([·]) else [rows] } }

theorem does_query (statement : Text) (g : Local) :
    (query statement).Does g (g.query statement) := by
  unfold query Local.query
  rw [Does, on_bind, on_ask]
  cases g.answerQuery statement with
  | ok found => rfl
  | error e => rfl

/-- A jar is taken out to see whether it was there. -/
def removeJar (path : Text) : InPlace Local Unit := do
  let g ← get
  let (wasThere, jars) := Catalog.InPlace.take path g.jars
  set { g with jars }
  if !wasThere then throw (.jarNotFound path)

theorem does_removeJar (path : Text) (g : Local) :
    (removeJar path).Does g ((g.removeJar path).map ((), ·)) := by
  unfold removeJar Local.removeJar Catalog.InPlace.take
  rw [Does, on_bind_ok (on_get g)]
  dsimp only
  split
  · rfl
  · rfl

/-- A job is stopped before the path of its savepoint is made. -/
def stopJob (job : Text) (savepoint : Bool) : InPlace Local (Option Text) := do
  if !isJobId job then throw (.invalidJobId job)
  else
    let id := Text.lower job
    match (← get).jobs[id]? with
    | none => throw (.unknownJob job)
    | some found =>
      if found.status ≠ .running then throw (.jobNotRunning job)
      else
        modifyThe Local fun g =>
          { g with jobs := g.jobs.insert id { found with status := .stopped } }
        if !savepoint then return none
        else
          modifyThe Local fun g => { g with savepoints := g.savepoints + 1 }
          let g ← get
          return some (savepointPath g.savepointDir id g.savepoints)

theorem does_stopJob (job : Text) (savepoint : Bool) (g : Local) :
    (stopJob job savepoint).Does g (g.stopJob job savepoint) := by
  rw [Does, stopJob, Local.stopJob]
  by_cases hid : (!isJobId job) = true
  · rw [if_pos hid, if_pos hid]
    rfl
  rw [if_neg hid, if_neg hid]
  dsimp only
  rw [on_bind_ok (on_get g)]
  cases g.jobs[Text.lower job]? with
  | none => rfl
  | some found =>
    dsimp only
    by_cases hrunning : found.status ≠ .running
    · rw [if_pos hrunning, if_pos hrunning]
      rfl
    · rw [if_neg hrunning, if_neg hrunning]
      cases savepoint with
      | true => rfl
      | false => rfl

/-- A request, step by step. -/
def perform (r : Request) (token : CancelToken) (i : Interrupts) : InPlace Local r.Reply :=
  match r with
  | .setProperty key value => setProperty key value
  | .resetProperty key => modifyThe Local fun g => { g with overrides := g.overrides.erase key }
  | .resetProperties => modifyThe Local fun g => { g with overrides := ∅ }
  | .query statement => if i.isCancelled token then throw .cancelled else query statement
  | .modify ms => if i.isCancelled token then throw .cancelled else submit ms
  | .execute op => execute op
  | .removeJar path => removeJar path
  | .stopJob job savepoint _ => stopJob job savepoint

theorem perform_query_of_cancelled
    (h : i.isCancelled token = true) : perform (.query statement) token i = throw .cancelled :=
  if_pos h

theorem perform_query_of_not_cancelled
    (h : ¬ i.isCancelled token = true) : perform (.query statement) token i = query statement :=
  if_neg h

theorem settle_eq_settled (g : Local) (made : Except GatewayError (α × Local)) :
    settle g made = settled g made := by
  cases made with
  | ok found => rfl
  | error e => rfl

/-- **A request does in place what it is answered.** -/
theorem on_perform (hg : g.catalog.DistinctModules) (r : Request) (token : CancelToken)
    (i : Interrupts) :
    (perform r token i).on g = ((handle r token g i).1, (handle r token g i).2.1) := by
  cases r with
  | setProperty key value => exact (does_setProperty key value g).trans (settle_eq_settled g _).symm
  | resetProperty | resetProperties => rfl
  | query statement =>
    by_cases hcancelled : i.isCancelled token
    · rw [handle_query_of_cancelled hcancelled, perform_query_of_cancelled hcancelled]
      rfl
    · rw [handle_query_of_not_cancelled hcancelled, perform_query_of_not_cancelled hcancelled]
      exact (does_query statement g).trans (settle_eq_settled g _).symm
  | modify ms =>
    by_cases hcancelled : i.isCancelled token
    · have hhandle : handle (.modify ms) token g i = (.error .cancelled, g, i) :=
        if_pos hcancelled
      have hperform : perform (.modify ms) token i = throw .cancelled := if_pos hcancelled
      rw [hhandle, hperform]
      rfl
    · have hhandle : handle (.modify ms) token g i = ((g.modify ms).1, (g.modify ms).2, i) :=
        if_neg hcancelled
      have hperform : perform (.modify ms) token i = submit ms := if_neg hcancelled
      rw [hhandle, hperform]
      exact on_submit ms g
  | execute op => exact on_execute hg op
  | removeJar path => exact (does_removeJar path g).trans (settle_eq_settled g _).symm
  | stopJob job savepoint drain =>
    exact (does_stopJob job savepoint g).trans (settle_eq_settled g _).symm

/-- A request that fails and submits no modifications leaves the gateway. -/
theorem atomic_perform {r : Request} (hr : r.modifications? = none) (token : CancelToken)
    (i : Interrupts) (g : Local) : (perform r token i).Atomic g := by
  cases r with
  | setProperty key value => exact (does_setProperty key value g).atomic
  | resetProperty | resetProperties => exact fun e d h => nomatch h
  | query statement =>
    by_cases hcancelled : i.isCancelled token
    · rw [perform_query_of_cancelled hcancelled]
      exact fun e d h => (Prod.mk.inj h).2.symm
    · rw [perform_query_of_not_cancelled hcancelled]
      exact (does_query statement g).atomic
  | modify ms => cases hr
  | execute op => exact atomic_execute hr g
  | removeJar path => exact (does_removeJar path g).atomic
  | stopJob job savepoint drain => exact (does_stopJob job savepoint g).atomic

end InPlace

/-! ## The catalogs of gateways -/

/-- A catalog that actions make of another one. -/
def ComesOf (c d : Catalog) : Prop := ∃ actions, d = c.afterActions actions

theorem ComesOf.refl (c : Catalog) : ComesOf c c := ⟨[], rfl⟩

theorem ComesOf.trans {b c d : Catalog} (hbc : ComesOf b c) (hcd : ComesOf c d) : ComesOf b d := by
  obtain ⟨first, rfl⟩ := hbc
  obtain ⟨rest, rfl⟩ := hcd
  refine ⟨first ++ rest, ?_⟩
  unfold Catalog.afterActions
  rw [List.foldl_append]

theorem comesOf_afterAction (c : Catalog) (a : Catalog.Action) : ComesOf c (c.afterAction a) :=
  ⟨[a], rfl⟩

/-- Tables that are created with their modifications are created by actions. -/
theorem comesOf_createTargets (c : Catalog) (ms : List Modify) :
    ComesOf c (createTargets c ms).2 := by
  induction ms generalizing c with
  | nil => exact .refl c
  | cons m ms ih =>
    by_cases hkind : m.kind = .createTableAs
    · rw [createTargets, if_pos hkind]
      have hfirst := comesOf_afterAction c
        (.change (.createObject .table m.target m.statement false))
      rw [Catalog.afterAction, Catalog.act, Catalog.change] at hfirst
      cases hmade : c.createObject .table m.target m.statement false with
      | ok made =>
        rw [hmade] at hfirst
        exact hfirst.trans (ih made.2)
      | error e => exact .refl c
    · rw [createTargets, if_neg hkind]
      exact ih c

theorem comesOf_modify (g : Local) (ms : List Modify) :
    ComesOf g.catalog (g.modify ms).2.catalog := by
  have hcreated := comesOf_createTargets g.catalog ms
  unfold modify
  split
  · exact .refl g.catalog
  split
  · exact .refl g.catalog
  · generalize createTargets g.catalog ms = made at hcreated
    obtain ⟨e | u, catalog⟩ := made
    · exact hcreated
    · exact hcreated

theorem comesOf_execute (g : Local) (op : Operation) :
    ComesOf g.catalog (g.execute op).2.catalog := by
  rcases InPlace.execute_cases op with ⟨a, ha⟩ | ⟨ms, -, -, hmodify⟩ | ⟨path, rfl⟩ | ⟨f, hf⟩
  · have hact := comesOf_afterAction g.catalog a
    rw [InPlace.execute_of_action? ha]
    rw [Catalog.afterAction] at hact
    cases hd : g.catalog.act a with
    | ok catalog =>
      rw [hd] at hact
      exact hact
    | error e => exact .refl g.catalog
  · rw [hmodify]
    exact comesOf_modify g ms
  · exact .refl g.catalog
  · rw [(hf g).2]
    exact .refl g.catalog

/-- Whatever a request does to the catalog of a gateway is done by actions. -/
theorem comesOf_afterCall (g : Local) (call : Call) :
    ComesOf g.catalog (g.afterCall call).catalog := by
  obtain ⟨r, token, i⟩ := call
  cases r with
  | setProperty key value =>
    refine settle_done (P := fun d => ComesOf g.catalog d.catalog) (.refl _) fun d hd => ?_
    rw [(eq_of_setProperty hd).2]
    exact .refl _
  | resetProperty | resetProperties => exact .refl _
  | query statement =>
    unfold afterCall handle
    dsimp only
    split
    · exact .refl _
    · refine settle_snd (P := fun d => ComesOf g.catalog d.catalog) (.refl _)
        fun descriptor d hd => ?_
      rw [(eq_of_query hd).2]
      exact .refl _
  | modify ms =>
    unfold afterCall handle
    dsimp only
    split
    · exact .refl _
    · exact comesOf_modify g ms
  | execute op => exact comesOf_execute g op
  | removeJar path =>
    refine settle_done (P := fun d => ComesOf g.catalog d.catalog) (.refl _) fun d hd => ?_
    obtain ⟨jars, rfl⟩ := exists_of_removeJar hd
    exact .refl _
  | stopJob job savepoint drain =>
    refine settle_snd (P := fun d => ComesOf g.catalog d.catalog) (.refl _) fun answer d hd => ?_
    obtain ⟨-, jobs, savepoints, rfl⟩ := exists_of_stopJob hd
    exact .refl _

/-- **The catalog of a gateway behind any requests is a catalog behind actions.** -/
theorem comesOf_afterCalls (g : Local) (calls : List Call) :
    ComesOf g.catalog (g.afterCalls calls).catalog := by
  induction calls generalizing g with
  | nil => exact .refl g.catalog
  | cons call calls ih => exact (comesOf_afterCall g call).trans (ih (g.afterCall call))

theorem housed_afterCalls (hg : Catalog.Housed g.catalog) (calls : List Call) :
    Catalog.Housed (g.afterCalls calls).catalog := by
  obtain ⟨actions, hactions⟩ := comesOf_afterCalls g calls
  rw [hactions]
  exact Catalog.housed_afterActions hg actions

/-! ## Requests that fail -/

theorem settle_of_error {made : Except GatewayError (α × Local)}
    (h : (settle g made).1 = .error e) : (settle g made).2 = g := by
  cases made with
  | ok found => cases h
  | error _ => rfl

theorem settleCatalog_of_error {made : Except GatewayError Catalog}
    (h : (settleCatalog g made).1 = .error e) : (settleCatalog g made).2 = g := by
  cases made with
  | ok catalog => cases h
  | error _ => rfl

theorem execute_of_error {op : Operation} (hop : (Request.execute op).modifications? = none)
    (h : (g.execute op).1 = .error e) : (g.execute op).2 = g := by
  rcases InPlace.execute_cases op with ⟨a, ha⟩ | ⟨ms, hms, -⟩ | ⟨path, rfl⟩ | ⟨f, hf⟩
  · rw [InPlace.execute_of_action? ha] at h ⊢
    exact settleCatalog_of_error h
  · cases hop.symm.trans hms
  · cases h
  · rw [(hf g).2]

theorem handle_of_error {r : Request} (hr : r.modifications? = none)
    (h : (handle r token g i).1 = .error e) : (handle r token g i).2 = (g, i) := by
  cases r with
  | setProperty | removeJar | stopJob => exact congrArg (·, i) (settle_of_error h)
  | resetProperty | resetProperties => cases h
  | query statement =>
    by_cases hcancelled : i.isCancelled token
    · rw [handle_query_of_cancelled hcancelled]
    · rw [handle_query_of_not_cancelled hcancelled] at h ⊢
      exact congrArg (·, i) (settle_of_error h)
  | modify ms => cases hr
  | execute op => exact congrArg (·, i) (execute_of_error hr h)

/-- **What fails changes nothing.**  An action that fails on a catalog leaves it, though it may have
put names in or taken modules away by then.  A request that fails and submits no modifications
leaves the gateway, whatever its state is.  Both do step by step what the functions of a catalog
and of a gateway answer, on all catalogs and gateways that can come about. -/
theorem failed_calls_change_nothing :
    (∀ (actions : List Catalog.Action) (a : Catalog.Action),
      let c := Catalog.empty.afterActions actions
      (Catalog.InPlace.act a).Does c ((c.act a).map ((), ·)) ∧
        ∀ e d, (Catalog.InPlace.act a).on c = (.error e, d) → d = c) ∧
      (∀ (g : Local) (r : Request) (token : CancelToken) (i : Interrupts),
        r.modifications? = none →
          (∀ e d, (InPlace.perform r token i).on g = (.error e, d) → d = g) ∧
            ∀ e, (handle r token g i).1 = .error e → (handle r token g i).2 = (g, i)) ∧
      ∀ (defaults : Properties) (savepointDir : Text) (ids : JobIds) (calls : List Call)
        (r : Request) (token : CancelToken) (i : Interrupts),
        let g := (ofDefaults defaults savepointDir ids).afterCalls calls
        (InPlace.perform r token i).on g = ((handle r token g i).1, (handle r token g i).2.1) := by
  refine ⟨fun actions a => ⟨?_, ?_⟩, fun g r token i hr => ⟨?_, fun e => handle_of_error hr⟩, ?_⟩
  · exact Catalog.InPlace.does_act
      (Catalog.housed_afterActions Catalog.housed_empty actions).modules a
  · exact Catalog.InPlace.atomic_act a _
  · exact InPlace.atomic_perform hr token i g
  · intro defaults savepointDir ids calls r token i
    have hempty : Catalog.Housed (ofDefaults defaults savepointDir ids).catalog :=
      Catalog.housed_empty
    exact InPlace.on_perform (housed_afterCalls hempty calls).modules r token i

/-- A database with a name that is taken. -/
def takenDatabase : Request :=
  .execute (.create ⟨.database, "default_database", false, "CREATE DATABASE default_database"⟩)

theorem failed_calls_change_nothing_takenDatabase :
    (∃ e, (Catalog.InPlace.act (.unloadModule "hive")).on
        (Catalog.empty.afterActions [.loadModule "extra"]) =
          (.error e, Catalog.empty.afterActions [.loadModule "extra"])) ∧
      takenDatabase.modifications? = none ∧
      ∃ e, (InPlace.perform takenDatabase 0 {}).on (ofDefaults ∅ defaultSavepointDir {}) =
        (.error e, ofDefaults ∅ defaultSavepointDir {}) := by
  obtain ⟨hcatalog, hgateway, -⟩ := failed_calls_change_nothing
  have hmodule : ((Catalog.InPlace.act (.unloadModule "hive")).on
      (Catalog.empty.afterActions [.loadModule "extra"])).1 =
        .error (.notFound .module "hive") := by
    rfl
  have hdatabase : ((InPlace.perform takenDatabase 0 {}).on
      (ofDefaults ∅ defaultSavepointDir {})).1 =
        .error (.alreadyExists .database "default_catalog.default_database") := by
    rfl
  refine ⟨⟨_, Prod.ext hmodule ?_⟩, rfl, ⟨_, Prod.ext hdatabase ?_⟩⟩
  · exact (hcatalog [.loadModule "extra"] (.unloadModule "hive")).2 _ _ (Prod.ext hmodule rfl)
  · exact (hgateway _ takenDatabase 0 {} rfl).1 _ _ (Prod.ext hdatabase rfl)

end SqlConsole.Local
