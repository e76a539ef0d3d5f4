import SqlConsole.Gateway.Local
import SqlConsole.Proofs.Session.Terms
/-!
# What the local gateway replies and changes

Each request changes few fields of a local gateway, and says which job, text or path came of it.

* `modify_cases`: modifications are submitted under the next id, or no job comes of them.
* `stopJob_cases`: a job is stopped if it runs, and otherwise nothing is changed.
* `queries_handle`: only queries are counted as queries.
* `jobs_handle`: what prepares a session touches no job.
* `fulfils_handle`: **the local gateway never breaks its word.**
-/

namespace SqlConsole

/-- What an initialization file asks for: properties are set and reset, jars removed, and statements
executed that prepare a session. -/
def Request.prepares : Request → Bool
  | .setProperty _ _ | .resetProperty _ | .resetProperties | .removeJar _ => true
  | .execute op =>
    [.create, .drop, .alter, .use, .loadModule, .unloadModule, .addJar].contains op.kind
  | .query _ | .modify _ | .stopJob _ _ _ => false

namespace Local

variable {g d : Local} {token : CancelToken} {i : Interrupts}

/-! ## Changes -/

/-- What holds of a state and of what a settled answer leaves behind. -/
theorem settle_snd {α : Type} {P : Local → Prop} {made : Except GatewayError (α × Local)} (hg : P g)
    (hmade : ∀ a d, made = .ok (a, d) → P d) : P (settle g made).2 := by
  cases made with
  | ok found => exact hmade found.1 found.2 rfl
  | error e => exact hg

/-- The same where the answer says only that it was done. -/
theorem settle_done {P : Local → Prop} {made : Except GatewayError Local} (hg : P g)
    (hmade : ∀ d, made = .ok d → P d) : P (settle g (made.map ((), ·))).2 := by
  cases made with
  | ok d => exact hmade d rfl
  | error e => exact hg

/-- Modifications are refused, or they are submitted as a job. -/
theorem modify_cases (g : Local) (ms : List Modify) :
    (∃ e catalog, g.modify ms = (.error e, { g with catalog })) ∨
      ∃ catalog name, g.modify ms = (.ok (.submitted g.ids.next.1),
        { g with
          catalog
          jobs := g.jobs.insert g.ids.next.1
            ⟨name, if Setting.dmlSync.get g.properties then .finished else .running⟩
          ids := g.ids.next.2 }) := by
  unfold modify
  split
  · exact .inl ⟨_, g.catalog, rfl⟩
  split
  · exact .inl ⟨_, g.catalog, rfl⟩
  split
  · exact .inl ⟨_, _, rfl⟩
  · exact .inr ⟨_, _, rfl⟩

theorem exists_modify_eq (g : Local) (ms : List Modify) :
    ∃ catalog jobs ids, (g.modify ms).2 = { g with catalog, jobs, ids } := by
  obtain ⟨e, catalog, heq⟩ | ⟨catalog, name, heq⟩ := modify_cases g ms
  · exact ⟨catalog, g.jobs, g.ids, congrArg Prod.snd heq⟩
  · exact ⟨_, _, _, congrArg Prod.snd heq⟩

theorem exists_settleCatalog_eq (g : Local) (made : Except GatewayError Catalog) :
    ∃ catalog, (settleCatalog g made).2 = { g with catalog } := by
  cases made with
  | ok catalog => exact ⟨catalog, rfl⟩
  | error e => exact ⟨g.catalog, rfl⟩

/-- An operation that modifies nothing changes the catalog and the jars at most. -/
theorem exists_execute_eq_of_isPlain {op : Operation} (hop : op.isPlain) :
    ∃ catalog jars, (g.execute op).2 = { g with catalog, jars } := by
  cases op with
  | quit | insert | createTableAs | beginStatementSet | endStatementSet | statementSet => cases hop
  | create | drop | use | loadModule | unloadModule =>
    obtain ⟨catalog, hcatalog⟩ := exists_settleCatalog_eq g _
    exact ⟨catalog, g.jars, hcatalog⟩
  | addJar path => exact ⟨g.catalog, _, rfl⟩
  | _ => exact ⟨g.catalog, g.jars, rfl⟩

theorem exists_execute_eq (g : Local) (op : Operation) :
    ∃ catalog jars jobs ids, (g.execute op).2 = { g with catalog, jars, jobs, ids } := by
  by_cases hop : op.isPlain
  · obtain ⟨catalog, jars, heq⟩ := exists_execute_eq_of_isPlain (g := g) hop
    exact ⟨catalog, jars, g.jobs, g.ids, heq⟩
  · have hmodify (ms : List Modify) :
        ∃ catalog jars jobs ids, (g.modify ms).2 = { g with catalog, jars, jobs, ids } := by
      obtain ⟨catalog, jobs, ids, heq⟩ := exists_modify_eq g ms
      exact ⟨catalog, g.jars, jobs, ids, heq⟩
    cases op with
    | insert m | createTableAs m => exact hmodify [m]
    | statementSet ms => exact hmodify ms
    | quit | beginStatementSet | endStatementSet => exact ⟨_, _, _, _, rfl⟩
    | _ => exact (hop rfl).elim

theorem eq_of_setProperty {key value : Text} (h : g.setProperty key value = .ok d) :
    Property.check key value = .ok () ∧ d = { g with overrides := g.overrides.insert key value } := by
  unfold setProperty at h
  split at h
  · next hcheck => exact ⟨hcheck, (Except.ok.inj h).symm⟩
  · cases h

/-- A query that was started is counted, and is to be shown as the properties say. -/
theorem eq_of_query {statement : Text} {descriptor : Descriptor}
    (h : g.query statement = .ok (descriptor, d)) :
    descriptor.mode = Setting.resultMode.get g.properties ∧
      d = { g with queries := g.queries + 1 } := by
  unfold query at h
  cases hrows : g.answerQuery statement with
  | error e =>
    rw [hrows] at h
    cases h
  | ok found =>
    rw [hrows] at h
    obtain ⟨rfl, rfl⟩ := Prod.mk.inj (Except.ok.inj h)
    exact ⟨rfl, rfl⟩

/-- What is given is an id, in whatever letter case, and the job with the id is running. -/
def Runs (g : Local) (job : Text) : Prop :=
  isJobId job ∧ ∃ found, g.jobs[Text.lower job]? = some found ∧ found.status = .running

/-- A job is stopped exactly if it runs. -/
theorem stopJob_cases (g : Local) (job : Text) (savepoint : Bool) :
    ((∃ e, g.stopJob job savepoint = .error e) ∧ ¬ g.Runs job) ∨
      isJobId job ∧ ∃ found, g.jobs[Text.lower job]? = some found ∧ found.status = .running ∧
        g.stopJob job savepoint = .ok
          (if savepoint then
            some (savepointPath g.savepointDir (Text.lower job) (g.savepoints + 1)) else none,
            { g with jobs := g.jobs.insert (Text.lower job) { found with status := .stopped },
                     savepoints := g.savepoints + if savepoint then 1 else 0 }) := by
  unfold stopJob Runs
  cases hid : isJobId job with
  | false => exact .inl ⟨⟨_, rfl⟩, fun h => Bool.noConfusion h.1⟩
  | true =>
    cases hfound : g.jobs[Text.lower job]? with
    | none =>
      refine .inl ⟨⟨.unknownJob job, by simp [hfound]⟩, ?_⟩
      rintro ⟨-, found, hsome, -⟩
      cases hsome
    | some found =>
      by_cases hrunning : found.status = .running
      · refine .inr ⟨rfl, found, rfl, hrunning, ?_⟩
        cases savepoint <;> simp [hfound, hrunning]
      · refine .inl ⟨⟨.jobNotRunning job, by simp [hfound, hrunning]⟩, ?_⟩
        rintro ⟨-, other, hsome, hother⟩
        obtain rfl := Option.some.inj hsome
        exact hrunning hother

theorem exists_of_stopJob {job : Text} {savepoint : Bool} {answer : Option Text}
    (h : g.stopJob job savepoint = .ok (answer, d)) :
    (savepoint → answer ≠ none) ∧ ∃ jobs savepoints, d = { g with jobs, savepoints } := by
  obtain ⟨⟨e, herror⟩, -⟩ | ⟨-, found, -, -, hok⟩ := stopJob_cases g job savepoint
  · cases herror.symm.trans h
  · obtain ⟨rfl, rfl⟩ := Prod.mk.inj (Except.ok.inj (hok.symm.trans h))
    exact ⟨fun hsavepoint => by simp [hsavepoint], _, _, rfl⟩

theorem exists_of_removeJar {path : Text} (h : g.removeJar path = .ok d) :
    ∃ jars, d = { g with jars } := by
  unfold removeJar at h
  split at h
  · exact ⟨_, (Except.ok.inj h).symm⟩
  · cases h

/-- Only queries are counted as queries. -/
theorem queries_handle {r : Request} (hr : ∀ statement, r ≠ .query statement) (token : CancelToken)
    (g : Local) (i : Interrupts) : (handle r token g i).2.1.queries = g.queries := by
  cases r with
  | setProperty key value =>
    refine settle_done (P := fun d => d.queries = g.queries) rfl fun d hd => ?_
    rw [(eq_of_setProperty hd).2]
  | resetProperty | resetProperties => rfl
  | query statement => exact (hr statement rfl).elim
  | modify ms =>
    unfold handle
    dsimp only
    split
    · rfl
    · obtain ⟨catalog, jobs, ids, heq⟩ := exists_modify_eq g ms
      rw [heq]
  | execute op =>
    obtain ⟨catalog, jars, jobs, ids, heq⟩ := exists_execute_eq g op
    change (g.execute op).2.queries = _
    rw [heq]
  | removeJar path =>
    refine settle_done (P := fun d => d.queries = g.queries) rfl fun d hd => ?_
    obtain ⟨jars, rfl⟩ := exists_of_removeJar hd
    rfl
  | stopJob job savepoint drain =>
    refine settle_snd (P := fun d => d.queries = g.queries) rfl fun answer d hd => ?_
    obtain ⟨-, jobs, savepoints, rfl⟩ := exists_of_stopJob hd
    rfl

/-- What prepares a session leaves all jobs as they are. -/
theorem jobs_handle {r : Request} (hr : r.prepares) (token : CancelToken) (g : Local)
    (i : Interrupts) : (handle r token g i).2.1.jobs = g.jobs := by
  cases r with
  | setProperty key value =>
    refine settle_done (P := fun d => d.jobs = g.jobs) rfl fun d hd => ?_
    rw [(eq_of_setProperty hd).2]
  | resetProperty | resetProperties => rfl
  | query | modify | stopJob => cases hr
  | execute op =>
    have hplain : op.isPlain := by
      cases op with
      | quit | insert | createTableAs | beginStatementSet | endStatementSet | statementSet =>
        cases hr
      | _ => rfl
    obtain ⟨catalog, jars, heq⟩ := exists_execute_eq_of_isPlain (g := g) hplain
    change (g.execute op).2.jobs = _
    rw [heq]
  | removeJar path =>
    refine settle_done (P := fun d => d.jobs = g.jobs) rfl fun d hd => ?_
    obtain ⟨jars, rfl⟩ := exists_of_removeJar hd
    rfl

/-! ## Replies -/

theorem job_of_modify {ms : List Modify} {result : TableResult} (h : (g.modify ms).1 = .ok result) :
    result.job ≠ none := by
  obtain ⟨e, catalog, heq⟩ | ⟨catalog, name, heq⟩ := modify_cases g ms
  · cases (congrArg Prod.fst heq).symm.trans h
  · obtain rfl := Except.ok.inj ((congrArg Prod.fst heq).symm.trans h)
    exact Option.some_ne_none _

/-- A definition that is shown is a text. -/
theorem exists_of_showCreate {c : Catalog} {kind : ObjectKind} {name : Text} {result : TableResult}
    (h : showCreate c kind name = .ok result) : ∃ text, result = .text "result" text := by
  unfold showCreate at h
  split at h
  · split at h
    · exact ⟨_, (Except.ok.inj h).symm⟩
    · cases h
  · cases h

/-- Plans and definitions are texts. -/
theorem firstField?_of_execute {op : Operation} {result : TableResult}
    (hop : op.isAnsweredWithText) (h : (g.execute op).1 = .ok result) :
    ∃ v, result.firstField? = some v ∧ v ≠ .null := by
  have htext (column text : Text) :
      ∃ v, (TableResult.text column text).firstField? = some v ∧ v ≠ .null :=
    ⟨.string text, rfl, Value.noConfusion⟩
  have hshown {kind : ObjectKind} {name : Text} (h : showCreate g.catalog kind name = .ok result) :
      ∃ v, result.firstField? = some v ∧ v ≠ .null := by
    obtain ⟨text, rfl⟩ := exists_of_showCreate h
    exact htext _ _
  cases op with
  | explain statement =>
    obtain rfl := Except.ok.inj h
    exact htext _ _
  | showCreateTable name => exact hshown h
  | showCreateView name => exact hshown h
  | _ => cases hop

/-- **The local gateway keeps its word**: modifications that are accepted have a job, plans and
definitions have a text, and a savepoint has a path. -/
theorem fulfils_handle {r : Request} {reply : r.Reply} (h : (handle r token g i).1 = .ok reply) :
    r.Fulfils reply := by
  cases r with
  | setProperty | resetProperty | resetProperties | query | removeJar => trivial
  | modify ms =>
    unfold handle at h
    dsimp only at h
    split at h
    · cases h
    · exact job_of_modify h
  | execute op => exact fun hop => firstField?_of_execute hop h
  | stopJob job savepoint drain =>
    have hanswer : (settle g (g.stopJob job savepoint)).1 = .ok reply := h
    cases hstop : g.stopJob job savepoint with
    | error e =>
      rw [hstop] at hanswer
      cases hanswer
    | ok found =>
      rw [hstop] at hanswer
      obtain rfl := Except.ok.inj hanswer
      exact (exists_of_stopJob hstop).1

end Local

end SqlConsole
