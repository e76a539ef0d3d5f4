import SqlConsole.Proofs.Gateway.Jobs
import SqlConsole.Proofs.Gateway.Replies
/-!
# One request and the jobs

A request leaves the jobs of a gateway alone, submits one of them or stops one of them
(`jobStep_afterCall`).  Each of the three says what the request is answered with and what becomes of
all that the gateway keeps of its jobs, and whatever is proved of jobs is proved from these three.
-/

namespace SqlConsole

/-! ## Requests that are about jobs -/

namespace Request

/-- The modifications that a request asks for. -/
def modifications? : Request → Option (List Modify)
  | modify ms | execute (.statementSet ms) => some ms
  | execute (.insert m) | execute (.createTableAs m) => some [m]
  | _ => none

/-- The id of the submitted job that a reply tells of. -/
def job? : (r : Request) → r.Reply → Option Text
  | modify _, (result : TableResult) => result.job
  | execute _, (result : TableResult) => result.job
  | _, _ => none

/-- The path of the savepoint that a reply tells of. -/
def path? : (r : Request) → r.Reply → Option Text
  | stopJob _ _ _, (path : Option Text) => path
  | _, _ => none

end Request

/-- What a gateway keeps of its jobs. -/
structure JobBook where
  jobs : Std.TreeMap Text Job
  ids : JobIds
  savepointDir : Text
  savepoints : Nat

namespace Local

variable {g d : Local} {call : Call} {calls : List Call}

def book (g : Local) : JobBook := ⟨g.jobs, g.ids, g.savepointDir, g.savepoints⟩

namespace Call

/-- The answer to a request. -/
def answer (g : Local) (call : Call) : Except GatewayError call.request.Reply :=
  (handle call.request call.token g call.interrupts).1

def Succeeds (g : Local) (call : Call) : Prop := ∃ reply, call.answer g = .ok reply

/-- The id that is answered to modifications. -/
def job? (g : Local) (call : Call) : Option Text :=
  (call.answer g).toOption.bind call.request.job?

/-- The path that is answered to a request to stop a job. -/
def path? (g : Local) (call : Call) : Option Text :=
  (call.answer g).toOption.bind call.request.path?

end Call

/-! ## Steps -/

/-- A request that leaves the jobs alone. -/
structure Idle (g : Local) (call : Call) (d : Local) : Prop where
  fails : call.request.modifications? ≠ none → ¬ call.Succeeds g
  stays : ∀ job savepoint drain, call.request = .stopJob job savepoint drain →
    ¬ call.Succeeds g ∧ ¬ g.Runs job ∧ d = g
  job_eq : call.job? g = none
  path_eq : call.path? g = none
  book_eq : d.book = g.book

/-- A request that submits a job under the next id. -/
structure Submits (g : Local) (call : Call) (d : Local) (name : Text) : Prop where
  modifies : call.request.modifications? ≠ none
  succeeds : call.Succeeds g
  job_eq : call.job? g = some g.ids.next.1
  path_eq : call.path? g = none
  book_eq : d.book = { g.book with
    jobs := g.jobs.insert g.ids.next.1
      ⟨name, if Setting.dmlSync.get g.properties then .finished else .running⟩
    ids := g.ids.next.2 }

/-- A request that stops a running job, which is given with an id in any letter case. -/
structure Stops (g : Local) (call : Call) (d : Local) (job : Text) (savepoint drain : Bool)
    (found : Job) : Prop where
  request_eq : call.request = .stopJob job savepoint drain
  succeeds : call.Succeeds g
  isId : isJobId job
  found_eq : g.jobs[Text.lower job]? = some found
  running : found.status = .running
  job_eq : call.job? g = none
  path_eq : call.path? g = if savepoint then
    some (savepointPath g.savepointDir (Text.lower job) (g.savepoints + 1)) else none
  book_eq : d.book = { g.book with
    jobs := g.jobs.insert (Text.lower job) { found with status := .stopped }
    savepoints := g.savepoints + if savepoint then 1 else 0 }

/-- What a request does to the jobs: nothing, or it submits one of them, or it stops one. -/
inductive JobStep (g : Local) (call : Call) (d : Local) : Prop where
  | idle (h : Idle g call d)
  | submits (name : Text) (h : Submits g call d name)
  | stops (job : Text) (savepoint drain : Bool) (found : Job)
      (h : Stops g call d job savepoint drain found)

theorem Idle.jobs_eq (h : Idle g call d) : d.jobs = g.jobs := congrArg JobBook.jobs h.book_eq

theorem Idle.ids_eq (h : Idle g call d) : d.ids = g.ids := congrArg JobBook.ids h.book_eq

section

variable {name : Text} (h : Submits g call d name)
include h

theorem Submits.jobs_eq : d.jobs = g.jobs.insert g.ids.next.1
    ⟨name, if Setting.dmlSync.get g.properties then .finished else .running⟩ :=
  congrArg JobBook.jobs h.book_eq

theorem Submits.ids_eq : d.ids = g.ids.next.2 := congrArg JobBook.ids h.book_eq

end

section

variable {job : Text} {savepoint drain : Bool} {found : Job}
  (h : Stops g call d job savepoint drain found)
include h

theorem Stops.jobs_eq : d.jobs = g.jobs.insert (Text.lower job) { found with status := .stopped } :=
  congrArg JobBook.jobs h.book_eq

theorem Stops.ids_eq : d.ids = g.ids := congrArg JobBook.ids h.book_eq

/-- A stopped job is still there. -/
theorem Stops.mem_of_mem {id : Text} (hmem : id ∈ d.jobs) : id ∈ g.jobs := by
  rw [h.jobs_eq] at hmem
  rcases Std.TreeMap.mem_insert.1 hmem with heq | hold
  · obtain rfl := Std.LawfulEqCmp.eq_of_compare heq
    exact mem_of_getElem?_eq_some h.found_eq
  · exact hold

end

/-! ## Answers -/

/-- A statement that modifies nothing is answered without a job. -/
theorem job_of_execute_of_isPlain {op : Operation} (hop : op.isPlain) {result : TableResult}
    (h : (g.execute op).1 = .ok result) : result.job = none := by
  have hsettled {made : Except GatewayError Catalog}
      (h : (settleCatalog g made).1 = .ok result) : result.job = none := by
    cases made with
    | ok catalog => exact Except.ok.inj h ▸ rfl
    | error e => cases h
  have hshown {kind : ObjectKind} {name : Text} (h : showCreate g.catalog kind name = .ok result) :
      result.job = none := by
    obtain ⟨text, rfl⟩ := exists_of_showCreate h
    rfl
  cases op with
  | quit | insert | createTableAs | beginStatementSet | endStatementSet | statementSet => cases hop
  | create | drop | use | loadModule | unloadModule => exact hsettled h
  | alter definition =>
    have h : (alter g.catalog definition).map (fun _ => TableResult.ok) = .ok result := h
    cases halter : alter g.catalog definition with
    | ok u =>
      rw [halter] at h
      exact Except.ok.inj h ▸ rfl
    | error e =>
      rw [halter] at h
      cases h
  | showCreateTable | showCreateView => exact hshown h
  | addJar | explain => exact Except.ok.inj h ▸ rfl
  | other statement =>
    have h : g.answerWords statement = .ok result := h
    unfold answerWords at h
    dsimp only at h
    split at h
    · next listing _ =>
      obtain rfl := Except.ok.inj h
      cases listing <;> rfl
    split at h
    · unfold describe at h
      dsimp only at h
      split at h
      · exact Except.ok.inj h ▸ rfl
      · cases h
    · exact Except.ok.inj h ▸ rfl
  | _ => cases h

theorem job?_eq_none (h : ∀ reply, call.answer g = .ok reply → call.request.job? reply = none) :
    call.job? g = none := by
  unfold Call.job?
  cases hanswer : call.answer g with
  | ok reply => exact h reply hanswer
  | error e => rfl

theorem path?_eq_none (h : ∀ reply, call.request.path? reply = none) : call.path? g = none := by
  unfold Call.path?
  cases call.answer g with
  | ok reply => exact h reply
  | error e => rfl

/-! ## Every request -/

/-- A request that has nothing to do with jobs. -/
theorem jobStep_of_other (hmodifies : call.request.modifications? = none)
    (hstops : ∀ job savepoint drain, call.request ≠ .stopJob job savepoint drain)
    (hjob : ∀ reply, call.answer g = .ok reply → call.request.job? reply = none)
    (hpath : ∀ reply, call.request.path? reply = none) (hbook : d.book = g.book) :
    JobStep g call d :=
  .idle {
    fails := fun hsome => absurd hmodifies hsome
    stays := fun job savepoint drain heq => absurd heq (hstops job savepoint drain)
    job_eq := job?_eq_none hjob
    path_eq := path?_eq_none hpath
    book_eq := hbook }

/-- Modifications that are answered. -/
theorem jobStep_of_modify (ms : List Modify) (hmodifies : call.request.modifications? ≠ none)
    (hstops : ∀ job savepoint drain, call.request ≠ .stopJob job savepoint drain)
    (hsucceeds : call.Succeeds g ↔ ∃ result, (g.modify ms).1 = .ok result)
    (hjob : call.job? g = (g.modify ms).1.toOption.bind TableResult.job)
    (hpath : ∀ reply, call.request.path? reply = none) : JobStep g call (g.modify ms).2 := by
  obtain ⟨e, catalog, heq⟩ | ⟨catalog, name, heq⟩ := modify_cases g ms
  · rw [heq] at hsucceeds hjob ⊢
    refine .idle ⟨fun _ hok => ?_, fun job savepoint drain heq => absurd heq (hstops _ _ _), hjob,
      path?_eq_none hpath, rfl⟩
    obtain ⟨result, hresult⟩ := hsucceeds.1 hok
    cases hresult
  · rw [heq] at hsucceeds hjob ⊢
    exact .submits name ⟨hmodifies, hsucceeds.2 ⟨_, rfl⟩, hjob, path?_eq_none hpath, rfl⟩

/-- **One request and the jobs.** -/
theorem jobStep_afterCall (g : Local) (call : Call) : JobStep g call (g.afterCall call) := by
  obtain ⟨request, token, i⟩ := call
  cases request with
  | setProperty key value =>
    refine jobStep_of_other rfl (by simp) (fun _ _ => rfl) (fun _ => rfl) ?_
    refine settle_done (P := fun d => d.book = g.book) rfl fun d hd => ?_
    rw [(eq_of_setProperty hd).2]
    rfl
  | resetProperty | resetProperties =>
    exact jobStep_of_other rfl (by simp) (fun _ _ => rfl) (fun _ => rfl) rfl
  | query statement =>
    refine jobStep_of_other rfl (by simp) (fun _ _ => rfl) (fun _ => rfl) ?_
    unfold afterCall handle
    dsimp only
    split
    · rfl
    · refine settle_snd (P := fun d => d.book = g.book) rfl fun descriptor d hd => ?_
      rw [(eq_of_query hd).2]
      rfl
  | modify ms =>
    have hmodifies : (Request.modify ms).modifications? ≠ none := Option.some_ne_none ms
    by_cases hcancelled : i.isCancelled token
    · have hhandle : handle (.modify ms) token g i = (.error .cancelled, g, i) := if_pos hcancelled
      have hanswer : Call.answer g ⟨.modify ms, token, i⟩ = .error .cancelled :=
        congrArg Prod.fst hhandle
      refine .idle ⟨fun _ hok => ?_, by simp, job?_eq_none fun reply h => ?_,
        path?_eq_none fun _ => rfl, ?_⟩
      · obtain ⟨reply, hreply⟩ := hok
        cases hanswer.symm.trans hreply
      · cases hanswer.symm.trans h
      · exact congrArg (fun answered => answered.2.1.book) hhandle
    · have hhandle : handle (.modify ms) token g i = ((g.modify ms).1, (g.modify ms).2, i) :=
        if_neg hcancelled
      have hanswer : Call.answer g ⟨.modify ms, token, i⟩ = (g.modify ms).1 :=
        congrArg Prod.fst hhandle
      have hafter : g.afterCall ⟨.modify ms, token, i⟩ = (g.modify ms).2 :=
        congrArg (fun answered => answered.2.1) hhandle
      rw [hafter]
      refine jobStep_of_modify ms hmodifies (by simp) ?_ ?_ fun _ => rfl
      · unfold Call.Succeeds
        rw [hanswer]
        rfl
      · unfold Call.job?
        rw [hanswer]
        rfl
  | execute op =>
    by_cases hop : op.isPlain
    · refine jobStep_of_other ?_ (by simp) (fun reply h => job_of_execute_of_isPlain hop h)
        (fun _ => rfl) ?_
      · cases op with
        | insert | createTableAs | statementSet => cases hop
        | _ => rfl
      · obtain ⟨catalog, jars, heq⟩ := exists_execute_eq_of_isPlain (g := g) hop
        change (g.execute op).2.book = g.book
        rw [heq]
        rfl
    · cases op with
      | insert m | createTableAs m =>
        exact jobStep_of_modify [m] (by simp [Request.modifications?]) (by simp) Iff.rfl rfl
          fun _ => rfl
      | statementSet ms =>
        exact jobStep_of_modify ms (by simp [Request.modifications?]) (by simp) Iff.rfl rfl
          fun _ => rfl
      | quit | beginStatementSet | endStatementSet =>
        exact jobStep_of_other rfl (by simp) (fun reply h => by cases h) (fun _ => rfl) rfl
      | _ => exact (hop rfl).elim
  | removeJar path =>
    refine jobStep_of_other rfl (by simp) (fun _ _ => rfl) (fun _ => rfl) ?_
    refine settle_done (P := fun d => d.book = g.book) rfl fun d hd => ?_
    obtain ⟨jars, rfl⟩ := exists_of_removeJar hd
    rfl
  | stopJob job savepoint drain =>
    have hanswer : Call.answer g ⟨.stopJob job savepoint drain, token, i⟩ =
      (settle g (g.stopJob job savepoint)).1 := rfl
    have hafter : g.afterCall ⟨.stopJob job savepoint drain, token, i⟩ =
      (settle g (g.stopJob job savepoint)).2 := rfl
    obtain ⟨⟨e, herror⟩, hnot⟩ | ⟨hid, found, hfound, hrunning, hok⟩ :=
      stopJob_cases g job savepoint
    · rw [herror] at hanswer hafter
      have hstay : g.afterCall ⟨.stopJob job savepoint drain, token, i⟩ = g := hafter
      rw [hstay]
      refine .idle ⟨fun hsome => absurd rfl hsome, ?_, job?_eq_none fun _ _ => rfl, ?_, rfl⟩
      · rintro _ _ _ ⟨⟩
        refine ⟨fun hsucceeds => ?_, hnot, rfl⟩
        obtain ⟨reply, hreply⟩ := hsucceeds
        cases hanswer.symm.trans hreply
      · exact congrArg (fun answer => answer.toOption.bind id) hanswer
    · rw [hok] at hanswer hafter
      exact .stops job savepoint drain found {
        request_eq := rfl
        succeeds := ⟨_, hanswer⟩
        isId := hid
        found_eq := hfound
        running := hrunning
        job_eq := job?_eq_none fun _ _ => rfl
        path_eq := congrArg (fun answer => answer.toOption.bind id) hanswer
        book_eq := congrArg book hafter }

end Local

end SqlConsole
