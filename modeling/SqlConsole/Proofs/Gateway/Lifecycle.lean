import SqlConsole.Proofs.Gateway.NewIds
import SqlConsole.Proofs.Text.Parts
/-!
# The life of a job

What is true of the jobs of a gateway follows from the three things that a request can do to them.
Where an id that is drawn is new, nothing happens to a job but that it is stopped once
(`jobsLive_of_new`, `statusChanges_le`).  No savepoint is written over another one, since the path
of a savepoint ends with a number that was not used before (`nodup_savepointPaths`).

`jobs_live_once` puts this together for all that can be asked of a new gateway.
-/

namespace SqlConsole

/-! ## Numbers of savepoints -/

namespace Text

theorem digitChar_ne_dash : ∀ n, n < 16 → n.digitChar ≠ '-' := by decide

theorem dash_not_mem_toDigits (n : Nat) : '-' ∉ Nat.toDigits 16 n := by
  induction n using Nat.strongRecOn with
  | ind n ih =>
    rw [Nat.toDigits_eq_if (by decide)]
    split
    · next hsmall =>
      intro hmem
      exact digitChar_ne_dash n hsmall (List.mem_singleton.1 hmem).symm
    · next hlarge =>
      intro hmem
      rcases List.mem_append.1 hmem with hmem | hmem
      · exact ih (n / 16) (by omega) hmem
      · exact digitChar_ne_dash (n % 16) (Nat.mod_lt n (by decide)) (List.mem_singleton.1 hmem).symm

theorem dash_not_mem_ofNatHex (width n : Nat) : '-' ∉ ofNatHex width n := by
  intro hmem
  rcases List.mem_append.1 hmem with hmem | hmem
  · exact absurd (List.eq_of_mem_replicate hmem) (by decide)
  · exact dash_not_mem_toDigits n hmem

end Text

/-- The paths of savepoints end with their numbers. -/
theorem Local.savepointPath_inj {dir id id' : Text} {m n : Nat}
    (h : savepointPath dir id m = savepointPath dir id' n) : m = n := by
  have hcut (id : Text) (n : Nat) : Text.cutLast? '-' (savepointPath dir id n) =
      some (dir ++ "/savepoint-" ++ id.take 6, Text.ofNatHex 12 n) := by
    rw [← Text.cutLast?_append (Text.dash_not_mem_ofNatHex 12 n)]
    simp [savepointPath]
  have hpair := (hcut id m).symm.trans (h ▸ hcut id' n)
  exact Text.ofNatHex_inj (Prod.mk.inj (Option.some.inj hpair)).2

namespace Local

variable {g d : Local} {call : Call} {calls : List Call}

/-! ## What follows for the jobs -/

/-- What a request does to the jobs of a gateway. -/
structure JobsLive (g : Local) (call : Call) : Prop where
  /-- Accepted modifications submit a job, and nothing else does. -/
  submits_iff : (∃ id, id ∉ g.jobs ∧ id ∈ (g.afterCall call).jobs) ↔
    call.request.modifications? ≠ none ∧ call.Succeeds g
  /-- A submitted job has the id that is answered, and is over at once if it is waited for. -/
  submitted : ∀ id job, id ∉ g.jobs → (g.afterCall call).jobs[id]? = some job →
    call.job? g = some id ∧
      job.status = if Setting.dmlSync.get g.properties then .finished else .running
  /-- A job stays what it is, unless it is running and this request stops it. -/
  kept : ∀ id job, g.jobs[id]? = some job →
    (g.afterCall call).jobs[id]? = some job ∨
      job.status = .running ∧
        (g.afterCall call).jobs[id]? = some { job with status := .stopped } ∧
        call.Succeeds g ∧ ∃ name savepoint drain,
          call.request = .stopJob name savepoint drain ∧ Text.lower name = id
  /-- The job that is to be stopped has to run. -/
  stops_iff : ∀ name savepoint drain, call.request = .stopJob name savepoint drain →
    (call.Succeeds g ↔ g.Runs name)
  /-- That job is stopped, and no other one changes. -/
  stops_only : ∀ name savepoint drain, call.request = .stopJob name savepoint drain →
    call.Succeeds g → ∀ id, (g.afterCall call).jobs[id]? =
      if id = Text.lower name then g.jobs[id]?.map ({ · with status := .stopped })
      else g.jobs[id]?
  /-- A savepoint has a path. -/
  path_iff : ∀ name savepoint drain, call.request = .stopJob name savepoint drain →
    call.Succeeds g → ((call.path? g).isSome ↔ savepoint)
  /-- If the job is not stopped, nothing happens. -/
  fails : ∀ name savepoint drain, call.request = .stopJob name savepoint drain →
    ¬ call.Succeeds g → g.afterCall call = g

theorem Idle.jobsLive (h : Idle g call (g.afterCall call)) : JobsLive g call where
  submits_iff := by
    rw [h.jobs_eq]
    exact ⟨fun ⟨id, hnot, hmem⟩ => absurd hmem hnot,
      fun ⟨hmodifies, hok⟩ => absurd hok (h.fails hmodifies)⟩
  submitted := fun id job hnot hsome =>
    absurd (mem_of_getElem?_eq_some (h.jobs_eq ▸ hsome)) hnot
  kept := fun id job hsome => .inl (h.jobs_eq ▸ hsome)
  stops_iff := fun name savepoint drain hrequest =>
    have hstay := h.stays name savepoint drain hrequest
    ⟨fun hok => absurd hok hstay.1, fun hruns => absurd hruns hstay.2.1⟩
  stops_only := fun name savepoint drain hrequest hok =>
    absurd hok (h.stays name savepoint drain hrequest).1
  path_iff := fun name savepoint drain hrequest hok =>
    absurd hok (h.stays name savepoint drain hrequest).1
  fails := fun name savepoint drain hrequest _ => (h.stays name savepoint drain hrequest).2.2

theorem Submits.jobsLive {name : Text} (h : Submits g call (g.afterCall call) name)
    (hnew : g.ids.next.1 ∉ g.jobs) : JobsLive g call := by
  have hstops {job : Text} {savepoint drain : Bool} :
      call.request ≠ .stopJob job savepoint drain := by
    intro heq
    exact h.modifies (by rw [heq]; rfl)
  exact {
    submits_iff := ⟨fun _ => ⟨h.modifies, h.succeeds⟩, fun _ =>
      ⟨g.ids.next.1, hnew, by rw [h.jobs_eq]; exact Std.TreeMap.mem_insert_self⟩⟩
    submitted := by
      intro id job hnot hsome
      rw [h.jobs_eq, Std.TreeMap.getElem?_insert] at hsome
      split at hsome
      · next heq =>
        obtain rfl := Std.LawfulEqCmp.eq_of_compare heq
        exact ⟨h.job_eq, Option.some.inj hsome ▸ rfl⟩
      · exact absurd (mem_of_getElem?_eq_some hsome) hnot
    kept := by
      intro id job hsome
      refine .inl ?_
      rw [h.jobs_eq, Std.TreeMap.getElem?_insert, if_neg, hsome]
      intro heq
      obtain rfl := Std.LawfulEqCmp.eq_of_compare heq
      exact hnew (mem_of_getElem?_eq_some hsome)
    stops_iff := fun _ _ _ hrequest => absurd hrequest hstops
    stops_only := fun _ _ _ hrequest => absurd hrequest hstops
    path_iff := fun _ _ _ hrequest => absurd hrequest hstops
    fails := fun _ _ _ hrequest => absurd hrequest hstops }

theorem Stops.jobsLive {job : Text} {savepoint drain : Bool} {found : Job}
    (h : Stops g call (g.afterCall call) job savepoint drain found) : JobsLive g call where
  submits_iff := by
    constructor
    · rintro ⟨id, hnot, hmem⟩
      exact absurd (h.mem_of_mem hmem) hnot
    · rintro ⟨hmodifies, -⟩
      exact absurd (by rw [h.request_eq]; rfl) hmodifies
  submitted := fun id other hnot hsome =>
    absurd (h.mem_of_mem (mem_of_getElem?_eq_some hsome)) hnot
  kept := by
    intro id other hsome
    simp only [h.jobs_eq, Std.TreeMap.getElem?_insert, Std.LawfulEqCmp.compare_eq_iff_eq]
    by_cases heq : Text.lower job = id
    · subst heq
      obtain rfl : found = other := Option.some.inj (h.found_eq.symm.trans hsome)
      rw [if_pos rfl]
      exact .inr ⟨h.running, rfl, h.succeeds, job, savepoint, drain, h.request_eq, rfl⟩
    · rw [if_neg heq]
      exact .inl hsome
  stops_iff := by
    intro name _ _ heq
    obtain ⟨rfl, rfl, rfl⟩ := Request.stopJob.inj (h.request_eq.symm.trans heq)
    exact ⟨fun _ => ⟨h.isId, found, h.found_eq, h.running⟩, fun _ => h.succeeds⟩
  stops_only := by
    intro name _ _ heq _ id
    obtain ⟨rfl, rfl, rfl⟩ := Request.stopJob.inj (h.request_eq.symm.trans heq)
    simp only [h.jobs_eq, Std.TreeMap.getElem?_insert, Std.LawfulEqCmp.compare_eq_iff_eq]
    by_cases hsame : id = Text.lower job
    · subst hsame
      rw [if_pos rfl, if_pos rfl, h.found_eq]
      rfl
    · rw [if_neg hsame, if_neg (Ne.symm hsame)]
  path_iff := by
    intro name _ _ heq _
    obtain ⟨rfl, rfl, rfl⟩ := Request.stopJob.inj (h.request_eq.symm.trans heq)
    rw [h.path_eq]
    cases savepoint <;> simp
  fails := fun _ _ _ _ hfails => absurd h.succeeds hfails

/-- **What a request does to the jobs** if an id that it draws is new. -/
theorem jobsLive_of_new
    (hnew : (g.afterCall call).ids.drawn ≠ g.ids.drawn → g.ids.next.1 ∉ g.jobs) :
    JobsLive g call := by
  cases jobStep_afterCall g call with
  | idle h => exact h.jobsLive
  | submits name h =>
    refine h.jobsLive (hnew ?_)
    rw [h.ids_eq, JobIds.drawn_next]
    omega
  | stops job savepoint drain found h => exact h.jobsLive

/-! ## All requests -/

/-- What is true of every request in the state that it meets. -/
def Throughout (P : Local → Call → Prop) (g : Local) (calls : List Call) : Prop :=
  ∀ before call behind, calls = before ++ call :: behind → P (g.afterCalls before) call

theorem throughout_cons {P : Local → Call → Prop} (h : Throughout P g (call :: calls)) :
    P g call ∧ Throughout P (g.afterCall call) calls :=
  ⟨h [] call calls rfl, fun before later behind heq =>
    h (call :: before) later behind (congrArg (call :: ·) heq)⟩

/-- The status of the job with an id, if there is one. -/
def status? (g : Local) (id : Text) : Option JobStatus := g.jobs[id]?.map Job.status

/-- How many requests change the status of a job. -/
def statusChanges (id : Text) : Local → List Call → Nat
  | _, [] => 0
  | g, call :: calls =>
    (if g.status? id ≠ none ∧ (g.afterCall call).status? id ≠ g.status? id then 1 else 0) +
      statusChanges id (g.afterCall call) calls

/-- How many changes are left to a job. -/
def changesLeft : Option JobStatus → Nat
  | none | some .running => 1
  | some .finished | some .stopped => 0

/-- A job that is over does not change, and a job that runs changes once at most. -/
theorem statusChanges_le {id : Text} (h : Throughout JobsLive g calls) :
    statusChanges id g calls ≤ changesLeft (g.status? id) := by
  induction calls generalizing g with
  | nil => exact Nat.zero_le _
  | cons call calls ih =>
    obtain ⟨hlive, hcalls⟩ := throughout_cons h
    have hrest := ih hcalls
    rw [statusChanges]
    cases hjob : g.jobs[id]? with
    | none =>
      have hnone : g.status? id = none := congrArg (Option.map Job.status) hjob
      have hleft : changesLeft ((g.afterCall call).status? id) ≤ 1 := by
        unfold changesLeft
        split <;> omega
      rw [if_neg (fun hchanged => hchanged.1 hnone), hnone, changesLeft]
      omega
    | some job =>
      have hsome : g.status? id = some job.status := congrArg (Option.map Job.status) hjob
      rcases hlive.kept id job hjob with hkept | ⟨hrunning, hstopped, -⟩
      · have hsame : (g.afterCall call).status? id = g.status? id :=
          (congrArg (Option.map Job.status) hkept).trans hsome.symm
        rw [if_neg (fun hchanged => hchanged.2 hsame), ← hsame]
        omega
      · have hover : (g.afterCall call).status? id = some .stopped :=
          congrArg (Option.map Job.status) hstopped
        rw [hover, changesLeft] at hrest
        rw [hsome, hrunning, changesLeft]
        split <;> omega

/-! ## Savepoints -/

/-- The paths of the savepoints that are taken one after the other. -/
def savepointPaths : Local → List Call → List Text
  | _, [] => []
  | g, call :: calls => (call.path? g).toList ++ savepointPaths (g.afterCall call) calls

/-- A path has the next number, and the directory stays the same. -/
theorem path?_cases (g : Local) (call : Call) :
    (g.afterCall call).savepointDir = g.savepointDir ∧
      (call.path? g = none ∧ (g.afterCall call).savepoints = g.savepoints ∨
        ∃ id, call.path? g = some (savepointPath g.savepointDir id (g.savepoints + 1)) ∧
          (g.afterCall call).savepoints = g.savepoints + 1) := by
  cases jobStep_afterCall g call with
  | idle h =>
    exact ⟨congrArg JobBook.savepointDir h.book_eq,
      .inl ⟨h.path_eq, congrArg JobBook.savepoints h.book_eq⟩⟩
  | submits name h =>
    exact ⟨congrArg JobBook.savepointDir h.book_eq,
      .inl ⟨h.path_eq, congrArg JobBook.savepoints h.book_eq⟩⟩
  | stops job savepoint drain found h =>
    refine ⟨congrArg JobBook.savepointDir h.book_eq, ?_⟩
    cases savepoint with
    | false => exact .inl ⟨h.path_eq, congrArg JobBook.savepoints h.book_eq⟩
    | true => exact .inr ⟨Text.lower job, h.path_eq, congrArg JobBook.savepoints h.book_eq⟩

/-- Savepoints have numbers that were not used before. -/
theorem exists_of_mem_savepointPaths {path : Text} (h : path ∈ savepointPaths g calls) :
    ∃ id count, g.savepoints < count ∧ path = savepointPath g.savepointDir id count := by
  induction calls generalizing g with
  | nil => cases h
  | cons call calls ih =>
    obtain ⟨hdir, ⟨hpath, hcount⟩ | ⟨id, hpath, hcount⟩⟩ := path?_cases g call
    · rw [savepointPaths, hpath] at h
      rw [← hdir, ← hcount]
      exact ih h
    · rw [savepointPaths, hpath] at h
      rcases List.mem_cons.1 h with rfl | hrest
      · exact ⟨id, g.savepoints + 1, Nat.lt_succ_self _, rfl⟩
      · obtain ⟨later, count, hlt, rfl⟩ := ih hrest
        exact ⟨later, count, by omega, by rw [hdir]⟩

/-- **No savepoint is written over another one.** -/
theorem nodup_savepointPaths (g : Local) (calls : List Call) : (savepointPaths g calls).Nodup := by
  induction calls generalizing g with
  | nil => exact List.nodup_nil
  | cons call calls ih =>
    obtain ⟨hdir, ⟨hpath, -⟩ | ⟨id, hpath, hcount⟩⟩ := path?_cases g call
    · rw [savepointPaths, hpath]
      exact ih _
    · rw [savepointPaths, hpath]
      refine List.nodup_cons.2 ⟨fun hmem => ?_, ih _⟩
      obtain ⟨later, count, hlt, heq⟩ := exists_of_mem_savepointPaths hmem
      rw [hdir] at heq
      have hnumber := savepointPath_inj heq
      omega

theorem length_savepointPaths (g : Local) (calls : List Call) :
    (g.afterCalls calls).savepoints = g.savepoints + (savepointPaths g calls).length := by
  induction calls generalizing g with
  | nil => rfl
  | cons call calls ih =>
    obtain ⟨-, ⟨hpath, hcount⟩ | ⟨id, hpath, hcount⟩⟩ := path?_cases g call
    · rw [savepointPaths, hpath, ← hcount]
      exact ih _
    · rw [savepointPaths, hpath]
      refine (ih _).trans ?_
      rw [hcount, List.length_append, Option.toList_some, List.length_singleton]
      omega

/-! ## Whole runs -/

/-- Every id that is drawn is new if no two ids among those that are drawn are the same. -/
theorem jobsLive_throughout (defaults : Properties) (savepointDir : Text) {ids : JobIds}
    (calls : List Call)
    (hids : ids.Distinct
      (((ofDefaults defaults savepointDir ids).afterCalls calls).ids.drawn - ids.drawn)) :
    Throughout JobsLive (ofDefaults defaults savepointDir ids) calls := by
  rintro before call behind rfl
  obtain ⟨count, -, hbefore⟩ :=
    exists_drawnFrom_afterCalls (drawnFrom_ofDefaults defaults savepointDir ids) before
  refine jobsLive_of_new fun hdrawn => hbefore.next_not_mem (hids.mono ?_)
  obtain ⟨middle, hmiddle, hcall⟩ := exists_drawnFrom_afterCall hbefore call
  obtain ⟨last, hlast, hbehind⟩ := exists_drawnFrom_afterCalls hcall behind
  have hall : (ofDefaults defaults savepointDir ids).afterCalls (before ++ call :: behind) =
      (((ofDefaults defaults savepointDir ids).afterCalls before).afterCall call).afterCalls
        behind := by
    unfold afterCalls
    rw [List.foldl_append, List.foldl_cons]
  rw [hcall.drawn_eq, hbefore.drawn_eq] at hdrawn
  rw [hall, hbehind.drawn_eq]
  omega

/-- **The life of a job.**  Whatever is asked of a new gateway, as long as no id is drawn twice,
each request treats the jobs as `JobsLive` says: jobs come from accepted modifications, and go from
running to stopped if at all, by a request that stops them.  The status of a job changes once at
most, and no savepoint has the path of another one, since savepoints are counted. -/
theorem jobs_live_once (defaults : Properties) (savepointDir : Text) {ids : JobIds}
    (calls : List Call)
    (hids : ids.Distinct
      (((ofDefaults defaults savepointDir ids).afterCalls calls).ids.drawn - ids.drawn)) :
    let g := ofDefaults defaults savepointDir ids
    Throughout JobsLive g calls ∧ (∀ id, statusChanges id g calls ≤ 1) ∧
      (savepointPaths g calls).Nodup ∧
      (g.afterCalls calls).savepoints = (savepointPaths g calls).length := by
  intro g
  have hlive : Throughout JobsLive g calls := jobsLive_throughout defaults savepointDir calls hids
  refine ⟨hlive, fun id => ?_, nodup_savepointPaths g calls, ?_⟩
  · have hnone : g.status? id = none :=
      congrArg (Option.map Job.status) Std.TreeMap.getElem?_emptyc
    have hle : statusChanges id g calls ≤ changesLeft (g.status? id) := statusChanges_le hlive
    rwa [hnone] at hle
  · have hlength := length_savepointPaths g calls
    rwa [show g.savepoints = 0 from rfl, Nat.zero_add] at hlength

/-- Two jobs that run and one that is waited for; two of them are stopped, one in capital letters,
and two requests come too late. -/
def threeJobs : List Request :=
  let insert : Modify := ⟨.insertInto, "sink", "INSERT INTO sink SELECT 1"⟩
  [.execute (.create ⟨.table, "sink", false, "CREATE TABLE sink (a INT)"⟩),
    .modify [insert], .execute (.insert insert),
    .setProperty Setting.dmlSync.key "true", .modify [insert],
    .stopJob (List.replicate 32 'A') true false, .stopJob (List.replicate 32 'b') true true,
    .stopJob (List.replicate 32 'a') true false, .stopJob (List.replicate 32 'c') false false]

/-- A new gateway that draws the ids of these jobs. -/
def drawsThree : Local :=
  ofDefaults ∅ defaultSavepointDir { given := ['a', 'b', 'c'].map (List.replicate 32) }

theorem jobs_live_once_threeJobs :
    drawsThree.ids.Distinct
        ((drawsThree.afterCalls (quietly threeJobs)).ids.drawn - drawsThree.ids.drawn) ∧
      Throughout JobsLive drawsThree (quietly threeJobs) ∧
      (∀ id, statusChanges id drawsThree (quietly threeJobs) ≤ 1) ∧
      (savepointPaths drawsThree (quietly threeJobs)).Nodup ∧
      (savepointPaths drawsThree (quietly threeJobs)).length = 2 := by
  have hdrawn :
      (drawsThree.afterCalls (quietly threeJobs)).ids.drawn - drawsThree.ids.drawn = 3 := by
    decide +kernel
  have hids : drawsThree.ids.Distinct
      ((drawsThree.afterCalls (quietly threeJobs)).ids.drawn - drawsThree.ids.drawn) := by
    rw [hdrawn]
    unfold JobIds.Distinct
    decide +kernel
  have hcount : (drawsThree.afterCalls (quietly threeJobs)).savepoints = 2 := by decide +kernel
  obtain ⟨hlive, hchanges, hpaths, hlength⟩ :=
    jobs_live_once ∅ defaultSavepointDir (quietly threeJobs) hids
  exact ⟨hids, hlive, hchanges, hpaths, hlength.symm.trans hcount⟩

end Local

end SqlConsole
