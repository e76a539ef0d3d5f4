import SqlConsole.Proofs.Gateway.JobSteps
/-!
# New ids

An id that is drawn is new as long as the source of ids has not repeated itself.  Only the ids that
are drawn matter for that: `DrawnFrom` counts them, and the next one is the id of no job if it
differs from those before it (`DrawnFrom.next_not_mem`).

Where ids never repeat, whatever is still to be drawn stays new behind all requests
(`drawsNewIds_afterCalls`).
-/

namespace SqlConsole

/-! ## Ids that are drawn -/

namespace JobIds

/-- The source of ids behind some draws. -/
def behind (ids : JobIds) : Nat → JobIds
  | 0 => ids
  | n + 1 => ids.next.2.behind n

/-- The first ids that are drawn are pairwise different. -/
def Distinct (ids : JobIds) (count : Nat) : Prop :=
  ∀ m < count, ∀ n < count, ids.stream m = ids.stream n → m = n

variable {ids : JobIds}

theorem Distinct.mono {m n : Nat} (h : ids.Distinct n) (hle : m ≤ n) : ids.Distinct m :=
  fun i hi j hj => h i (Nat.lt_of_lt_of_le hi hle) j (Nat.lt_of_lt_of_le hj hle)

theorem next_behind (ids : JobIds) (n : Nat) :
    (ids.behind n).next = (ids.stream n, ids.behind (n + 1)) := by
  induction n generalizing ids with
  | zero => rfl
  | succ n ih => exact ih ids.next.2

theorem drawn_next (ids : JobIds) : ids.next.2.drawn = ids.drawn + 1 := by
  unfold next
  split <;> rfl

theorem drawn_behind (ids : JobIds) (n : Nat) : (ids.behind n).drawn = ids.drawn + n := by
  induction n generalizing ids with
  | zero => rfl
  | succ n ih =>
    rw [behind, ih, drawn_next]
    omega

end JobIds

namespace Local

variable {g d : Local} {ids : JobIds} {count : Nat}

/-! ## Ids that never repeat -/

/-- Whatever is still to be drawn is the id of no job, and no id is drawn twice. -/
structure DrawsNewIds (g : Local) : Prop where
  neverRepeats : g.ids.NeverRepeats
  unused : ∀ n, g.ids.stream n ∉ g.jobs

theorem drawsNewIds_ofDefaults (defaults : Properties) (savepointDir : Text)
    (h : ids.NeverRepeats) : DrawsNewIds (ofDefaults defaults savepointDir ids) where
  neverRepeats := h
  unused := fun n => by
    show ids.stream n ∉ (∅ : Std.TreeMap Text Job)
    exact Std.TreeMap.not_mem_emptyc

/-- What neither draws an id nor adds a job keeps ids new. -/
theorem DrawsNewIds.of_same (h : DrawsNewIds g) (hids : d.ids = g.ids)
    (hjobs : ∀ id, id ∈ d.jobs → id ∈ g.jobs) : DrawsNewIds d where
  neverRepeats := hids ▸ h.neverRepeats
  unused := fun n hmem => h.unused n (hids ▸ hjobs _ hmem)

/-- No request makes ids come back: a submitted job takes the next id, and the ids behind it are
different. -/
theorem drawsNewIds_afterCall (h : DrawsNewIds g) (call : Call) :
    DrawsNewIds (g.afterCall call) := by
  cases jobStep_afterCall g call with
  | idle hidle => exact h.of_same hidle.ids_eq fun id hmem => hidle.jobs_eq ▸ hmem
  | submits name hsubmits =>
    refine ⟨hsubmits.ids_eq ▸ h.neverRepeats.next, fun n hmem => ?_⟩
    rw [hsubmits.jobs_eq, hsubmits.ids_eq] at hmem
    rcases Std.TreeMap.mem_insert.1 hmem with heq | hold
    · have hzero : 0 = n + 1 := h.neverRepeats 0 (n + 1) (Std.LawfulEqCmp.eq_of_compare heq)
      omega
    · exact h.unused (n + 1) hold
  | stops job savepoint drain found hstops =>
    exact h.of_same hstops.ids_eq fun id => hstops.mem_of_mem

theorem drawsNewIds_afterCalls (h : DrawsNewIds g) (calls : List Call) :
    DrawsNewIds (g.afterCalls calls) := by
  induction calls generalizing g with
  | nil => exact h
  | cons call calls ih => exact ih (drawsNewIds_afterCall h call)

/-! ## Ids that were drawn -/

/-- All jobs have ids from a source, of which some were drawn. -/
structure DrawnFrom (ids : JobIds) (count : Nat) (g : Local) : Prop where
  behind : g.ids = ids.behind count
  drawn : ∀ id ∈ g.jobs, ∃ m < count, ids.stream m = id

theorem exists_drawnFrom_afterCall (h : DrawnFrom ids count g) (call : Call) :
    ∃ later, count ≤ later ∧ DrawnFrom ids later (g.afterCall call) := by
  cases jobStep_afterCall g call with
  | idle hidle =>
    exact ⟨count, Nat.le_refl _, hidle.ids_eq.trans h.behind, hidle.jobs_eq ▸ h.drawn⟩
  | submits name hsubmits =>
    have hjobs := hsubmits.jobs_eq
    have hids := hsubmits.ids_eq
    rw [h.behind, JobIds.next_behind] at hjobs hids
    refine ⟨count + 1, Nat.le_succ _, hids, fun id hmem => ?_⟩
    rw [hjobs] at hmem
    rcases Std.TreeMap.mem_insert.1 hmem with heq | hold
    · exact ⟨count, Nat.lt_succ_self _, Std.LawfulEqCmp.eq_of_compare heq⟩
    · obtain ⟨m, hm, rfl⟩ := h.drawn id hold
      exact ⟨m, by omega, rfl⟩
  | stops job savepoint drain found hstops =>
    exact ⟨count, Nat.le_refl _, hstops.ids_eq.trans h.behind,
      fun id hmem => h.drawn id (hstops.mem_of_mem hmem)⟩

theorem exists_drawnFrom_afterCalls (h : DrawnFrom ids count g) (calls : List Call) :
    ∃ later, count ≤ later ∧ DrawnFrom ids later (g.afterCalls calls) := by
  induction calls generalizing g count with
  | nil => exact ⟨count, Nat.le_refl _, h⟩
  | cons call calls ih =>
    obtain ⟨middle, hmiddle, hcall⟩ := exists_drawnFrom_afterCall h call
    obtain ⟨later, hlater, hcalls⟩ := ih hcall
    exact ⟨later, by omega, hcalls⟩

theorem drawnFrom_ofDefaults (defaults : Properties) (savepointDir : Text) (ids : JobIds) :
    DrawnFrom ids 0 (ofDefaults defaults savepointDir ids) where
  behind := rfl
  drawn := fun _ hmem => absurd hmem Std.TreeMap.not_mem_emptyc

theorem DrawnFrom.drawn_eq (h : DrawnFrom ids count g) : g.ids.drawn = ids.drawn + count := by
  rw [h.behind, JobIds.drawn_behind]

/-- An id that is different from those before it is the id of no job. -/
theorem DrawnFrom.next_not_mem (h : DrawnFrom ids count g) (hids : ids.Distinct (count + 1)) :
    g.ids.next.1 ∉ g.jobs := by
  intro hmem
  obtain ⟨m, hm, heq⟩ := h.drawn _ hmem
  rw [h.behind, JobIds.next_behind] at heq
  have hsame : m = count := hids m (by omega) count (by omega) heq
  omega

end Local

end SqlConsole
