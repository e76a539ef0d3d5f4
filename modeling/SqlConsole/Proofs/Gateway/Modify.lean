import SqlConsole.Proofs.Catalog.Namespace
import SqlConsole.Proofs.Gateway.NewIds
/-!
# Batches are submitted as a whole or not at all, with one exception

A batch of modifications is checked before the first table is created, so a batch that fails a
check changes nothing.  But each modification is checked against the catalog as it is before the
batch.  Two modifications that create one table pass together, and so does one whose database is
missing; the batch then fails when some of its tables are created already, and these stay.

`Torn` describes these batches.  A request to submit a batch either does nothing or all of it unless
the batch is torn (`allOrNothing_iff_not_torn`); `repeated_target_is_left_behind` is such a batch.
-/

namespace SqlConsole

/-- The modifications that create their tables. -/
def creations (ms : List Modify) : List Modify := ms.filter (·.kind = .createTableAs)

namespace Catalog

variable {c d : Catalog} {m : Modify} {ms : List Modify}

/-! ## One table -/

/-- A catalog with the table that a modification creates. -/
def withTable (c : Catalog) (m : Modify) : Catalog :=
  { c with objects := c.objects.insert (c.qualify m.target) ⟨.table, m.statement⟩ }

/-- A table can be created: its database is there, and its name is free. -/
structure HasRoomFor (c : Catalog) (m : Modify) : Prop where
  database : c.databaseOf m.target ∈ c.databases
  free : c.qualify m.target ∉ c.objects

theorem createObject_of_hasRoomFor (h : HasRoomFor c m) :
    c.createObject .table m.target m.statement false = .ok (true, c.withTable m) := by
  rw [createObject_eq, if_neg (not_not_intro h.database), if_neg h.free]
  rfl

theorem createObject_of_not_hasRoomFor (h : ¬ HasRoomFor c m) :
    ∃ e, c.createObject .table m.target m.statement false = .error e := by
  rw [createObject_eq]
  by_cases hdatabase : c.databaseOf m.target ∈ c.databases
  · rw [if_neg (not_not_intro hdatabase)]
    by_cases hfree : c.qualify m.target ∈ c.objects
    · rw [if_pos hfree]
      exact ⟨_, rfl⟩
    · exact (h ⟨hdatabase, hfree⟩).elim
  · rw [if_pos hdatabase]
    exact ⟨_, rfl⟩

theorem mem_objects_withTable {name : Text} :
    name ∈ (c.withTable m).objects ↔ c.qualify m.target = name ∨ name ∈ c.objects := by
  rw [withTable, Std.TreeMap.mem_insert, Std.LawfulEqCmp.compare_eq_iff_eq]

/-! ## More and more tables -/

/-- A catalog with the same current names and with more objects. -/
structure Extends (c d : Catalog) : Prop where
  currentCatalog : d.currentCatalog = c.currentCatalog
  currentDatabase : d.currentDatabase = c.currentDatabase
  objects : ∀ (name : Text) (object : CatalogObject),
    c.objects[name]? = some object → d.objects[name]? = some object

theorem Extends.refl (c : Catalog) : Extends c c := ⟨rfl, rfl, fun _ _ => id⟩

theorem Extends.trans {e : Catalog} (hcd : Extends c d) (hde : Extends d e) : Extends c e where
  currentCatalog := hde.currentCatalog.trans hcd.currentCatalog
  currentDatabase := hde.currentDatabase.trans hcd.currentDatabase
  objects := fun name object hobject => hde.objects name object (hcd.objects name object hobject)

theorem Extends.qualify (h : Extends c d) (name : Text) : d.qualify name = c.qualify name := by
  unfold Catalog.qualify
  rw [h.currentCatalog, h.currentDatabase]

/-- What a name stands for stays. -/
theorem Extends.get? (h : Extends c d) {name : Text} {object : CatalogObject}
    (hobject : c.get? name = some object) : d.get? name = some object := by
  unfold Catalog.get? at hobject ⊢
  rw [h.qualify]
  exact h.objects _ _ hobject

theorem extends_withTable (h : HasRoomFor c m) : Extends c (c.withTable m) := by
  refine ⟨rfl, rfl, fun name object hobject => ?_⟩
  have hmem : name ∈ c.objects := Std.TreeMap.mem_iff_isSome_getElem?.2 (hobject ▸ rfl)
  have hother : ¬ compare (c.qualify m.target) name = .eq := by
    intro heq
    exact h.free (Std.LawfulEqCmp.eq_of_compare heq ▸ hmem)
  show (c.objects.insert _ _)[name]? = _
  rw [Std.TreeMap.getElem?_insert, if_neg hother]
  exact hobject

theorem get?_withTable (c : Catalog) (m : Modify) :
    (c.withTable m).get? m.target = some ⟨.table, m.statement⟩ := by
  show (c.objects.insert (c.qualify m.target) _)[c.qualify m.target]? = _
  exact Std.TreeMap.getElem?_insert_self

/-! ## All tables of a batch -/

/-- All of some tables can be created: their databases are there, their names are free, and no two
of them have the same full name. -/
structure HasRoomForAll (c : Catalog) (ms : List Modify) : Prop where
  each : ∀ m ∈ ms, HasRoomFor c m
  apart : ms.Pairwise fun m n => c.qualify m.target ≠ c.qualify n.target

/-- The names that differ from the first one are those that are free behind it. -/
theorem hasRoomForAll_cons :
    HasRoomForAll c (m :: ms) ↔ HasRoomFor c m ∧ HasRoomForAll (c.withTable m) ms := by
  constructor
  · rintro ⟨heach, hapart⟩
    obtain ⟨hfirst, hrest⟩ := List.pairwise_cons.1 hapart
    refine ⟨heach m List.mem_cons_self, fun n hn => ⟨?_, ?_⟩, hrest⟩
    · exact (heach n (List.mem_cons_of_mem m hn)).database
    · intro hmem
      rcases mem_objects_withTable.1 hmem with heq | hmem
      · exact hfirst n hn heq
      · exact (heach n (List.mem_cons_of_mem m hn)).free hmem
  · rintro ⟨hroom, heach, hapart⟩
    refine ⟨fun n hn => ?_, List.pairwise_cons.2 ⟨fun n hn heq => ?_, hapart⟩⟩
    · rcases List.mem_cons.1 hn with rfl | hn
      · exact hroom
      · refine ⟨(heach n hn).database, fun hmem => ?_⟩
        exact (heach n hn).free (mem_objects_withTable.2 (.inr hmem))
    · exact (heach n hn).free (mem_objects_withTable.2 (.inl heq))

end Catalog

namespace Local

open Catalog

variable {c : Catalog} {m : Modify} {ms : List Modify}

/-! ## Creating the tables of a batch -/

theorem createTargets_cons_of_ne (h : m.kind ≠ .createTableAs) (c : Catalog) (ms : List Modify) :
    createTargets c (m :: ms) = createTargets c ms := by
  rw [createTargets, if_neg h]

theorem createTargets_cons_of_hasRoomFor (h : m.kind = .createTableAs) (hroom : HasRoomFor c m)
    (ms : List Modify) : createTargets c (m :: ms) = createTargets (c.withTable m) ms := by
  rw [createTargets, if_pos h, createObject_of_hasRoomFor hroom]

theorem createTargets_cons_of_not_hasRoomFor (h : m.kind = .createTableAs)
    (hroom : ¬ HasRoomFor c m) : ∃ e, ∀ ms, createTargets c (m :: ms) = (.error e, c) := by
  obtain ⟨e, he⟩ := createObject_of_not_hasRoomFor hroom
  refine ⟨e, fun ms => ?_⟩
  rw [createTargets, if_pos h, he]

/-- Only the modifications that create their tables matter. -/
theorem createTargets_creations (c : Catalog) (ms : List Modify) :
    createTargets c (creations ms) = createTargets c ms := by
  induction ms generalizing c with
  | nil => rfl
  | cons m ms ih =>
    by_cases hkind : m.kind = .createTableAs
    · have hcons : creations (m :: ms) = m :: creations ms :=
        List.filter_cons_of_pos (by simpa using hkind)
      rw [hcons]
      by_cases hroom : HasRoomFor c m
      · rw [createTargets_cons_of_hasRoomFor hkind hroom,
          createTargets_cons_of_hasRoomFor hkind hroom]
        exact ih (c.withTable m)
      · obtain ⟨e, he⟩ := createTargets_cons_of_not_hasRoomFor hkind hroom
        rw [he, he]
    · have hcons : creations (m :: ms) = creations ms :=
        List.filter_cons_of_neg (by simpa using hkind)
      rw [hcons, createTargets_cons_of_ne hkind]
      exact ih c

/-- Whether they succeed or not, tables are only added. -/
theorem extends_createTargets (c : Catalog) (ms : List Modify) :
    Extends c (createTargets c ms).2 := by
  induction ms generalizing c with
  | nil => exact .refl c
  | cons m ms ih =>
    by_cases hkind : m.kind = .createTableAs
    · by_cases hroom : HasRoomFor c m
      · rw [createTargets_cons_of_hasRoomFor hkind hroom]
        exact (extends_withTable hroom).trans (ih (c.withTable m))
      · obtain ⟨e, he⟩ := createTargets_cons_of_not_hasRoomFor hkind hroom
        rw [he]
        exact .refl c
    · rw [createTargets_cons_of_ne hkind]
      exact ih c

/-- A batch whose tables can all be created creates them all. -/
theorem createTargets_of_hasRoomForAll (hkinds : ∀ m ∈ ms, m.kind = .createTableAs)
    (h : HasRoomForAll c ms) :
    (createTargets c ms).1 = .ok () ∧
      ∀ m ∈ ms, (createTargets c ms).2.get? m.target = some ⟨.table, m.statement⟩ := by
  induction ms generalizing c with
  | nil => exact ⟨rfl, fun m hm => (List.not_mem_nil hm).elim⟩
  | cons m ms ih =>
    obtain ⟨hroom, hrest⟩ := hasRoomForAll_cons.1 h
    have hkind : m.kind = .createTableAs := hkinds m List.mem_cons_self
    obtain ⟨hok, htables⟩ := ih (fun n hn => hkinds n (List.mem_cons_of_mem m hn)) hrest
    rw [createTargets_cons_of_hasRoomFor hkind hroom]
    refine ⟨hok, fun n hn => ?_⟩
    rcases List.mem_cons.1 hn with rfl | hn
    · exact (extends_createTargets (c.withTable n) ms).get? (get?_withTable c n)
    · exact htables n hn

/-- A batch with a table that cannot be created fails. -/
theorem createTargets_of_not_hasRoomForAll (hkinds : ∀ m ∈ ms, m.kind = .createTableAs)
    (h : ¬ HasRoomForAll c ms) : ∃ e, (createTargets c ms).1 = .error e := by
  induction ms generalizing c with
  | nil => exact (h ⟨fun m hm => (List.not_mem_nil hm).elim, .nil⟩).elim
  | cons m ms ih =>
    have hkind : m.kind = .createTableAs := hkinds m List.mem_cons_self
    by_cases hroom : HasRoomFor c m
    · rw [createTargets_cons_of_hasRoomFor hkind hroom]
      refine ih (fun n hn => hkinds n (List.mem_cons_of_mem m hn)) fun hrest => ?_
      exact h (hasRoomForAll_cons.2 ⟨hroom, hrest⟩)
    · obtain ⟨e, he⟩ := createTargets_cons_of_not_hasRoomFor hkind hroom
      exact ⟨e, congrArg Prod.fst (he ms)⟩

/-! ## Checks -/

/-- A table that is created as it is written passes if its name is free. -/
theorem checkTarget_eq_ok_iff (h : m.kind = .createTableAs) :
    checkTarget c m = .ok () ↔ c.qualify m.target ∉ c.objects := by
  unfold checkTarget
  rw [h, Std.TreeMap.mem_iff_isSome_getElem?]
  dsimp only
  unfold Catalog.get?
  cases c.objects[c.qualify m.target]? with
  | none => simp
  | some object => simp

/-- A batch passes if each of its modifications does. -/
theorem forM_checkTarget (c : Catalog) (ms : List Modify) :
    (∀ m ∈ ms, checkTarget c m = .ok ()) ∧ ms.forM (checkTarget c) = .ok () ∨
      (¬ ∀ m ∈ ms, checkTarget c m = .ok ()) ∧ ∃ e, ms.forM (checkTarget c) = .error e := by
  induction ms with
  | nil => exact .inl ⟨fun m hm => (List.not_mem_nil hm).elim, rfl⟩
  | cons m ms ih =>
    have hcons : (m :: ms).forM (checkTarget c) =
        (checkTarget c m).bind fun _ => ms.forM (checkTarget c) := rfl
    rw [List.forall_mem_cons, hcons]
    cases hm : checkTarget c m with
    | error e => exact .inr ⟨fun hall => (nomatch hall.1), e, rfl⟩
    | ok _ =>
      show _ ∧ ms.forM (checkTarget c) = _ ∨ _ ∧ ∃ e, ms.forM (checkTarget c) = _
      rcases ih with ⟨hall, hok⟩ | ⟨hnot, e, he⟩
      · exact .inl ⟨⟨rfl, hall⟩, hok⟩
      · exact .inr ⟨fun hall => hnot hall.2, e, he⟩

/-! ## Whole batches -/

/-- What may come of a batch: nothing at all, or all of it under a new job. -/
inductive AllOrNothing (g : Local) (ms : List Modify) :
    Except GatewayError TableResult → Local → Prop where
  | nothing {e : GatewayError} {d : Local} (catalog : d.catalog = g.catalog)
      (jobs : d.jobs = g.jobs) (properties : d.properties = g.properties)
      (jars : d.jars = g.jars) : AllOrNothing g ms (.error e) d
  | all {id : Text} {job : Job} {d : Local} (isNew : id ∉ g.jobs)
      (jobs : d.jobs = g.jobs.insert id job)
      (tables : ∀ m ∈ creations ms, d.catalog.get? m.target = some ⟨.table, m.statement⟩) :
      AllOrNothing g ms (.ok (.submitted id)) d

/-- A batch that passes every check and fails behind its first table: that one can be created, but
the database of another one is missing, or two of them have the same full name. -/
structure Torn (c : Catalog) (ms : List Modify) : Prop where
  checked : ∀ m ∈ ms, checkTarget c m = .ok ()
  begun : ∃ m ∈ (creations ms).head?, c.databaseOf m.target ∈ c.databases
  broken : (∃ m ∈ creations ms, c.databaseOf m.target ∉ c.databases) ∨
    ¬ (creations ms).Pairwise fun m n => c.qualify m.target ≠ c.qualify n.target

theorem kind_of_mem_creations (hm : m ∈ creations ms) : m.kind = .createTableAs := by
  simpa using (List.mem_filter.1 hm).2

theorem free_of_mem_creations (hchecked : ∀ m ∈ ms, checkTarget c m = .ok ())
    (hm : m ∈ creations ms) : c.qualify m.target ∉ c.objects :=
  (checkTarget_eq_ok_iff (kind_of_mem_creations hm)).1 (hchecked m (List.mem_filter.1 hm).1)

/-- Behind the checks only databases and equal names can be in the way. -/
theorem hasRoomForAll_iff_of_checked (hchecked : ∀ m ∈ ms, checkTarget c m = .ok ()) :
    HasRoomForAll c (creations ms) ↔
      (∀ m ∈ creations ms, c.databaseOf m.target ∈ c.databases) ∧
        (creations ms).Pairwise fun m n => c.qualify m.target ≠ c.qualify n.target := by
  constructor
  · rintro ⟨heach, hapart⟩
    exact ⟨fun m hm => (heach m hm).database, hapart⟩
  · rintro ⟨hdatabases, hapart⟩
    exact ⟨fun m hm => ⟨hdatabases m hm, free_of_mem_creations hchecked hm⟩, hapart⟩

variable {g : Local}

/-- A batch that does not pass is left alone. -/
theorem modify_of_not_checked (h : ms = [] ∨ ∃ e, ms.forM (checkTarget g.catalog) = .error e) :
    ∃ e, g.modify ms = (.error e, g) := by
  rcases h with rfl | ⟨e, he⟩
  · exact ⟨_, rfl⟩
  · unfold modify
    split
    · exact ⟨_, rfl⟩
    · rw [he]
      exact ⟨e, rfl⟩

theorem modify_of_created (hne : ms ≠ []) (hchecked : ms.forM (checkTarget g.catalog) = .ok ())
    (h : (createTargets g.catalog ms).1 = .ok ()) :
    g.modify ms = (.ok (.submitted g.ids.next.1),
      (submit { g with catalog := (createTargets g.catalog ms).2 }
        (jobName (createTargets g.catalog ms).2 ms)).2) := by
  have hempty : ¬ ms.isEmpty = true := by simpa using hne
  rw [modify, if_neg hempty, hchecked]
  generalize createTargets g.catalog ms = made at h
  obtain ⟨_, catalog⟩ := made
  obtain rfl : _ = Except.ok () := h
  rfl

theorem modify_of_not_created {e : GatewayError} (hne : ms ≠ [])
    (hchecked : ms.forM (checkTarget g.catalog) = .ok ())
    (h : (createTargets g.catalog ms).1 = .error e) :
    g.modify ms = (.error e, { g with catalog := (createTargets g.catalog ms).2 }) := by
  have hempty : ¬ ms.isEmpty = true := by simpa using hne
  rw [modify, if_neg hempty, hchecked]
  generalize createTargets g.catalog ms = made at h
  obtain ⟨_, catalog⟩ := made
  obtain rfl : _ = Except.error e := h
  rfl

/-- Tables whose checks have passed are created or not, as there is room for all of them. -/
theorem createTargets_creations_iff (c : Catalog) (ms : List Modify) :
    HasRoomForAll c (creations ms) ∧ (createTargets c ms).1 = .ok () ∧
        (∀ m ∈ creations ms, (createTargets c ms).2.get? m.target = some ⟨.table, m.statement⟩) ∨
      ¬ HasRoomForAll c (creations ms) ∧ ∃ e, (createTargets c ms).1 = .error e := by
  have hkinds : ∀ m ∈ creations ms, m.kind = .createTableAs := fun m => kind_of_mem_creations
  rw [← createTargets_creations]
  by_cases hroom : HasRoomForAll c (creations ms)
  · exact .inl ⟨hroom, createTargets_of_hasRoomForAll hkinds hroom⟩
  · exact .inr ⟨hroom, createTargets_of_not_hasRoomForAll hkinds hroom⟩

/-- What the first table of a batch leaves behind, whatever comes of the others. -/
theorem createTargets_of_head? (hhead : (creations ms).head? = some m) :
    HasRoomFor c m ∧ (createTargets c ms).2.get? m.target = some ⟨.table, m.statement⟩ ∨
      ¬ HasRoomFor c m ∧ (createTargets c ms).2 = c := by
  obtain ⟨rest, hcreations⟩ := List.head?_eq_some_iff.1 hhead
  have hkind : m.kind = .createTableAs := kind_of_mem_creations (List.mem_of_mem_head? hhead)
  rw [← createTargets_creations, hcreations]
  by_cases hroom : HasRoomFor c m
  · rw [createTargets_cons_of_hasRoomFor hkind hroom]
    exact .inl ⟨hroom, (extends_createTargets _ rest).get? (get?_withTable c m)⟩
  · obtain ⟨e, he⟩ := createTargets_cons_of_not_hasRoomFor hkind hroom
    rw [he]
    exact .inr ⟨hroom, rfl⟩

/-- A torn batch leaves its first table behind. -/
theorem not_allOrNothing_of_torn (h : Torn g.catalog ms) :
    ¬ AllOrNothing g ms (g.modify ms).1 (g.modify ms).2 := by
  obtain ⟨hchecked, ⟨m, hhead, hdatabase⟩, hbroken⟩ := h
  have hm : m ∈ creations ms := List.mem_of_mem_head? hhead
  have hne : ms ≠ [] := List.ne_nil_of_mem (List.mem_filter.1 hm).1
  have hroom : HasRoomFor g.catalog m := ⟨hdatabase, free_of_mem_creations hchecked hm⟩
  have hall : ¬ HasRoomForAll g.catalog (creations ms) := by
    rw [hasRoomForAll_iff_of_checked hchecked]
    rintro ⟨hdatabases, hapart⟩
    rcases hbroken with ⟨n, hn, hmissing⟩ | hequal
    · exact hmissing (hdatabases n hn)
    · exact hequal hapart
  rcases forM_checkTarget g.catalog ms with ⟨-, hok⟩ | ⟨hnot, -⟩
  case inr => exact (hnot hchecked).elim
  rcases createTargets_creations_iff g.catalog ms with ⟨hroom, -⟩ | ⟨-, e, he⟩
  case inl => exact (hall hroom).elim
  rcases createTargets_of_head? (c := g.catalog) hhead with ⟨-, hstays⟩ | ⟨hnoRoom, -⟩
  case inr => exact (hnoRoom hroom).elim
  rw [modify_of_not_created hne hok he]
  rintro ⟨hcatalog, -, -, -⟩
  have hcatalog : (createTargets g.catalog ms).2 = g.catalog := hcatalog
  rw [hcatalog] at hstays
  have hmem : g.catalog.qualify m.target ∈ g.catalog.objects :=
    Std.TreeMap.mem_iff_isSome_getElem?.2 (Option.isSome_of_eq_some hstays)
  exact hroom.free hmem

/-- A batch that is not torn is submitted as a whole or not at all. -/
theorem allOrNothing_of_not_torn (hids : DrawsNewIds g) (h : ¬ Torn g.catalog ms) :
    AllOrNothing g ms (g.modify ms).1 (g.modify ms).2 := by
  have hnothing : (∃ e, g.modify ms = (.error e, g)) →
      AllOrNothing g ms (g.modify ms).1 (g.modify ms).2 := by
    rintro ⟨e, he⟩
    rw [he]
    exact .nothing rfl rfl rfl rfl
  by_cases hne : ms = []
  · exact hnothing (modify_of_not_checked (.inl hne))
  rcases forM_checkTarget g.catalog ms with ⟨hchecked, hok⟩ | ⟨-, hfails⟩
  case inr => exact hnothing (modify_of_not_checked (.inr hfails))
  rcases createTargets_creations_iff g.catalog ms with ⟨-, hcreated, htables⟩ | ⟨hroom, e, he⟩
  · rw [modify_of_created hne hok hcreated]
    exact .all (hids.unused 0) rfl htables
  · -- Some table has no room, and as the batch is not torn that is the first one.
    refine hnothing ⟨e, ?_⟩
    rw [modify_of_not_created hne hok he]
    cases hhead : (creations ms).head? with
    | none =>
      have hnil : creations ms = [] := List.head?_eq_none_iff.1 hhead
      rw [hnil] at hroom
      exact (hroom ⟨fun m hm => (List.not_mem_nil hm).elim, .nil⟩).elim
    | some m =>
      rcases createTargets_of_head? (c := g.catalog) hhead with ⟨hfirst, -⟩ | ⟨-, hsame⟩
      · refine (h ⟨hchecked, ⟨m, hhead, hfirst.database⟩, ?_⟩).elim
        rw [hasRoomForAll_iff_of_checked hchecked] at hroom
        by_cases hdatabases :
            ∀ m ∈ creations ms, g.catalog.databaseOf m.target ∈ g.catalog.databases
        · exact .inr fun hapart => hroom ⟨hdatabases, hapart⟩
        · exact .inl (by simpa using hdatabases)
      · rw [hsame]

/-- **A batch is submitted as a whole or not at all, unless it is torn.**  In every state that
requests lead to, if the ids of jobs never repeat, a request to submit a batch that is not cancelled
does all of it or nothing exactly if the batch is not torn. -/
theorem allOrNothing_iff_not_torn (defaults : Properties) (savepointDir : Text) {ids : JobIds}
    (hids : ids.NeverRepeats) (calls : List Call) (ms : List Modify) (token : CancelToken)
    (i : Interrupts) :
    let g := (ofDefaults defaults savepointDir ids).afterCalls calls
    AllOrNothing g ms (handle (.modify ms) token g i).1 (handle (.modify ms) token g i).2.1 ↔
      i.isCancelled token = true ∨ ¬ Torn g.catalog ms := by
  intro g
  have hnew : DrawsNewIds g :=
    drawsNewIds_afterCalls (drawsNewIds_ofDefaults defaults savepointDir hids) calls
  have hhandle : handle (.modify ms) token g i =
      if i.isCancelled token then (.error .cancelled, g, i)
      else ((g.modify ms).1, (g.modify ms).2, i) := rfl
  rw [hhandle]
  cases i.isCancelled token with
  | true =>
    refine ⟨fun _ => .inl rfl, fun _ => ?_⟩
    exact .nothing rfl rfl rfl rfl
  | false =>
    constructor
    · intro hwhole
      exact .inr fun htorn => not_allOrNothing_of_torn htorn hwhole
    · rintro (hcancelled | hwhole)
      · cases hcancelled
      · exact allOrNothing_of_not_torn hnew hwhole

/-- Two tables that are created as they are written, and nothing in their way. -/
def twoTables : List Modify :=
  [⟨.createTableAs, "a", "CREATE TABLE a AS SELECT 1"⟩,
    ⟨.createTableAs, "b", "CREATE TABLE b AS SELECT 2"⟩]

theorem allOrNothing_twoTables :
    JobIds.NeverRepeats {} ∧
      AllOrNothing (ofDefaults ∅ defaultSavepointDir {}) twoTables
        (handle (.modify twoTables) 0 (ofDefaults ∅ defaultSavepointDir {}) {}).1
        (handle (.modify twoTables) 0 (ofDefaults ∅ defaultSavepointDir {}) {}).2.1 := by
  have hids : JobIds.NeverRepeats {} := JobIds.neverRepeats_counted 0
  refine ⟨hids, ?_⟩
  refine (allOrNothing_iff_not_torn ∅ defaultSavepointDir hids [] twoTables 0 {}).2 (.inr ?_)
  rintro ⟨-, -, hbroken⟩
  revert hbroken
  decide +kernel

/-- The same table twice. -/
def repeatedTarget : List Modify :=
  [⟨.createTableAs, "a", "CREATE TABLE a AS SELECT 1"⟩,
    ⟨.createTableAs, "a", "CREATE TABLE a AS SELECT 2"⟩]

/-- The batch that creates a table twice is refused, and leaves the table behind. -/
theorem repeated_target_is_left_behind :
    ¬ AllOrNothing (ofDefaults ∅ defaultSavepointDir {}) repeatedTarget
        (handle (.modify repeatedTarget) 0 (ofDefaults ∅ defaultSavepointDir {}) {}).1
        (handle (.modify repeatedTarget) 0 (ofDefaults ∅ defaultSavepointDir {}) {}).2.1 ∧
      (handle (.modify repeatedTarget) 0 (ofDefaults ∅ defaultSavepointDir {}) {}).2.1.catalog.get?
        "a" = some ⟨.table, "CREATE TABLE a AS SELECT 1"⟩ := by
  have hchecked : ∀ m ∈ repeatedTarget,
      checkTarget (ofDefaults ∅ defaultSavepointDir {}).catalog m = .ok () := by
    intro m hm
    have hkind : m.kind = .createTableAs := by
      revert m
      decide
    refine (checkTarget_eq_ok_iff hkind).2 ?_
    exact Std.TreeMap.not_mem_emptyc
  constructor
  · refine not_allOrNothing_of_torn ⟨hchecked, ⟨_, rfl, ?_⟩, .inr ?_⟩
    · decide +kernel
    · decide +kernel
  · decide +kernel

end Local

end SqlConsole
