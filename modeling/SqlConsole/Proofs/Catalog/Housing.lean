import SqlConsole.Proofs.Catalog.Modules
import SqlConsole.Proofs.Catalog.Namespace
/-!
# Where names live

An object lives in the database that its full name ends a part behind (`homeOf?`), and a database
below a catalog.  `Housed` says that each of them is registered, and that modules differ in their
names.  Names are flat and may hold points of their own, so a name can lie below several others; what
carries the invariant is that dropping takes away everything below a name, whoever it lives with.

* `housed_afterActions`: whatever is done, with any names, everything stays housed.
* `storedBy_of_getElem?`: what is stored behind some actions was there before or was stored by one
  of them.
* `dropped_objects_stay_away`: **behind a drop, an object of a dropped database is found only where
  it was stored anew**, also when the database is registered again.
-/

namespace SqlConsole.Catalog

/-! ## Actions -/

/-- What can be done to a catalog. -/
inductive Action where
  | change (ch : Change)
  | loadModule (name : Text)
  | unloadModule (name : Text)
  | useModules (names : List Text)
  deriving DecidableEq, Repr

/-- The catalog that an action makes, if it does not fail. -/
def act (c : Catalog) : Action → Except GatewayError Catalog
  | .change ch => c.change ch
  | .loadModule name => c.loadModule name
  | .unloadModule name => c.unloadModule name
  | .useModules names => c.useModules names

/-- The catalog behind an action.  One that fails changes nothing. -/
def afterAction (c : Catalog) (a : Action) : Catalog :=
  match c.act a with
  | .ok c => c
  | .error _ => c

/-- The catalog behind actions that are done one after the other, whatever comes of them. -/
def afterActions (c : Catalog) (actions : List Action) : Catalog := actions.foldl afterAction c

variable {c d : Catalog}

/-- What a catalog has, and what every action that is done leaves it with, it has behind an
action. -/
theorem afterAction_induction {P : Catalog → Prop} (h : P c) (a : Action)
    (hact : ∀ d, c.act a = .ok d → P d) : P (c.afterAction a) := by
  unfold afterAction
  cases hd : c.act a with
  | ok d => exact hact d hd
  | error e => exact h

/-! ## Names below each other -/

/-- The database that an object with a full name lives in: what stands before the last point. -/
def homeOf? (full : Text) : Option Text := (Text.cutLast? '.' full).map (·.1)

theorem below_iff {parent name : Text} :
    below parent name = true ↔ ∃ rest, name = parent ++ '.' :: rest := by
  rw [below, List.isPrefixOf_iff_prefix]
  constructor
  · rintro ⟨rest, rfl⟩
    exact ⟨rest, by simp⟩
  · rintro ⟨rest, rfl⟩
    exact ⟨rest, by simp⟩

theorem below_trans {first second third : Text} (h : below first second = true)
    (h' : below second third = true) : below first third = true := by
  obtain ⟨rest, rfl⟩ := below_iff.1 h
  obtain ⟨rest', rfl⟩ := below_iff.1 h'
  exact below_iff.2 ⟨rest ++ '.' :: rest', by simp⟩

theorem below_of_homeOf? {full database : Text} (h : homeOf? full = some database) :
    below database full = true := by
  obtain ⟨⟨home, name⟩, hcut, rfl⟩ := Option.map_eq_some_iff.1 h
  exact below_iff.2 ⟨name, (Text.cutLast?_eq_some_iff.1 hcut).1⟩

/-- A database lies below the catalog that its full name begins with. -/
theorem below_takeWhile_qualifyDatabase (c : Catalog) (name : Text) :
    below ((c.qualifyDatabase name).takeWhile (· != '.')) (c.qualifyDatabase name) = true := by
  obtain ⟨catalog, database, hcut⟩ := exists_cutFirst?_qualifyDatabase c name
  obtain ⟨hname, hpoint⟩ := Text.cutFirst?_eq_some_iff.1 hcut
  rw [hname, Text.takeWhile_append_separator hpoint]
  exact below_iff.2 ⟨database, rfl⟩

/-! ## Housed catalogs -/

/-- Every object lives in a registered database and every database below a registered catalog, and
no two modules have the same name. -/
structure Housed (c : Catalog) : Prop where
  objects : ∀ full ∈ c.objects, ∃ database ∈ c.databases, homeOf? full = some database
  databases : ∀ database ∈ c.databases, ∃ catalog ∈ c.catalogs, below catalog database = true
  modules : DistinctModules c

theorem housed_empty : Housed empty where
  objects := by
    intro full hmem
    exact (Std.TreeMap.not_mem_emptyc hmem).elim
  databases := by
    intro database hmem
    refine ⟨defaultCatalog, by decide +kernel, ?_⟩
    rcases Std.TreeSet.mem_insert.1 hmem with heq | hmem
    · obtain rfl := Std.LawfulEqCmp.eq_of_compare heq
      decide +kernel
    · exact (Std.TreeSet.not_mem_emptyc hmem).elim
  modules := distinctModules_empty

/-! ## What is taken away below a name -/

/-- What is left when everything below a name is taken away. -/
theorem getElem?_filter_below (objects : Std.TreeMap Text CatalogObject) (parent full : Text) :
    (objects.filter fun n _ => !below parent n)[full]? =
      if below parent full then none else objects[full]? := by
  rw [Std.TreeMap.getElem?_filter']
  cases objects[full]? with
  | none => simp
  | some o => cases below parent full <;> simp

variable {objects : Std.TreeMap Text CatalogObject} {parent full : Text} {o : CatalogObject}

theorem getElem?_of_filter_below (h : (objects.filter fun n _ => !below parent n)[full]? = some o) :
    below parent full = false ∧ objects[full]? = some o := by
  rwa [getElem?_filter_below, Option.ite_none_left_eq_some, Bool.not_eq_true] at h

theorem mem_filter_below (h : full ∈ objects.filter fun n _ => !below parent n) :
    full ∈ objects ∧ below parent full = false := by
  obtain ⟨o, ho⟩ := Option.isSome_iff_exists.1 (Std.TreeMap.mem_iff_isSome_getElem?.1 h)
  obtain ⟨habove, hfound⟩ := getElem?_of_filter_below ho
  refine ⟨Std.TreeMap.mem_iff_isSome_getElem?.2 ?_, habove⟩
  rw [hfound]
  rfl

/-! ## One change -/

/-- An object is stored where its database is registered. -/
theorem Housed.createObject (h : Housed c) {kind : ObjectKind} {name ddl : Text}
    {ifNotExists isNew : Bool} (hd : c.createObject kind name ddl ifNotExists = .ok (isNew, d)) :
    Housed d := by
  obtain rfl | ⟨-, hhome, -, rfl⟩ := eq_of_createObject hd
  · exact h
  refine ⟨?_, h.databases, h.modules⟩
  intro full hfull
  rcases Std.TreeMap.mem_insert.1 hfull with heq | hfull
  · obtain rfl := Std.LawfulEqCmp.eq_of_compare heq
    change ((homeOf? (c.qualify name)).getD []) ∈ c.databases at hhome
    cases hcut : homeOf? (c.qualify name) with
    | some database =>
      rw [hcut] at hhome
      exact ⟨database, hhome, rfl⟩
    | none =>
      -- A name without a point would live in the database without a name, which lies below nothing.
      rw [hcut] at hhome
      obtain ⟨catalog, -, hbelow⟩ := h.databases _ hhome
      obtain ⟨rest, hrest⟩ := below_iff.1 hbelow
      simp at hrest
  · exact h.objects full hfull

/-- With a database go all objects that live in it. -/
theorem Housed.dropDatabase (h : Housed c) {name : Text} {ifExists : Bool}
    (hd : c.dropDatabase name ifExists = .ok d) : Housed d := by
  obtain ⟨rfl, -⟩ | ⟨-, rfl⟩ := eq_of_dropDatabase hd
  · exact h
  refine ⟨?_, ?_, h.modules⟩
  · intro full hfull
    obtain ⟨hfull, habove⟩ := mem_filter_below hfull
    obtain ⟨database, hmem, hhome⟩ := h.objects full hfull
    refine ⟨database, Std.TreeSet.mem_erase.2 ⟨fun heq => ?_, hmem⟩, hhome⟩
    obtain rfl := Std.LawfulEqCmp.eq_of_compare heq
    rw [below_of_homeOf? hhome] at habove
    cases habove
  · intro database hdatabase
    exact h.databases database (Std.TreeSet.mem_erase.1 hdatabase).2

/-- With a catalog go all databases below it, and with them the objects that live in those. -/
theorem Housed.dropCatalog (h : Housed c) {name : Text} {ifExists : Bool}
    (hd : c.dropCatalog name ifExists = .ok d) : Housed d := by
  obtain ⟨rfl, -⟩ | ⟨-, rfl⟩ := eq_of_dropCatalog hd
  · exact h
  refine ⟨?_, ?_, h.modules⟩
  · intro full hfull
    obtain ⟨hfull, habove⟩ := mem_filter_below hfull
    obtain ⟨database, hmem, hhome⟩ := h.objects full hfull
    refine ⟨database, mem_filter_iff.2 ⟨hmem, ?_⟩, hhome⟩
    cases hbelow : below (catalogName name) database with
    | false => rfl
    | true =>
      rw [below_trans hbelow (below_of_homeOf? hhome)] at habove
      cases habove
  · intro database hdatabase
    obtain ⟨hmem, habove⟩ := mem_filter_iff.1 hdatabase
    obtain ⟨catalog, hcatalog, hbelow⟩ := h.databases database hmem
    refine ⟨catalog, Std.TreeSet.mem_erase.2 ⟨fun heq => ?_, hcatalog⟩, hbelow⟩
    obtain rfl := Std.LawfulEqCmp.eq_of_compare heq
    rw [hbelow] at habove
    cases habove

/-- A change leaves everything housed. -/
theorem Housed.change (h : Housed c) {ch : Change} (hd : c.change ch = .ok d) : Housed d := by
  cases ch with
  | createObject kind name ddl ifNotExists =>
    obtain ⟨isNew, hcreate⟩ := createObject_of_change hd
    exact h.createObject hcreate
  | dropObject kind name ifExists =>
    obtain rfl | rfl := eq_of_dropObject hd
    · exact h
    · exact ⟨fun full hfull => h.objects full (Std.TreeMap.mem_erase.1 hfull).2, h.databases,
        h.modules⟩
  | createDatabase name ifNotExists =>
    obtain rfl | ⟨hcatalog, rfl⟩ := eq_of_createDatabase hd
    · exact h
    refine ⟨?_, ?_, h.modules⟩
    · intro full hfull
      obtain ⟨database, hmem, hhome⟩ := h.objects full hfull
      exact ⟨database, Std.TreeSet.mem_insert.2 (.inr hmem), hhome⟩
    · intro database hdatabase
      rcases Std.TreeSet.mem_insert.1 hdatabase with heq | hmem
      · obtain rfl := Std.LawfulEqCmp.eq_of_compare heq
        exact ⟨_, hcatalog, below_takeWhile_qualifyDatabase c name⟩
      · exact h.databases database hmem
  | dropDatabase name ifExists => exact h.dropDatabase hd
  | useDatabase name =>
    obtain ⟨catalog, database, -, -, -, rfl⟩ := eq_of_useDatabase hd
    exact ⟨h.objects, h.databases, h.modules⟩
  | createCatalog name ifNotExists =>
    obtain rfl | rfl := eq_of_createCatalog hd
    · exact h
    refine ⟨?_, ?_, h.modules⟩
    · intro full hfull
      obtain ⟨database, hmem, hhome⟩ := h.objects full hfull
      exact ⟨database, Std.TreeSet.mem_insert.2 (.inr hmem), hhome⟩
    · intro database hdatabase
      rcases Std.TreeSet.mem_insert.1 hdatabase with heq | hmem
      · obtain rfl := Std.LawfulEqCmp.eq_of_compare heq
        refine ⟨catalogName name, Std.TreeSet.mem_insert_self, ?_⟩
        exact below_iff.2 ⟨defaultDatabase, dotted_pair _ _⟩
      · obtain ⟨catalog, hcatalog, hbelow⟩ := h.databases database hmem
        exact ⟨catalog, Std.TreeSet.mem_insert.2 (.inr hcatalog), hbelow⟩
  | dropCatalog name ifExists => exact h.dropCatalog hd
  | useCatalog name =>
    obtain ⟨-, rfl⟩ := eq_of_useCatalog hd
    exact ⟨h.objects, h.databases, h.modules⟩

/-- Modules are none of the names. -/
theorem exists_modules_eq {a : Action} (ha : ∀ ch, a ≠ .change ch) (hd : c.act a = .ok d) :
    ∃ modules, d = { c with modules } := by
  cases a with
  | change ch => exact (ha ch rfl).elim
  | loadModule name =>
    change c.loadModule name = .ok d at hd
    unfold Catalog.loadModule at hd
    split at hd
    · cases hd
    · exact ⟨_, (Except.ok.inj hd).symm⟩
  | unloadModule name =>
    change c.unloadModule name = .ok d at hd
    unfold Catalog.unloadModule at hd
    split at hd
    · exact ⟨_, (Except.ok.inj hd).symm⟩
    · cases hd
  | useModules names =>
    change c.useModules names = .ok d at hd
    unfold Catalog.useModules at hd
    split at hd
    · cases hd
    · exact ⟨_, (Except.ok.inj hd).symm⟩

theorem Housed.act (h : Housed c) {a : Action} (hd : c.act a = .ok d) : Housed d := by
  by_cases ha : ∃ ch, a = .change ch
  · obtain ⟨ch, rfl⟩ := ha
    exact h.change hd
  have hmodules : DistinctModules d := by
    cases a with
    | change ch => exact (ha ⟨ch, rfl⟩).elim
    | loadModule name => exact distinctModules_loadModule h.modules hd
    | unloadModule name => exact distinctModules_unloadModule h.modules hd
    | useModules names => exact distinctModules_useModules h.modules hd
  obtain ⟨modules, rfl⟩ := exists_modules_eq (fun ch heq => ha ⟨ch, heq⟩) hd
  exact ⟨h.objects, h.databases, hmodules⟩

/-- **Everything stays housed, whatever is done and by whichever names.** -/
theorem housed_afterActions (h : Housed c) (actions : List Action) :
    Housed (c.afterActions actions) := by
  induction actions generalizing c with
  | nil => exact h
  | cons a actions ih =>
    apply ih
    exact afterAction_induction h a fun d hd => h.act hd

/-! ## What was stored -/

/-- One of some actions stored an object under a full name that was free. -/
def StoredBy (c : Catalog) (actions : List Action) (full : Text) (o : CatalogObject) : Prop :=
  ∃ before kind name ddl ifNotExists behind stored,
    actions = before ++ .change (.createObject kind name ddl ifNotExists) :: behind ∧
      (c.afterActions before).createObject kind name ddl ifNotExists = .ok (true, stored) ∧
      (c.afterActions before).qualify name = full ∧ o = ⟨kind, ddl⟩

theorem StoredBy.cons {actions : List Action} {a : Action}
    (h : (c.afterAction a).StoredBy actions full o) : c.StoredBy (a :: actions) full o := by
  obtain ⟨before, kind, name, ddl, ifNotExists, behind, stored, rfl, hstored, hname, ho⟩ := h
  exact ⟨a :: before, kind, name, ddl, ifNotExists, behind, stored, rfl, hstored, hname, ho⟩

/-- Of all actions only the creation of an object adds one. -/
theorem getElem?_of_act {a : Action} (hd : c.act a = .ok d) (ho : d.objects[full]? = some o) :
    c.objects[full]? = some o ∨
      ∃ kind name ddl ifNotExists, a = .change (.createObject kind name ddl ifNotExists) ∧
        c.createObject kind name ddl ifNotExists = .ok (true, d) ∧
        c.qualify name = full ∧ o = ⟨kind, ddl⟩ := by
  cases a with
  | change ch =>
    change c.change ch = .ok d at hd
    cases ch with
    | createObject kind name ddl ifNotExists =>
      obtain ⟨isNew, hcreate⟩ := createObject_of_change hd
      obtain rfl | ⟨rfl, -, -, rfl⟩ := eq_of_createObject hcreate
      · exact .inl ho
      rw [Std.TreeMap.getElem?_insert] at ho
      split at ho
      · next heq =>
        have hname : c.qualify name = full := Std.LawfulEqCmp.eq_of_compare heq
        exact .inr ⟨kind, name, ddl, ifNotExists, rfl, hcreate, hname, (Option.some.inj ho).symm⟩
      · exact .inl ho
    | dropObject kind name ifExists =>
      obtain rfl | rfl := eq_of_dropObject hd
      · exact .inl ho
      · rw [Std.TreeMap.getElem?_erase] at ho
        split at ho
        · cases ho
        · exact .inl ho
    | createDatabase name ifNotExists =>
      obtain rfl | ⟨-, rfl⟩ := eq_of_createDatabase hd
      · exact .inl ho
      · exact .inl ho
    | dropDatabase name ifExists =>
      obtain ⟨rfl, -⟩ | ⟨-, rfl⟩ := eq_of_dropDatabase hd
      · exact .inl ho
      · exact .inl (getElem?_of_filter_below ho).2
    | useDatabase name =>
      obtain ⟨catalog, database, -, -, -, rfl⟩ := eq_of_useDatabase hd
      exact .inl ho
    | createCatalog name ifNotExists =>
      obtain rfl | rfl := eq_of_createCatalog hd
      · exact .inl ho
      · exact .inl ho
    | dropCatalog name ifExists =>
      obtain ⟨rfl, -⟩ | ⟨-, rfl⟩ := eq_of_dropCatalog hd
      · exact .inl ho
      · exact .inl (getElem?_of_filter_below ho).2
    | useCatalog name =>
      obtain ⟨-, rfl⟩ := eq_of_useCatalog hd
      exact .inl ho
  | loadModule | unloadModule | useModules =>
    obtain ⟨modules, rfl⟩ := exists_modules_eq (fun ch heq => by cases heq) hd
    exact .inl ho

/-- What is stored behind some actions was there before, or one of them stored it. -/
theorem storedBy_of_getElem? {actions : List Action}
    (ho : (c.afterActions actions).objects[full]? = some o) :
    c.objects[full]? = some o ∨ c.StoredBy actions full o := by
  induction actions generalizing c with
  | nil => exact .inl ho
  | cons a actions ih =>
    rcases ih ho with hbefore | hstored
    · unfold afterAction at hbefore
      cases hd : c.act a with
      | error e =>
        rw [hd] at hbefore
        exact .inl hbefore
      | ok d =>
        rw [hd] at hbefore
        rcases getElem?_of_act hd hbefore with hbefore | hcreated
        · exact .inl hbefore
        · obtain ⟨kind, name, ddl, ifNotExists, rfl, hcreate, hname, heq⟩ := hcreated
          exact .inr ⟨[], kind, name, ddl, ifNotExists, actions, d, rfl, hcreate, hname, heq⟩
    · exact .inr hstored.cons

/-! ## Drops -/

/-- An action drops a database by its name, or together with the registered catalog above it. -/
def Drops (c : Catalog) (database : Text) : Action → Prop
  | .change (.dropDatabase name _) => c.qualifyDatabase name = database
  | .change (.dropCatalog name _) =>
    catalogName name ∈ c.catalogs ∧ below (catalogName name) database = true
  | _ => False

/-- A dropped database is not registered any more. -/
theorem not_mem_of_drops {a : Action} {database : Text} (hd : c.act a = .ok d)
    (h : c.Drops database a) : database ∉ d.databases := by
  cases a with
  | change ch =>
    cases ch with
    | dropDatabase name ifExists =>
      obtain rfl : c.qualifyDatabase name = database := h
      obtain ⟨rfl, hmem⟩ | ⟨-, rfl⟩ := eq_of_dropDatabase hd
      · exact hmem
      · intro hmem
        exact (Std.TreeSet.mem_erase.1 hmem).1 Std.ReflCmp.compare_self
    | dropCatalog name ifExists =>
      obtain ⟨hcatalog, hbelow⟩ := h
      obtain ⟨rfl, hmem⟩ | ⟨-, rfl⟩ := eq_of_dropCatalog hd
      · exact (hmem hcatalog).elim
      · intro hmem
        have hkept := (mem_filter_iff.1 hmem).2
        rw [hbelow] at hkept
        cases hkept
    | _ => exact h.elim
  | _ => exact h.elim

/-- No object lives in a database that is not registered, so what is found there later was stored in
the meantime. -/
theorem Housed.storedBy_of_not_mem (h : Housed c) {database : Text} (hmem : database ∉ c.databases)
    {actions : List Action} (hhome : homeOf? full = some database)
    (ho : (c.afterActions actions).objects[full]? = some o) : c.StoredBy actions full o := by
  rcases storedBy_of_getElem? ho with hbefore | hstored
  · have hfull : full ∈ c.objects := by
      rw [Std.TreeMap.mem_iff_isSome_getElem?, hbefore]
      rfl
    obtain ⟨home, hregistered, hhome'⟩ := h.objects full hfull
    obtain rfl : home = database := Option.some.inj (hhome'.symm.trans hhome)
    exact (hmem hregistered).elim
  · exact hstored

/-- **No orphans.**  Behind any actions on a new catalog every object lives in a registered
database, every database below a registered catalog, and modules differ in their names.  If a
database is then dropped, alone or with its catalog, an object that is found in it later, whatever
was done in the meantime, was stored there behind the drop. -/
theorem dropped_objects_stay_away (actions : List Action) :
    Housed (empty.afterActions actions) ∧
      ∀ a d database, (empty.afterActions actions).act a = .ok d →
        (empty.afterActions actions).Drops database a →
        database ∉ d.databases ∧
          ∀ later full o, homeOf? full = some database →
            (d.afterActions later).objects[full]? = some o → d.StoredBy later full o := by
  have hhoused : Housed (empty.afterActions actions) := housed_afterActions housed_empty actions
  refine ⟨hhoused, ?_⟩
  intro a d database hd hdrops
  have hmem : database ∉ d.databases := not_mem_of_drops hd hdrops
  refine ⟨hmem, ?_⟩
  intro later full o hhome ho
  exact (hhoused.act hd).storedBy_of_not_mem hmem hhome ho

/-- A database `d` with a table, and beside it a database whose name begins with `d.`. -/
def neighbours : List Action :=
  [.change (.createDatabase "d" false),
    .change (.createDatabase "default_catalog.d.e" false),
    .change (.createObject .table "d.t" "CREATE TABLE d.t (a INT)" false)]

/-- A database that is registered again, and a table with the name of the one that was dropped. -/
def rebuilding : List Action :=
  [.change (.createDatabase "d" false),
    .change (.createObject .table "d.t" "CREATE TABLE d.t (b INT)" false)]

theorem dropped_objects_stay_away_neighbours :
    (empty.afterActions neighbours).act (.change (.dropDatabase "d" false)) =
        .ok ((empty.afterActions neighbours).afterAction (.change (.dropDatabase "d" false))) ∧
      ((empty.afterActions neighbours).afterAction (.change (.dropDatabase "d" false))).StoredBy
        rebuilding "default_catalog.d.t" ⟨.table, "CREATE TABLE d.t (b INT)"⟩ := by
  have hd : (empty.afterActions neighbours).act (.change (.dropDatabase "d" false)) =
      .ok ((empty.afterActions neighbours).afterAction (.change (.dropDatabase "d" false))) := by
    rfl
  have hdrops : (empty.afterActions neighbours).Drops "default_catalog.d"
      (.change (.dropDatabase "d" false)) := by
    show (empty.afterActions neighbours).qualifyDatabase "d" = "default_catalog.d"
    decide +kernel
  have hhome : homeOf? "default_catalog.d.t" = some "default_catalog.d" := by decide +kernel
  have hfound : (((empty.afterActions neighbours).afterAction
      (.change (.dropDatabase "d" false))).afterActions rebuilding).objects[
        ("default_catalog.d.t" : Text)]? = some ⟨.table, "CREATE TABLE d.t (b INT)"⟩ := by
    decide +kernel
  obtain ⟨-, haway⟩ := (dropped_objects_stay_away neighbours).2 _ _ _ hd hdrops
  exact ⟨hd, haway rebuilding _ _ hhome hfound⟩

end SqlConsole.Catalog
