import SqlConsole.Proofs.Text.Parts
/-!
# The current namespace

One catalog and one database are current, and names are completed with them.  `Anchored` says that
both are registered.  A catalog is anchored in the beginning, and most changes keep it so, but three
do not look at everything they touch (`Unmoors`): a catalog is made current without a look at the
database it is said to begin with, a catalog is dropped with all names below it although the current
database may be one of them, and the catalog that a full database name begins with need not be
registered.

These are all.  A change of an anchored catalog leaves it anchored unless it is one of the three
(`anchored_after_iff`), so along a run the current namespace exists exactly as long as none of them
is met (`anchored_iff_never_unmoored`).
-/

namespace SqlConsole.Catalog

/-! ## Changes -/

/-- What can be done to objects, databases and catalogs. -/
inductive Change where
  | createObject (kind : ObjectKind) (name ddl : Text) (ifNotExists : Bool)
  | dropObject (kind : ObjectKind) (name : Text) (ifExists : Bool)
  | createDatabase (name : Text) (ifNotExists : Bool)
  | dropDatabase (name : Text) (ifExists : Bool)
  | useDatabase (name : Text)
  | createCatalog (name : Text) (ifNotExists : Bool)
  | dropCatalog (name : Text) (ifExists : Bool)
  | useCatalog (name : Text)
  deriving DecidableEq, Repr

/-- The catalog that a change makes, if it does not fail. -/
def change (c : Catalog) : Change → Except GatewayError Catalog
  | .createObject kind name ddl ifNotExists =>
    (c.createObject kind name ddl ifNotExists).map (·.2)
  | .dropObject kind name ifExists => c.dropObject kind name ifExists
  | .createDatabase name ifNotExists => c.createDatabase name ifNotExists
  | .dropDatabase name ifExists => c.dropDatabase name ifExists
  | .useDatabase name => c.useDatabase name
  | .createCatalog name ifNotExists => c.createCatalog name ifNotExists
  | .dropCatalog name ifExists => c.dropCatalog name ifExists
  | .useCatalog name => c.useCatalog name

/-- The catalog behind a change.  One that fails changes nothing. -/
def after (c : Catalog) (ch : Change) : Catalog :=
  match c.change ch with
  | .ok c => c
  | .error _ => c

/-- The catalog behind changes that are made one after the other, whatever comes of them. -/
def afterAll (c : Catalog) (changes : List Change) : Catalog := changes.foldl after c

/-! ## Anchored catalogs -/

/-- The current catalog and the current database are registered. -/
structure Anchored (c : Catalog) : Prop where
  catalog : c.currentCatalog ∈ c.catalogs
  database : c.currentName ∈ c.databases

theorem anchored_empty : Anchored .empty := by
  constructor <;> decide +kernel

/-- A change that takes away the current catalog or database, or puts one in its place that is not
registered. -/
def Unmoors (c : Catalog) : Change → Prop
  | .useCatalog name =>
    catalogName name ∈ c.catalogs ∧ dotted [catalogName name, defaultDatabase] ∉ c.databases
  | .dropCatalog name _ =>
    catalogName name ∈ c.catalogs ∧ catalogName name ≠ c.currentCatalog ∧
      below (catalogName name) c.currentName = true
  | .useDatabase name =>
    c.qualifyDatabase name ∈ c.databases ∧
      (c.qualifyDatabase name).takeWhile (· != '.') ∉ c.catalogs
  | _ => False

/-! ## What the operations make -/

variable {c d : Catalog}

/-- The full name of the database that an object belongs to. -/
def databaseOf (c : Catalog) (name : Text) : Text :=
  ((Text.cutLast? '.' (c.qualify name)).map (·.1)).getD []

theorem createObject_eq (c : Catalog) (kind : ObjectKind) (name ddl : Text) (ifNotExists : Bool) :
    c.createObject kind name ddl ifNotExists =
      if c.databaseOf name ∉ c.databases then .error (.notFound .database (c.databaseOf name))
      else if c.qualify name ∈ c.objects then
        if ifNotExists then .ok (false, c)
        else .error (.alreadyExists kind.nameKind (c.qualify name))
      else .ok (true, { c with objects := c.objects.insert (c.qualify name) ⟨kind, ddl⟩ }) := rfl

/-- An object is stored in a registered database under a name that is free, or was there before. -/
theorem eq_of_createObject {kind : ObjectKind} {name ddl : Text} {ifNotExists isNew : Bool}
    (h : c.createObject kind name ddl ifNotExists = .ok (isNew, d)) :
    d = c ∨ isNew = true ∧ c.databaseOf name ∈ c.databases ∧ c.qualify name ∉ c.objects ∧
      d = { c with objects := c.objects.insert (c.qualify name) ⟨kind, ddl⟩ } := by
  rw [createObject_eq] at h
  split at h
  · cases h
  next hdatabase =>
  split at h
  · cases ifNotExists <;> simp at h
    exact .inl h.2.symm
  · next hobject =>
    obtain ⟨hnew, hmade⟩ := Prod.mk.inj (Except.ok.inj h)
    exact .inr ⟨hnew.symm, Decidable.not_not.1 hdatabase, hobject, hmade.symm⟩

theorem createObject_of_change {kind : ObjectKind} {name ddl : Text} {ifNotExists : Bool}
    (h : c.change (.createObject kind name ddl ifNotExists) = .ok d) :
    ∃ isNew, c.createObject kind name ddl ifNotExists = .ok (isNew, d) := by
  have h : (c.createObject kind name ddl ifNotExists).map (·.2) = .ok d := h
  cases hcreate : c.createObject kind name ddl ifNotExists with
  | error e => rw [hcreate] at h; cases h
  | ok found =>
    rw [hcreate] at h
    obtain rfl : found.2 = d := Except.ok.inj h
    exact ⟨found.1, rfl⟩

theorem eq_of_dropObject {kind : ObjectKind} {name : Text} {ifExists : Bool}
    (h : c.dropObject kind name ifExists = .ok d) :
    d = c ∨ d = { c with objects := c.objects.erase (c.qualify name) } := by
  unfold dropObject at h
  split at h
  · exact .inr (Except.ok.inj h).symm
  · cases ifExists <;> simp at h
    exact .inl h.symm

/-- A database is registered in the catalog that its full name begins with. -/
theorem eq_of_createDatabase {name : Text} {ifNotExists : Bool}
    (h : c.createDatabase name ifNotExists = .ok d) :
    d = c ∨ (c.qualifyDatabase name).takeWhile (· != '.') ∈ c.catalogs ∧
      d = { c with databases := c.databases.insert (c.qualifyDatabase name) } := by
  unfold createDatabase at h
  dsimp only at h
  split at h
  · cases h
  next hcatalog =>
  split at h
  · cases ifNotExists <;> simp at h
    exact .inl h.symm
  · exact .inr ⟨Decidable.not_not.1 hcatalog, (Except.ok.inj h).symm⟩

/-- The current database is never dropped. -/
theorem eq_of_dropDatabase {name : Text} {ifExists : Bool}
    (h : c.dropDatabase name ifExists = .ok d) :
    d = c ∧ c.qualifyDatabase name ∉ c.databases ∨ c.qualifyDatabase name ≠ c.currentName ∧
      d = { c with
        databases := c.databases.erase (c.qualifyDatabase name)
        objects := c.objects.filter fun o _ => !below (c.qualifyDatabase name) o } := by
  unfold dropDatabase at h
  dsimp only at h
  split at h
  · cases h
  next hcurrent =>
  split at h
  · next hmem =>
    cases ifExists <;> simp at h
    exact .inl ⟨h.symm, hmem⟩
  · exact .inr ⟨hcurrent, (Except.ok.inj h).symm⟩

theorem eq_of_createCatalog {name : Text} {ifNotExists : Bool}
    (h : c.createCatalog name ifNotExists = .ok d) :
    d = c ∨ d = { c with
      databases := c.databases.insert (dotted [catalogName name, defaultDatabase])
      catalogs := c.catalogs.insert (catalogName name) } := by
  unfold createCatalog at h
  dsimp only at h
  split at h
  · cases ifNotExists <;> simp at h
    exact .inl h.symm
  · exact .inr (Except.ok.inj h).symm

/-- The current catalog is never dropped. -/
theorem eq_of_dropCatalog {name : Text} {ifExists : Bool}
    (h : c.dropCatalog name ifExists = .ok d) :
    d = c ∧ catalogName name ∉ c.catalogs ∨
      (catalogName name ≠ c.currentCatalog ∧ catalogName name ∈ c.catalogs) ∧
      d = { c with
        catalogs := c.catalogs.erase (catalogName name)
        databases := c.databases.filter fun n => !below (catalogName name) n
        objects := c.objects.filter fun o _ => !below (catalogName name) o } := by
  unfold dropCatalog at h
  dsimp only at h
  split at h
  · cases h
  next hcurrent =>
  split at h
  · next hmem =>
    cases ifExists <;> simp at h
    exact .inl ⟨h.symm, hmem⟩
  · next hmem => exact .inr ⟨⟨hcurrent, Decidable.not_not.1 hmem⟩, (Except.ok.inj h).symm⟩

theorem eq_of_useCatalog {name : Text} (h : c.useCatalog name = .ok d) :
    catalogName name ∈ c.catalogs ∧
      d = { c with currentCatalog := catalogName name, currentDatabase := defaultDatabase } := by
  unfold useCatalog at h
  dsimp only at h
  split at h
  · cases h
  · next hmem => exact ⟨Decidable.not_not.1 hmem, (Except.ok.inj h).symm⟩

/-- The full name of a database always has a point. -/
theorem exists_cutFirst?_qualifyDatabase (c : Catalog) (name : Text) :
    ∃ catalog database, Text.cutFirst? '.' (c.qualifyDatabase name) = some (catalog, database) := by
  refine Text.exists_cutFirst? ?_
  unfold qualifyDatabase
  split
  · rw [dotted_pair]
    simp
  · next hsingle =>
    have hparts : nameParts name ≠ [] := nameParts_ne_nil name
    match hname : nameParts name with
    | [] => exact (hparts hname).elim
    | [part] => exact (hsingle part hname).elim
    | first :: second :: rest =>
      rw [dotted_cons_cons]
      simp

/-- The new current names are the two sides of the first point of a registered full name. -/
theorem eq_of_useDatabase {name : Text} (h : c.useDatabase name = .ok d) :
    ∃ catalog database, c.qualifyDatabase name = dotted [catalog, database] ∧
      (c.qualifyDatabase name).takeWhile (· != '.') = catalog ∧
      c.qualifyDatabase name ∈ c.databases ∧
      d = { c with currentCatalog := catalog, currentDatabase := database } := by
  unfold useDatabase at h
  dsimp only at h
  split at h
  · cases h
  next hmem =>
  obtain ⟨catalog, database, hcut⟩ := exists_cutFirst?_qualifyDatabase c name
  rw [hcut] at h
  obtain ⟨hname, hpoint⟩ := Text.cutFirst?_eq_some_iff.1 hcut
  refine ⟨catalog, database, ?_, ?_, Decidable.not_not.1 hmem, (Except.ok.inj h).symm⟩
  · rw [hname, dotted_pair]
  · rw [hname, Text.takeWhile_append_separator hpoint]

/-! ## Sets of names -/

theorem mem_erase_of_ne {names : Std.TreeSet Text} {name other : Text} (h : name ∈ names)
    (hne : other ≠ name) : name ∈ names.erase other :=
  Std.TreeSet.mem_erase.2 ⟨fun heq => hne (Std.LawfulEqCmp.eq_of_compare heq), h⟩

theorem mem_filter_iff {names : Std.TreeSet Text} {p : Text → Bool} {name : Text} :
    name ∈ names.filter p ↔ name ∈ names ∧ p name = true := by
  rw [Std.TreeSet.mem_filter]
  constructor
  · rintro ⟨hmem, hp⟩
    rw [Std.TreeSet.get_eq] at hp
    exact ⟨hmem, hp⟩
  · rintro ⟨hmem, hp⟩
    exact ⟨hmem, by rwa [Std.TreeSet.get_eq]⟩

/-! ## One change -/

/-- A change that is made leaves an anchored catalog anchored exactly if it is none of the three. -/
theorem anchored_of_change_iff (h : Anchored c) {ch : Change} (hd : c.change ch = .ok d) :
    Anchored d ↔ ¬ c.Unmoors ch := by
  cases ch with
  | createObject kind name ddl ifNotExists =>
    refine ⟨fun _ => id, fun _ => ?_⟩
    obtain ⟨isNew, hcreate⟩ := createObject_of_change hd
    obtain rfl | ⟨-, -, -, rfl⟩ := eq_of_createObject hcreate
    · exact h
    · exact ⟨h.catalog, h.database⟩
  | dropObject kind name ifExists =>
    refine ⟨fun _ => id, fun _ => ?_⟩
    obtain rfl | rfl := eq_of_dropObject hd
    · exact h
    · exact ⟨h.catalog, h.database⟩
  | createDatabase name ifNotExists =>
    refine ⟨fun _ => id, fun _ => ?_⟩
    obtain rfl | ⟨-, rfl⟩ := eq_of_createDatabase hd
    · exact h
    · exact ⟨h.catalog, Std.TreeSet.mem_insert.2 (.inr h.database)⟩
  | dropDatabase name ifExists =>
    refine ⟨fun _ => id, fun _ => ?_⟩
    obtain ⟨rfl, -⟩ | ⟨hcurrent, rfl⟩ := eq_of_dropDatabase hd
    · exact h
    · exact ⟨h.catalog, mem_erase_of_ne h.database hcurrent⟩
  | createCatalog name ifNotExists =>
    refine ⟨fun _ => id, fun _ => ?_⟩
    obtain rfl | rfl := eq_of_createCatalog hd
    · exact h
    · exact ⟨Std.TreeSet.mem_insert.2 (.inr h.catalog), Std.TreeSet.mem_insert.2 (.inr h.database)⟩
  | dropCatalog name ifExists =>
    obtain ⟨rfl, hmem⟩ | ⟨⟨hcurrent, hmem⟩, rfl⟩ := eq_of_dropCatalog hd
    · exact ⟨fun _ hunmoors => hmem hunmoors.1, fun _ => h⟩
    · constructor
      · rintro hanchored ⟨-, -, hbelow⟩
        have hkept := (mem_filter_iff.1 hanchored.database).2
        have hkept : (!below (catalogName name) c.currentName) = true := hkept
        rw [hbelow] at hkept
        cases hkept
      · intro hkeeps
        have hapart : (!below (catalogName name) c.currentName) = true := by
          cases hbelow : below (catalogName name) c.currentName with
          | true => exact (hkeeps ⟨hmem, hcurrent, hbelow⟩).elim
          | false => rfl
        exact ⟨mem_erase_of_ne h.catalog hcurrent, mem_filter_iff.2 ⟨h.database, hapart⟩⟩
  | useCatalog name =>
    obtain ⟨hmem, rfl⟩ := eq_of_useCatalog hd
    constructor
    · rintro hanchored ⟨-, hmissing⟩
      exact hmissing hanchored.database
    · intro hkeeps
      exact ⟨hmem, Decidable.not_not.1 fun hmissing => hkeeps ⟨hmem, hmissing⟩⟩
  | useDatabase name =>
    obtain ⟨catalog, database, hname, hfirst, hmem, rfl⟩ := eq_of_useDatabase hd
    have hdatabase : dotted [catalog, database] ∈ c.databases := hname ▸ hmem
    constructor
    · rintro hanchored ⟨-, hmissing⟩
      exact hmissing (hfirst ▸ hanchored.catalog)
    · intro hkeeps
      refine ⟨?_, hdatabase⟩
      exact hfirst ▸ Decidable.not_not.1 fun hmissing => hkeeps ⟨hmem, hmissing⟩

/-- A change that fails is none of the three. -/
theorem not_unmoors_of_change_eq_error {ch : Change} {e : GatewayError}
    (he : c.change ch = .error e) : ¬ c.Unmoors ch := by
  cases ch with
  | dropCatalog name ifExists =>
    rintro ⟨hmem, hcurrent, -⟩
    simp [change, dropCatalog, hcurrent, hmem] at he
  | useCatalog name =>
    rintro ⟨hmem, -⟩
    simp [change, useCatalog, hmem] at he
  | useDatabase name =>
    rintro ⟨hmem, -⟩
    obtain ⟨catalog, database, hcut⟩ := exists_cutFirst?_qualifyDatabase c name
    simp [change, useDatabase, hmem, hcut] at he
  | _ => exact id

/-- **Three changes unmoor the current namespace, and no other does.** -/
theorem anchored_after_iff (h : Anchored c) (ch : Change) :
    Anchored (c.after ch) ↔ ¬ c.Unmoors ch := by
  unfold after
  cases hchange : c.change ch with
  | ok d => exact anchored_of_change_iff h hchange
  | error e => exact ⟨fun _ => not_unmoors_of_change_eq_error hchange, fun _ => h⟩

/-! ## Runs -/

/-- None of some changes, made one after the other, unmoors the current namespace. -/
def NeverUnmoored (c : Catalog) (changes : List Change) : Prop :=
  ∀ before ch behind, changes = before ++ ch :: behind → ¬ (c.afterAll before).Unmoors ch

theorem neverUnmoored_cons {ch : Change} {changes : List Change} :
    NeverUnmoored c (ch :: changes) ↔ ¬ c.Unmoors ch ∧ NeverUnmoored (c.after ch) changes := by
  constructor
  · intro hnever
    refine ⟨hnever [] ch changes rfl, ?_⟩
    rintro before next behind rfl
    exact hnever (ch :: before) next behind rfl
  · rintro ⟨hfirst, hrest⟩ before next behind heq
    cases before with
    | nil =>
      obtain ⟨rfl, rfl⟩ := List.cons.inj heq
      exact hfirst
    | cons first before =>
      obtain ⟨rfl, rfl⟩ := List.cons.inj heq
      exact hrest before next behind rfl

/-- Along a run the catalog is anchored at every point exactly if it is never unmoored. -/
theorem anchored_afterAll_iff (h : Anchored c) (changes : List Change) :
    (∀ before, before <+: changes → Anchored (c.afterAll before)) ↔ NeverUnmoored c changes := by
  induction changes generalizing c with
  | nil =>
    constructor
    · intro _ before ch behind heq
      simp at heq
    · intro _ before hbefore
      rw [List.prefix_nil.1 hbefore]
      exact h
  | cons ch changes ih =>
    rw [neverUnmoored_cons, ← anchored_after_iff h ch]
    constructor
    · intro hall
      have hfirst : Anchored (c.after ch) := hall [ch] ⟨changes, rfl⟩
      refine ⟨hfirst, (ih hfirst).1 fun before hbefore => ?_⟩
      exact hall (ch :: before) (List.cons_prefix_cons.2 ⟨rfl, hbefore⟩)
    · rintro ⟨hfirst, hrest⟩ before hbefore
      cases before with
      | nil => exact h
      | cons first before =>
        obtain ⟨rfl, hbehind⟩ := List.cons_prefix_cons.1 hbefore
        exact (ih hfirst).2 hrest before hbehind

/-! ## Plain names -/

/-- An object with a plain name belongs to the current database. -/
theorem databaseOf_of_not_mem (c : Catalog) {name : Text} (h : '.' ∉ name) :
    c.databaseOf name = c.currentName := by
  obtain ⟨part, hparts, hpoint⟩ := nameParts_of_not_mem h
  have hfull : c.qualify name = c.currentName ++ '.' :: part := by
    rw [qualify, hparts]
    exact dotted_triple _ _ _
  rw [databaseOf, hfull, Text.cutLast?_append hpoint]
  rfl

/-- Objects with plain names find their database exactly where the current one is registered. -/
theorem mem_databases_iff_createObject (c : Catalog) :
    c.currentName ∈ c.databases ↔
      ∀ kind name ddl ifNotExists, '.' ∉ name → ∀ database,
        c.createObject kind name ddl ifNotExists ≠ .error (.notFound .database database) := by
  constructor
  · intro hmem kind name ddl ifNotExists hpoint database hfails
    rw [createObject_eq, databaseOf_of_not_mem c hpoint, if_neg (not_not_intro hmem)] at hfails
    split at hfails
    · cases ifNotExists <;> cases kind <;> cases hfails
    · cases hfails
  · intro hall
    refine Decidable.not_not.1 fun hmissing => ?_
    have hfails := hall .table [] [] false (by simp) c.currentName
    rw [createObject_eq, databaseOf_of_not_mem c (by simp), if_pos hmissing] at hfails
    exact hfails rfl

/-- **How the current namespace can be lost.**  The current catalog and database exist at every
point of a run exactly if none of its changes unmoors them, and wherever the current database
exists, objects with plain names find it. -/
theorem anchored_iff_never_unmoored (changes : List Change) :
    ((∀ before, before <+: changes → Anchored (Catalog.empty.afterAll before)) ↔
        NeverUnmoored .empty changes) ∧
      ((Catalog.empty.afterAll changes).currentName ∈
          (Catalog.empty.afterAll changes).databases ↔
        ∀ kind name ddl ifNotExists, '.' ∉ name → ∀ database,
          (Catalog.empty.afterAll changes).createObject kind name ddl ifNotExists ≠
            .error (.notFound .database database)) :=
  ⟨anchored_afterAll_iff anchored_empty changes, mem_databases_iff_createObject _⟩

/-- A catalog is made current whose first database is gone. -/
def emptiedCatalog : List Change :=
  [.createCatalog "c" false, .dropDatabase "c.default_database" false, .useCatalog "c"]

/-- No object can be created in a catalog that was emptied and made current. -/
theorem current_database_is_missing :
    ¬ Anchored (Catalog.empty.afterAll emptiedCatalog) ∧
      (Catalog.empty.afterAll emptiedCatalog).createObject .table "t" "CREATE TABLE t (a INT)"
        false = .error (.notFound .database "c.default_database") := by
  have hmissing : (Catalog.empty.afterAll emptiedCatalog).currentName ∉
      (Catalog.empty.afterAll emptiedCatalog).databases := by decide +kernel
  have hname : (Catalog.empty.afterAll emptiedCatalog).currentName = "c.default_database" := by
    decide +kernel
  refine ⟨fun hanchored => hmissing hanchored.database, ?_⟩
  rw [createObject_eq, databaseOf_of_not_mem _ (by decide), if_pos hmissing, hname]

end SqlConsole.Catalog
