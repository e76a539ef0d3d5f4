import SqlConsole.Proofs.Catalog.Simple
/-!
# Databases and catalogs beside each other

An object belongs to the database in front of the last point of its full name.  Drops go by what a
name begins with instead, and a database can have a name that begins with that of another one.  So
a drop of a database takes away only what belongs to it exactly if no registered database below it
has an object (`Housed.dropsOnly_iff`), and a drop of a catalog leaves the first database of another
one exactly if that catalog does not lie below it (`below_first_iff`).  Listing goes by the
beginning as well, so of the names that it answers exactly the simple ones are names of objects of
the current database that are found again (`isolation_iff`).
-/

namespace SqlConsole.Catalog

variable {c d : Catalog} {database parent home last full name : Text}

/-- Behind a drop exactly the database is gone, and what belongs to it. -/
structure DropsOnly (c : Catalog) (database : Text) (d : Catalog) : Prop where
  databases : ∀ other, other ∈ d.databases ↔ other ∈ c.databases ∧ other ≠ database
  objects : ∀ full,
    d.objects[full]? = if homeOf? full = some database then none else c.objects[full]?
  elsewhere : d = { c with databases := d.databases, objects := d.objects }

/-- Another registered database lies below a database, and has objects. -/
def Encloses (c : Catalog) (database : Text) : Prop :=
  ∃ other ∈ c.databases, below database other ∧ ∃ full ∈ c.objects, homeOf? full = some other

/-- A name stands for an object of the current database, and is looked up as that. -/
structure ListedHere (c : Catalog) (kind : ObjectKind) (name : Text) : Prop where
  stored : ∃ ddl, c.objects[c.currentName ++ '.' :: name]? = some ⟨kind, ddl⟩
  home : homeOf? (c.currentName ++ '.' :: name) = some c.currentName
  found : c.qualify name = c.currentName ++ '.' :: name

/-! ## What lies below a name -/

/-- What lies below a name is in it, or in something that lies below it. -/
theorem below_append_iff (hlast : '.' ∉ last) :
    below parent (home ++ '.' :: last) = true ↔ home = parent ∨ below parent home = true := by
  constructor
  · intro h
    obtain ⟨rest, hrest⟩ := below_iff.1 h
    -- One of the two points is the first one, or they are the same.
    rcases List.append_eq_append_iff.1 hrest with ⟨more, rfl, hmore⟩ | ⟨more, rfl, hmore⟩
    · cases more with
      | nil => exact .inl (List.append_nil home).symm
      | cons c more =>
        refine (hlast ?_).elim
        rw [(List.cons.inj hmore).2]
        exact List.mem_append_right more List.mem_cons_self
    · cases more with
      | nil => exact .inl (List.append_nil parent)
      | cons c more =>
        obtain ⟨rfl, -⟩ := List.cons.inj hmore
        exact .inr (below_iff.2 ⟨more, rfl⟩)
  · rintro (rfl | h)
    · exact below_iff.2 ⟨last, rfl⟩
    · exact below_trans h (below_iff.2 ⟨last, rfl⟩)

/-- An object lies below a database if it belongs to it, or to one that lies below it. -/
theorem below_of_home_iff (h : homeOf? full = some home) :
    below parent full = true ↔ home = parent ∨ below parent home = true := by
  obtain ⟨⟨before, last⟩, hcut, rfl⟩ := Option.map_eq_some_iff.1 h
  obtain ⟨rfl, hlast⟩ := Text.cutLast?_eq_some_iff.1 hcut
  exact below_append_iff hlast

/-- The first database of another catalog lies below a catalog if that catalog does. -/
theorem below_first_iff (hne : home ≠ parent) :
    below parent (dotted [home, defaultDatabase]) = true ↔ below parent home = true := by
  have hlast : '.' ∉ defaultDatabase := by decide
  rw [dotted_pair, below_append_iff hlast, or_iff_right hne]

/-! ## Drops -/

/-- Only a registered database is taken away. -/
theorem cases_of_dropDatabase {ifExists : Bool} (h : c.dropDatabase name ifExists = .ok d) :
    c.qualifyDatabase name ∉ c.databases ∧ d = c ∨ c.qualifyDatabase name ∈ c.databases ∧
      d = { c with
        databases := c.databases.erase (c.qualifyDatabase name)
        objects := c.objects.filter fun o _ => !below (c.qualifyDatabase name) o } := by
  obtain ⟨rfl, hmissing⟩ | ⟨-, hd⟩ := eq_of_dropDatabase h
  · exact .inl ⟨hmissing, rfl⟩
  · by_cases hmem : c.qualifyDatabase name ∈ c.databases
    · exact .inr ⟨hmem, hd⟩
    · refine .inl ⟨hmem, ?_⟩
      unfold dropDatabase at h
      dsimp only at h
      rw [if_pos hmem] at h
      split at h
      · cases h
      · cases ifExists with
        | true => exact (Except.ok.inj h).symm
        | false => cases h

theorem ne_of_below (h : below parent name = true) : name ≠ parent := by
  obtain ⟨rest, rfl⟩ := below_iff.1 h
  intro heq
  have hlength := congrArg List.length heq
  simp at hlength

/-- **A drop of a database** takes what belongs to it and nothing else exactly if no registered
database below it has an object. -/
theorem Housed.dropsOnly_iff (hc : Housed c) {ifExists : Bool}
    (h : c.dropDatabase name ifExists = .ok d) :
    c.DropsOnly (c.qualifyDatabase name) d ↔
      (c.qualifyDatabase name ∈ c.databases → ¬ c.Encloses (c.qualifyDatabase name)) := by
  obtain ⟨hmissing, rfl⟩ | ⟨hmem, rfl⟩ := cases_of_dropDatabase h
  · refine ⟨fun _ hmem => (hmissing hmem).elim, fun _ => ⟨fun other => ?_, fun full => ?_, rfl⟩⟩
    · exact ⟨fun hother => ⟨hother, fun heq => hmissing (heq ▸ hother)⟩, And.left⟩
    · split
      · next hhome =>
        refine Std.TreeMap.getElem?_eq_none fun hfull => ?_
        obtain ⟨home, hregistered, hhome'⟩ := hc.objects full hfull
        exact hmissing (Option.some.inj (hhome.symm.trans hhome') ▸ hregistered)
      · rfl
  · constructor
    · rintro hdrops - ⟨other, -, hbelow, full, hfull, hhome⟩
      have hkept := hdrops.objects full
      have hother : homeOf? full ≠ some (c.qualifyDatabase name) := by
        rw [hhome]
        exact fun heq => ne_of_below hbelow (Option.some.inj heq)
      rw [if_neg hother] at hkept
      change (c.objects.filter fun o _ => !below (c.qualifyDatabase name) o)[full]? = _ at hkept
      rw [getElem?_filter_below, if_pos ((below_of_home_iff hhome).2 (.inr hbelow))] at hkept
      have hsome := Std.TreeMap.mem_iff_isSome_getElem?.1 hfull
      rw [← hkept] at hsome
      cases hsome
    · intro hfree
      refine ⟨fun other => ?_, fun full => ?_, rfl⟩
      · change other ∈ c.databases.erase (c.qualifyDatabase name) ↔ _
        rw [Std.TreeSet.mem_erase, ne_eq, Std.LawfulEqCmp.compare_eq_iff_eq, and_comm, eq_comm]
      · change (c.objects.filter fun o _ => !below (c.qualifyDatabase name) o)[full]? = _
        rw [getElem?_filter_below]
        by_cases hfull : full ∈ c.objects
        · obtain ⟨home, hregistered, hhome⟩ := hc.objects full hfull
          have hapart : ¬ below (c.qualifyDatabase name) home := fun hbelow =>
            hfree hmem ⟨home, hregistered, hbelow, full, hfull, hhome⟩
          have hsame : below (c.qualifyDatabase name) full = true ↔
              homeOf? full = some (c.qualifyDatabase name) := by
            rw [below_of_home_iff hhome, or_iff_left hapart, hhome, Option.some.injEq]
          exact if_congr hsame rfl rfl
        · rw [Std.TreeMap.getElem?_eq_none hfull, ite_self, ite_self]

/-- **A drop of a catalog** leaves the first database of another one exactly if that catalog does
not lie below it. -/
theorem mem_first_of_dropCatalog {ifExists : Bool} (h : c.dropCatalog name ifExists = .ok d)
    (hne : home ≠ catalogName name) (hfirst : dotted [home, defaultDatabase] ∈ c.databases) :
    dotted [home, defaultDatabase] ∈ d.databases ↔
      (catalogName name ∈ c.catalogs → below (catalogName name) home = false) := by
  obtain ⟨rfl, hmissing⟩ | ⟨⟨-, hmem⟩, rfl⟩ := eq_of_dropCatalog h
  · exact ⟨fun _ hmem => (hmissing hmem).elim, fun _ => hfirst⟩
  · change dotted [home, defaultDatabase] ∈ c.databases.filter (fun n => !below _ n) ↔ _
    rw [mem_filter_iff, Bool.not_eq_true', ← Bool.not_eq_true, below_first_iff hne,
      Bool.not_eq_true]
    exact ⟨fun hkept _ => hkept.2, fun hapart => ⟨hfirst, hapart hmem⟩⟩

/-! ## Listings -/

theorem listedHere_iff (c : Catalog) (kind : ObjectKind) (name : Text) :
    c.ListedHere kind name ↔ name ∈ c.listObjects kind ∧ IsSimple name := by
  constructor
  · intro h
    exact ⟨mem_listObjects_iff.2 h.stored, (c.qualify_eq_below_current_iff name).1 h.found⟩
  · rintro ⟨hlisted, hsimple⟩
    exact ⟨mem_listObjects_iff.1 hlisted, homeOf?_below_iff.2 hsimple.undivided,
      c.qualify_of_simple hsimple⟩

/-! ## All states -/

/-- **Isolation.**  In every state that some actions lead to: a database is dropped with exactly its
own objects unless a registered database below it has some, a catalog is dropped without the first
database of another one unless that catalog lies below it, and of the listed names those without
points are names of objects of the current database, and the simple ones are found again. -/
theorem isolation_iff {actions : List Action} (hc : empty.afterActions actions = c) :
    (∀ name ifExists d, c.dropDatabase name ifExists = .ok d →
      (c.DropsOnly (c.qualifyDatabase name) d ↔
        (c.qualifyDatabase name ∈ c.databases → ¬ c.Encloses (c.qualifyDatabase name)))) ∧
      (∀ name ifExists d, c.dropCatalog name ifExists = .ok d →
        ∀ other ∈ c.catalogs, other ≠ catalogName name →
          dotted [other, defaultDatabase] ∈ c.databases →
          (dotted [other, defaultDatabase] ∈ d.databases ↔
            (catalogName name ∈ c.catalogs → below (catalogName name) other = false))) ∧
      ∀ kind, ∀ name ∈ c.listObjects kind,
        (homeOf? (c.currentName ++ '.' :: name) = some c.currentName ↔ '.' ∉ name) ∧
          (c.ListedHere kind name ↔ IsSimple name) := by
  have hhoused : Housed c := hc ▸ housed_afterActions housed_empty actions
  refine ⟨fun name ifExists d hd => hhoused.dropsOnly_iff hd, ?_, fun kind name hname => ?_⟩
  · intro name ifExists d hd other _ hne hfirst
    exact mem_first_of_dropCatalog hd hne hfirst
  · exact ⟨homeOf?_below_iff, (c.listedHere_iff kind name).trans (and_iff_right hname)⟩

/-- A database and a catalog beside the current ones, and a table in the current database. -/
def sideBySide : List Action :=
  [.change (.createDatabase "d" false), .change (.createCatalog "c" false),
    .change (.createObject .table "t" "CREATE TABLE t (a INT)" false)]

theorem isolation_iff_sideBySide :
    (empty.afterActions sideBySide).DropsOnly "default_catalog.d"
        ((empty.afterActions sideBySide).afterAction (.change (.dropDatabase "d" false))) ∧
      dotted [defaultCatalog, defaultDatabase] ∈
        ((empty.afterActions sideBySide).afterAction (.change (.dropCatalog "c" false))).databases ∧
      (empty.afterActions sideBySide).ListedHere .table "t" := by
  have hdatabase : (empty.afterActions sideBySide).dropDatabase "d" false =
      .ok ((empty.afterActions sideBySide).afterAction (.change (.dropDatabase "d" false))) := by
    rfl
  have hcatalog : (empty.afterActions sideBySide).dropCatalog "c" false =
      .ok ((empty.afterActions sideBySide).afterAction (.change (.dropCatalog "c" false))) := by
    rfl
  have hname : (empty.afterActions sideBySide).qualifyDatabase "d" = "default_catalog.d" := by
    decide +kernel
  have hapart : ¬ (empty.afterActions sideBySide).Encloses "default_catalog.d" := by
    rintro ⟨other, hother, hbelow, -⟩
    have hall : (empty.afterActions sideBySide).databases.toList.all
        (fun other => !below "default_catalog.d" other) := by decide +kernel
    have hnot := List.all_eq_true.1 hall other (Std.TreeSet.mem_toList.2 hother)
    rw [hbelow] at hnot
    cases hnot
  have hreached : empty.afterActions sideBySide = empty.afterActions sideBySide := rfl
  obtain ⟨hdatabases, hcatalogs, hlisted⟩ := isolation_iff hreached
  have hdrops := hdatabases _ _ _ hdatabase
  rw [hname] at hdrops
  have htable : ("t" : Text) ∈ (empty.afterActions sideBySide).listObjects .table := by
    decide +kernel
  refine ⟨hdrops.2 fun _ => hapart, ?_, (hlisted .table "t" htable).2.2 ⟨by decide, by decide⟩⟩
  exact (hcatalogs _ _ _ hcatalog defaultCatalog (by decide +kernel) (by decide)
    (by decide +kernel)).2 fun _ => by decide

/-- A database `d` without objects, and beside it one whose name begins with `d.`, with a table. -/
def enclosing : List Action :=
  [.change (.createDatabase "d" false),
    .change (.createDatabase "default_catalog.d.e" false),
    .change (.createObject .table "default_catalog.d.e.t"
      "CREATE TABLE default_catalog.d.e.t (a INT)" false)]

/-- A drop of the one database takes the table of the other one with it. -/
theorem dropped_with_another_database :
    (empty.afterActions enclosing).dropDatabase "d" false =
        .ok ((empty.afterActions enclosing).afterAction (.change (.dropDatabase "d" false))) ∧
      homeOf? "default_catalog.d.e.t" = some "default_catalog.d.e" ∧
      ((empty.afterActions enclosing).get? "default_catalog.d.e.t").isSome ∧
      ((empty.afterActions enclosing).afterAction (.change (.dropDatabase "d" false))).get?
        "default_catalog.d.e.t" = none ∧
      ¬ (empty.afterActions enclosing).DropsOnly
          ((empty.afterActions enclosing).qualifyDatabase "d")
          ((empty.afterActions enclosing).afterAction (.change (.dropDatabase "d" false))) := by
  refine ⟨rfl, by decide +kernel, by decide +kernel, by decide +kernel, fun h => ?_⟩
  have hkept := h.objects "default_catalog.d.e.t"
  revert hkept
  decide +kernel

end SqlConsole.Catalog
