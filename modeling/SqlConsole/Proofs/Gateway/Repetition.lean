import SqlConsole.Proofs.Catalog.Housing
import SqlConsole.Proofs.Gateway.Modify
import SqlConsole.Proofs.Gateway.Recognition
import SqlConsole.Proofs.Statement.Definitions
/-!
# Definitions that are made twice

What a guarded definition asks for holds behind its success, so doing it again succeeds and changes
nothing: one lemma for each kind of definition (`createObject_again`, `dropDatabase_again` and their
like).  A table that is written as it is created is no definition to the gateway but a modification,
and that knows of no guard: behind its success the name is taken (`modify_again`).  So a guarded
statement can be repeated exactly if it is no such table (`repeats_iff_not_filled`).
-/

namespace SqlConsole

namespace Catalog

variable {c d : Catalog} {name : Text}

/-! ## Creations -/

theorem createObject_again {kind : ObjectKind} {ddl : Text} {isNew : Bool}
    (h : c.createObject kind name ddl true = .ok (isNew, d)) :
    d.createObject kind name ddl true = .ok (false, d) := by
  have hthere : d.databaseOf name ∈ d.databases ∧ d.qualify name ∈ d.objects := by
    rw [createObject_eq] at h
    split at h
    · cases h
    next hdatabase =>
    split at h
    · next hmem =>
      obtain ⟨-, rfl⟩ := Prod.mk.inj (Except.ok.inj h)
      exact ⟨Decidable.not_not.1 hdatabase, hmem⟩
    · obtain ⟨-, rfl⟩ := Prod.mk.inj (Except.ok.inj h)
      exact ⟨Decidable.not_not.1 hdatabase, Std.TreeMap.mem_insert_self⟩
  rw [createObject_eq, if_neg (not_not_intro hthere.1), if_pos hthere.2, if_pos rfl]

theorem createDatabase_again (h : c.createDatabase name true = .ok d) :
    d.createDatabase name true = .ok d := by
  have hthere : (d.qualifyDatabase name).takeWhile (· != '.') ∈ d.catalogs ∧
      d.qualifyDatabase name ∈ d.databases := by
    unfold createDatabase at h
    dsimp only at h
    split at h
    · cases h
    next hcatalog =>
    split at h
    · next hmem =>
      obtain rfl := Except.ok.inj h
      exact ⟨Decidable.not_not.1 hcatalog, hmem⟩
    · obtain rfl := Except.ok.inj h
      exact ⟨Decidable.not_not.1 hcatalog, Std.TreeSet.mem_insert_self⟩
  rw [createDatabase, if_neg (not_not_intro hthere.1), if_pos hthere.2, if_pos rfl]

theorem createCatalog_again (h : c.createCatalog name true = .ok d) :
    d.createCatalog name true = .ok d := by
  have hthere : catalogName name ∈ d.catalogs := by
    unfold createCatalog at h
    dsimp only at h
    split at h
    · next hmem =>
      obtain rfl := Except.ok.inj h
      exact hmem
    · obtain rfl := Except.ok.inj h
      exact Std.TreeSet.mem_insert_self
  rw [createCatalog, if_pos hthere, if_pos rfl]

/-! ## Drops -/

theorem dropObject_again {kind : ObjectKind} (h : c.dropObject kind name true = .ok d) :
    d.dropObject kind name true = .ok d := by
  have hgone : ∃ e, d.require kind name = .error e := by
    unfold dropObject at h
    split at h
    · obtain rfl := Except.ok.inj h
      have hnone : ({ c with objects := c.objects.erase (c.qualify name) } : Catalog).get? name =
          none := Std.TreeMap.getElem?_erase_self
      rw [require, hnone]
      exact ⟨_, rfl⟩
    · next e hfails =>
      obtain rfl := Except.ok.inj h
      exact ⟨e, hfails⟩
  obtain ⟨e, hfails⟩ := hgone
  rw [dropObject, hfails]
  rfl

theorem dropDatabase_again (h : c.dropDatabase name true = .ok d) :
    d.dropDatabase name true = .ok d := by
  have hgone : d.qualifyDatabase name ≠ d.currentName ∧ d.qualifyDatabase name ∉ d.databases := by
    unfold dropDatabase at h
    dsimp only at h
    split at h
    · cases h
    next hcurrent =>
    split at h
    · next hmissing =>
      obtain rfl := Except.ok.inj h
      exact ⟨hcurrent, hmissing⟩
    · obtain rfl := Except.ok.inj h
      exact ⟨hcurrent, fun hmem => (Std.TreeSet.mem_erase.1 hmem).1 Std.ReflCmp.compare_self⟩
  rw [dropDatabase, if_neg hgone.1, if_pos hgone.2, if_pos rfl]

theorem dropCatalog_again (h : c.dropCatalog name true = .ok d) :
    d.dropCatalog name true = .ok d := by
  have hgone : catalogName name ≠ d.currentCatalog ∧ catalogName name ∉ d.catalogs := by
    unfold dropCatalog at h
    dsimp only at h
    split at h
    · cases h
    next hcurrent =>
    split at h
    · next hmissing =>
      obtain rfl := Except.ok.inj h
      exact ⟨hcurrent, hmissing⟩
    · obtain rfl := Except.ok.inj h
      exact ⟨hcurrent, fun hmem => (Std.TreeSet.mem_erase.1 hmem).1 Std.ReflCmp.compare_self⟩
  rw [dropCatalog, if_neg hgone.1, if_pos hgone.2, if_pos rfl]

end Catalog

namespace Local

open Statement

variable {g g' : Local} {t : Text} {op : Operation} {answer : TableResult}

/-! ## Definitions -/

theorem create_again {d : Definition} {c c' : Catalog} (hd : d.guarded)
    (h : create c d = .ok c') : create c' d = .ok c' := by
  obtain ⟨object, name, guarded, statement⟩ := d
  obtain rfl : guarded = true := hd
  cases object with
  | catalog => exact Catalog.createCatalog_again h
  | database => exact Catalog.createDatabase_again h
  | table | view | function =>
    obtain ⟨isNew, hmade⟩ := Catalog.createObject_of_change h
    change (c'.createObject _ name statement true).map (·.2) = _
    rw [Catalog.createObject_again hmade]
    rfl

theorem drop_again {d : Definition} {c c' : Catalog} (hd : d.guarded)
    (h : drop c d = .ok c') : drop c' d = .ok c' := by
  obtain ⟨object, name, guarded, statement⟩ := d
  obtain rfl : guarded = true := hd
  cases object with
  | catalog => exact Catalog.dropCatalog_again h
  | database => exact Catalog.dropDatabase_again h
  | table | view | function => exact Catalog.dropObject_again h

theorem settleCatalog_eq_ok_iff {made : Except GatewayError Catalog} :
    settleCatalog g made = (.ok answer, g') ↔
      ∃ catalog, made = .ok catalog ∧ answer = .ok ∧ g' = { g with catalog } := by
  cases made with
  | ok catalog => simp [settleCatalog, eq_comm]
  | error e => simp [settleCatalog]

/-! ## Tables that are filled -/

/-- Behind its success there is something under the name. -/
theorem exists_get?_of_modify {m : Modify} (hm : m.kind = .createTableAs)
    (h : g.modify [m] = (.ok answer, g')) : ∃ object, g'.catalog.get? m.target = some object := by
  have hmem : m ∈ creations [m] := List.mem_filter.2 ⟨List.mem_cons_self, by simpa using hm⟩
  rcases forM_checkTarget g.catalog [m] with ⟨-, hok⟩ | ⟨-, hfails⟩
  case inr =>
    obtain ⟨e, he⟩ := modify_of_not_checked (.inr hfails)
    cases h.symm.trans he
  rcases createTargets_creations_iff g.catalog [m] with ⟨-, hcreated, htables⟩ | ⟨-, e, he⟩
  case inr => cases h.symm.trans (modify_of_not_created (List.cons_ne_nil m []) hok he)
  have hmade := h.symm.trans (modify_of_created (List.cons_ne_nil m []) hok hcreated)
  rw [(Prod.mk.inj hmade).2]
  exact ⟨_, htables m hmem⟩

/-- A table that is written as it is created is there, so it is not created again. -/
theorem modify_again {m : Modify} (hm : m.kind = .createTableAs)
    (h : g.modify [m] = (.ok answer, g')) :
    g'.modify [m] = (.error (.alreadyExists .table (g'.catalog.qualify m.target)), g') := by
  obtain ⟨object, hobject⟩ := exists_get?_of_modify hm h
  have hcheck : checkTarget g'.catalog m =
      .error (.alreadyExists .table (g'.catalog.qualify m.target)) := by
    rw [checkTarget, hm]
    dsimp only
    rw [hobject]
  have hall : [m].forM (checkTarget g'.catalog) = (checkTarget g'.catalog m).bind fun _ => .ok () :=
    rfl
  rw [hcheck] at hall
  rw [modify, hall]
  rfl

/-! ## Guarded statements -/

/-- An operation succeeds and leaves the catalog as it is. -/
def Repeats (g : Local) (op : Operation) : Prop :=
  ∃ again g', g.execute op = (.ok again, g') ∧ g'.catalog = g.catalog

/-- Behind its success a guarded definition changes nothing, and a table that is filled fails. -/
theorem execute_again (hguard : IsGuarded t) (hparse : parse t = .ok (some op))
    (h : g.execute op = (.ok answer, g')) :
    (∀ m, op ≠ .createTableAs m) ∧ g'.execute op = (.ok .ok, g') ∨
      ∃ m, op = .createTableAs m ∧
        g'.execute op = (.error (.alreadyExists .table (g'.catalog.qualify m.target)), g') := by
  rcases cases_of_isGuarded hguard hparse with ⟨d, rfl, hd⟩ | ⟨d, rfl, hd⟩ | ⟨m, rfl, hm⟩
  · obtain ⟨catalog, hmade, -, rfl⟩ := settleCatalog_eq_ok_iff.1 h
    refine .inl ⟨fun m hm => (nomatch hm), settleCatalog_eq_ok_iff.2 ⟨catalog, ?_, rfl, rfl⟩⟩
    exact create_again hd hmade
  · obtain ⟨catalog, hmade, -, rfl⟩ := settleCatalog_eq_ok_iff.1 h
    refine .inl ⟨fun m hm => (nomatch hm), settleCatalog_eq_ok_iff.2 ⟨catalog, ?_, rfl, rfl⟩⟩
    exact drop_again hd hmade
  · exact .inr ⟨m, rfl, modify_again hm h⟩

/-- **A guarded statement can be repeated** exactly if it is no table that is filled from a query.
If it is none the repetition changes nothing at all, and if it is one the repetition fails. -/
theorem repeats_iff_not_filled (hguard : IsGuarded t) (hparse : parse t = .ok (some op))
    (h : g.execute op = (.ok answer, g')) :
    (g'.Repeats op ↔ ∀ m, op ≠ .createTableAs m) ∧
      ((∀ m, op ≠ .createTableAs m) → g'.execute op = (.ok .ok, g')) ∧
      ∀ m, op = .createTableAs m →
        g'.execute op = (.error (.alreadyExists .table (g'.catalog.qualify m.target)), g') := by
  rcases execute_again hguard hparse h with ⟨hplain, hagain⟩ | ⟨m, rfl, hagain⟩
  · exact ⟨⟨fun _ => hplain, fun _ => ⟨_, _, hagain, rfl⟩⟩, fun _ => hagain,
      fun m hm => (hplain m hm).elim⟩
  · refine ⟨⟨?_, fun hplain => (hplain m rfl).elim⟩, fun hplain => (hplain m rfl).elim, ?_⟩
    · rintro ⟨again, g'', hrepeated, -⟩
      rw [hagain] at hrepeated
      cases hrepeated
    · intro n hn
      obtain rfl := Operation.createTableAs.inj hn
      exact hagain

/-- A guarded definition of a table. -/
def guardedTable : Text := "CREATE TABLE IF NOT EXISTS a (x INT);"

theorem repeats_iff_not_filled_definition :
    ∃ op created, parse guardedTable = .ok (some op) ∧
      blankLocal.execute op = (.ok .ok, created) ∧ created.execute op = (.ok .ok, created) := by
  have hguard : IsGuarded guardedTable :=
    isGuarded_of_startsWith ⟨false, false, false⟩ .table (by decide +kernel)
  have hparse : parse guardedTable =
      .ok (some (.create ⟨.table, "a", true, "CREATE TABLE IF NOT EXISTS a (x INT)"⟩)) := by
    decide +kernel
  have hcreated : blankLocal.execute
      (.create ⟨.table, "a", true, "CREATE TABLE IF NOT EXISTS a (x INT)"⟩) =
        (.ok .ok, (blankLocal.execute
          (.create ⟨.table, "a", true, "CREATE TABLE IF NOT EXISTS a (x INT)"⟩)).2) := rfl
  exact ⟨_, _, hparse, hcreated,
    (repeats_iff_not_filled hguard hparse hcreated).2.1 fun m hm => nomatch hm⟩

/-- A guarded definition of a table that is filled from a query. -/
def guardedQuery : Text := "CREATE TABLE IF NOT EXISTS a AS SELECT 1;"

/-- The table is filled once, and the second time its name is taken. -/
theorem filled_table_is_not_repeated :
    IsGuarded guardedQuery ∧ ∃ op job created, parse guardedQuery = .ok (some op) ∧
      blankLocal.execute op = (.ok (.submitted job), created) ∧
      created.execute op =
        (.error (.alreadyExists .table "default_catalog.default_database.a"), created) ∧
      ¬ created.Repeats op := by
  have hguard : IsGuarded guardedQuery :=
    isGuarded_of_startsWith ⟨false, false, false⟩ .table (by decide +kernel)
  have hparse : parse guardedQuery = .ok (some (.createTableAs
      ⟨.createTableAs, "a", "CREATE TABLE IF NOT EXISTS a AS SELECT 1"⟩)) := by
    decide +kernel
  have hfilled : blankLocal.execute (.createTableAs
      ⟨.createTableAs, "a", "CREATE TABLE IF NOT EXISTS a AS SELECT 1"⟩) =
        (.ok (.submitted blankLocal.ids.next.1), (blankLocal.execute (.createTableAs
          ⟨.createTableAs, "a", "CREATE TABLE IF NOT EXISTS a AS SELECT 1"⟩)).2) := rfl
  have hagain := modify_again rfl hfilled
  refine ⟨hguard, _, _, _, hparse, hfilled, hagain, ?_⟩
  rintro ⟨again, g'', hrepeated, -⟩
  cases hagain.symm.trans hrepeated

end Local

end SqlConsole
