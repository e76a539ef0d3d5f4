import SqlConsole.Proofs.Gateway.Recognition
import SqlConsole.Proofs.Statement.Names
/-!
# Where names are looked up

A statement about a table looks for it under a key of the catalog (`LooksUp`).  All statements but
one look for the full name of the values that its identifiers have.  `DESCRIBE` takes the second
word of its text instead, as far as the first blank and with the quotes in it (`describedName`), and
hands that to the catalog.  So all statements resolve a name alike exactly if these two are the same
full name (`resolve_alike_iff`): where no blank stands in the values, if no backquote is inside of a
part.
-/

namespace SqlConsole

namespace Statement

/-- The statements that are answered with the statement that created the table. -/
def Route.shows : Route → Bool
  | .showCreate | .describe => true
  | _ => false

end Statement

namespace Local

open Piece Statement

variable {g : Local} {values : List Text} {name s key : Text}

/-- A query is begun, and of the answer to any other operation the first field is kept. -/
def reply (g : Local) : Operation → Except GatewayError (Option Value)
  | .query statement => (g.query statement).map fun _ => none
  | op => (g.execute op).1.map TableResult.firstField?

/-- The gateway with some objects in the place of its own. -/
def holding (g : Local) (objects : Std.TreeMap Text CatalogObject) : Local :=
  { g with catalog := { g.catalog with objects } }

/-- An operation looks for a table under a key: with a table there it succeeds, and shows the
statement that created the table if it is to show that; with nothing there it fails, and names the
key. -/
structure Finds (g : Local) (op : Operation) (key : Text) (shows : Bool) : Prop where
  present : ∀ objects ddl, objects[key]? = some ⟨.table, ddl⟩ →
    ∃ shown, (g.holding objects).reply op = .ok shown ∧ (shows → shown = some (.string ddl))
  absent : ∀ objects, key ∉ objects →
    (g.holding objects).reply op = .error (.notFound .table key)

/-- A statement about a name looks for it under a key. -/
def LooksUp (g : Local) (r : Route) (name key : Text) : Prop :=
  ∃ op, parse (r.statement name) = .ok (some op) ∧ g.Finds op key r.shows

/-- All statements look for a name under the same key. -/
def ResolveAlike (g : Local) (name : Text) : Prop := ∃ key, ∀ r, g.LooksUp r name key

/-- What `DESCRIBE` takes for the name that some identifiers spell. -/
def describedName (values : List Text) : Text :=
  Text.dropTerminators ((spelled values).takeWhile fun c => !isBlank c)

/-- The full name that a statement looks for. -/
def keyOf (g : Local) (values : List Text) : Route → Text
  | .describe => g.catalog.qualify (describedName values)
  | _ => g.catalog.qualify (dotted values)

/-! ## What operations find -/

/-- An operation looks in one place only. -/
theorem Finds.unique {op : Operation} {key' : Text} {shows shows' : Bool} (h : g.Finds op key shows)
    (h' : g.Finds op key' shows') : key = key' := by
  by_contra hne
  have hpresent : ((∅ : Std.TreeMap Text CatalogObject).insert key ⟨.table, []⟩)[key]? =
      some ⟨.table, []⟩ := by simp
  have habsent : key' ∉ (∅ : Std.TreeMap Text CatalogObject).insert key ⟨.table, []⟩ := by
    simp [hne]
  obtain ⟨shown, hok, -⟩ := h.present _ _ hpresent
  rw [h'.absent _ habsent] at hok
  cases hok

theorem get?_holding (g : Local) (objects : Std.TreeMap Text CatalogObject) (name : Text) :
    (g.holding objects).catalog.get? name = objects[g.catalog.qualify name]? := rfl

theorem getElem?_of_not_mem {objects : Std.TreeMap Text CatalogObject} (h : key ∉ objects) :
    objects[key]? = none := by
  simpa using h

theorem finds_showCreate (g : Local) (name : Text) :
    g.Finds (.showCreateTable name) (g.catalog.qualify name) true := by
  refine ⟨fun objects ddl hobject => ⟨some (.string ddl), ?_, fun _ => rfl⟩,
    fun objects hnone => ?_⟩
  · change (showCreate (g.holding objects).catalog .table name).map _ = _
    rw [showCreate, get?_holding, hobject]
    rfl
  · change (showCreate (g.holding objects).catalog .table name).map _ = _
    rw [showCreate, get?_holding, getElem?_of_not_mem hnone]
    rfl

theorem answerQuery_of_table {ddl : Text} (hplan : Query.plan s = .ok (.scan name))
    (hobject : g.catalog.get? name = some ⟨.table, ddl⟩) : g.answerQuery s = .ok ([], []) := by
  rw [answerQuery, hplan]
  dsimp only [bind, Except.bind]
  rw [hobject]
  rfl

theorem answerQuery_of_none (hplan : Query.plan s = .ok (.scan name))
    (hnone : g.catalog.get? name = none) :
    g.answerQuery s = .error (.notFound .table (g.catalog.qualify name)) := by
  rw [answerQuery, hplan]
  dsimp only [bind, Except.bind]
  rw [hnone]
  rfl

theorem finds_query (g : Local) (hplan : Query.plan s = .ok (.scan name)) :
    g.Finds (.query s) (g.catalog.qualify name) false := by
  refine ⟨fun objects ddl hobject => ⟨none, ?_, fun h => by cases h⟩, fun objects hnone => ?_⟩
  · have hget : (g.holding objects).catalog.get? name = some ⟨.table, ddl⟩ := hobject
    change ((g.holding objects).query s).map _ = _
    rw [query, answerQuery_of_table hplan hget]
    rfl
  · have hget : (g.holding objects).catalog.get? name = none := getElem?_of_not_mem hnone
    change ((g.holding objects).query s).map _ = _
    rw [query, answerQuery_of_none hplan hget]
    rfl

/-- What is required of a catalog that holds a table, and of one that does not. -/
theorem require_holding (g : Local) (objects : Std.TreeMap Text CatalogObject) (name : Text) :
    (∀ ddl, objects[g.catalog.qualify name]? = some ⟨.table, ddl⟩ →
      (g.holding objects).catalog.require .table name = .ok ⟨.table, ddl⟩) ∧
    (g.catalog.qualify name ∉ objects →
      (g.holding objects).catalog.require .table name =
        .error (.notFound .table (g.catalog.qualify name))) := by
  refine ⟨fun ddl hobject => ?_, fun hnone => ?_⟩
  · rw [Catalog.require, get?_holding, hobject]
    rfl
  · rw [Catalog.require, get?_holding, getElem?_of_not_mem hnone]
    rfl

theorem finds_insert (g : Local) (name s : Text) :
    g.Finds (.insert ⟨.insertInto, name, s⟩) (g.catalog.qualify name) false := by
  have hcheck (c : Catalog) : [⟨.insertInto, name, s⟩].forM (checkTarget c) =
      (c.require .table name).bind fun _ => .ok () := by
    change ((c.require .table name).map _).bind _ = _
    cases c.require .table name <;> rfl
  refine ⟨fun objects ddl hobject => ⟨some (.string g.ids.next.1), ?_, fun h => by cases h⟩,
    fun objects hnone => ?_⟩
  · change ((g.holding objects).modify _).1.map _ = _
    rw [modify, hcheck, (require_holding g objects name).1 ddl hobject]
    rfl
  · change ((g.holding objects).modify _).1.map _ = _
    rw [modify, hcheck, (require_holding g objects name).2 hnone]
    rfl

theorem finds_drop (g : Local) (name s : Text) :
    g.Finds (.drop ⟨.table, name, false, s⟩) (g.catalog.qualify name) false := by
  refine ⟨fun objects ddl hobject => ⟨some (.string "OK"), ?_, fun h => by cases h⟩,
    fun objects hnone => ?_⟩
  · change (settleCatalog _ ((g.holding objects).catalog.dropObject .table name false)).1.map _ = _
    rw [Catalog.dropObject, (require_holding g objects name).1 ddl hobject]
    rfl
  · change (settleCatalog _ ((g.holding objects).catalog.dropObject .table name false)).1.map _ = _
    rw [Catalog.dropObject, (require_holding g objects name).2 hnone]
    rfl

theorem finds_describe (g : Local) (hs : Kept s) (hd : Describes s) :
    g.Finds (.other s) (g.catalog.qualify (secondWord s)) true := by
  refine ⟨fun objects ddl hobject => ⟨some (.string ddl), ?_, fun _ => rfl⟩,
    fun objects hnone => ?_⟩
  · have hget : (g.holding objects).catalog.get? (secondWord s) = some ⟨.table, ddl⟩ := hobject
    change ((g.holding objects).answerWords s).map _ = _
    unfold secondWord at hget
    rw [answerWords_of_describes hs hd, describe, hget]
    rfl
  · have hget : (g.holding objects).catalog.get? (secondWord s) = none :=
      getElem?_of_not_mem hnone
    change ((g.holding objects).answerWords s).map _ = _
    unfold secondWord at hget
    rw [answerWords_of_describes hs hd, describe, hget]
    rfl

/-! ## What statements look up -/

theorem secondWord_describe (hne : values ≠ []) :
    secondWord (Route.describe.front ++ spelled values) = describedName values := by
  have hspelled : spelled values ≠ [] := by
    intro hnil
    have hhead := (ends_spelled hne).1
    rw [hnil] at hhead
    cases hhead
  have hstart : ∀ c ∈ (spelled values).head?, isBlank c = false := by
    intro c hc
    rw [(ends_spelled hne).1] at hc
    obtain rfl := Option.some.inj hc
    decide
  have hwords : Text.words (Route.describe.front ++ spelled values) =
      Text.words "DESCRIBE" ++ Text.words (spelled values) :=
    Text.words_append_cons (by decide) "DESCRIBE" (spelled values)
  have hfirst : Text.words "DESCRIBE" = ["DESCRIBE"] := by decide
  rw [secondWord, hwords, hfirst, Text.words_eq_cons hspelled hstart]
  rfl

theorem describedName_eq (hne : values ≠ [])
    (h : ∀ value ∈ values, ∀ c ∈ value, isBlank c = false) :
    describedName values = spelled values := by
  have hsolid : ∀ c ∈ spelled values, (!isBlank c) = true := by
    intro c hc
    rcases mem_spelled hc with rfl | rfl | ⟨value, hvalue, hc⟩
    · decide
    · decide
    · rw [h value hvalue c hc]
      rfl
  have hwhole := (takeWhile_append_of_seam (r := []) hsolid fun d hd => by cases hd).1
  rw [List.append_nil] at hwhole
  rw [describedName, hwhole]
  refine Text.dropEndWhile_of_getLast? fun c hc => ?_
  rw [(ends_spelled hne).2] at hc
  obtain rfl := Option.some.inj hc
  decide

theorem looksUp (g : Local) (hne : values ≠ []) (r : Route) :
    g.LooksUp r (spelled values) (g.keyOf values r) := by
  cases r with
  | showCreate => exact ⟨_, parse_showCreate hne, finds_showCreate g _⟩
  | query => exact ⟨_, parse_query hne, finds_query g (plan_query hne)⟩
  | insert =>
    obtain ⟨s, hparse⟩ := parse_insert hne
    exact ⟨_, hparse, finds_insert g _ s⟩
  | drop =>
    obtain ⟨s, hparse⟩ := parse_drop hne
    exact ⟨_, hparse, finds_drop g _ s⟩
  | describe =>
    have hparse := parse_describe hne
    have hdescribes : Describes (Route.describe.front ++ spelled values) :=
      ⟨"DESCRIBE", ' ' :: spelled values, rfl, .inl rfl, fun c hc => by
        obtain rfl := Option.some.inj hc
        decide⟩
    have hfinds := finds_describe g (kept_of_parse hparse) hdescribes
    rw [secondWord_describe hne] at hfinds
    exact ⟨_, hparse, hfinds⟩

theorem LooksUp.unique {r : Route} {key' : Text} (h : g.LooksUp r name key)
    (h' : g.LooksUp r name key') : key = key' := by
  obtain ⟨op, hparse, hfinds⟩ := h
  obtain ⟨op', hparse', hfinds'⟩ := h'
  obtain rfl := Option.some.inj (Except.ok.inj (hparse.symm.trans hparse'))
  exact hfinds.unique hfinds'

/-- All statements resolve a name alike exactly if `DESCRIBE` does as the others do. -/
theorem resolveAlike_iff_qualify (g : Local) (hne : values ≠ []) :
    g.ResolveAlike (spelled values) ↔
      g.catalog.qualify (describedName values) = g.catalog.qualify (dotted values) := by
  constructor
  · intro h
    obtain ⟨key, hkey⟩ := h
    have hdescribed := (hkey .describe).unique (g.looksUp hne .describe)
    have hdotted := (hkey .drop).unique (g.looksUp hne .drop)
    exact hdescribed.symm.trans hdotted
  · intro hsame
    refine ⟨g.catalog.qualify (dotted values), fun r => ?_⟩
    have hlooksUp := g.looksUp hne r
    cases r with
    | describe =>
      rw [keyOf, hsame] at hlooksUp
      exact hlooksUp
    | showCreate | query | insert | drop => exact hlooksUp

/-- **Names are resolved alike** exactly if what `DESCRIBE` cuts out of its text is the full name of
the values; where no blank stands in the values, exactly if no backquote is inside of a part. -/
theorem resolve_alike_iff (g : Local) (hne : values ≠ []) :
    (∀ r, g.LooksUp r (spelled values) (g.keyOf values r)) ∧
      (g.ResolveAlike (spelled values) ↔
        g.catalog.qualify (describedName values) = g.catalog.qualify (dotted values)) ∧
      ((∀ value ∈ values, ∀ c ∈ value, isBlank c = false) →
        (g.ResolveAlike (spelled values) ↔ ∀ part ∈ nameParts (dotted values), '`' ∉ part)) := by
  refine ⟨g.looksUp hne, g.resolveAlike_iff_qualify hne, fun hblank => ?_⟩
  rw [g.resolveAlike_iff_qualify hne, describedName_eq hne hblank]
  exact g.catalog.qualify_spelled_eq_iff hne hblank

theorem resolve_alike_iff_points : (["d.e", "\"t\""] : List Text) ≠ [] ∧
    blankLocal.ResolveAlike (spelled ["d.e", "\"t\""]) := by
  have hne : (["d.e", "\"t\""] : List Text) ≠ [] := by decide
  have hblank : ∀ value ∈ (["d.e", "\"t\""] : List Text), ∀ c ∈ value, isBlank c = false := by
    intro value hvalue c hc
    have hall : (["d.e", "\"t\""] : List Text).all (·.all (!isBlank ·)) := by decide
    simpa using List.all_eq_true.1 (List.all_eq_true.1 hall value hvalue) c hc
  exact ⟨hne, ((resolve_alike_iff blankLocal hne).2.2 hblank).2 (by decide)⟩

/-- A blank in a value: `DESCRIBE` looks for a part of the name. -/
theorem described_name_is_cut :
    blankLocal.LooksUp .showCreate (spelled ["a b"]) "default_catalog.default_database.a b" ∧
      blankLocal.LooksUp .describe (spelled ["a b"]) "default_catalog.default_database.a" ∧
      ¬ blankLocal.ResolveAlike (spelled ["a b"]) := by
  have hne : (["a b"] : List Text) ≠ [] := by decide
  refine ⟨blankLocal.looksUp hne .showCreate, blankLocal.looksUp hne .describe, fun h => ?_⟩
  exact absurd ((blankLocal.resolveAlike_iff_qualify hne).1 h) (by decide)

end Local

end SqlConsole
