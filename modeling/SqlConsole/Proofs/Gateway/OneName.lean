import SqlConsole.Proofs.Catalog.Simple
import SqlConsole.Proofs.Gateway.Jobs
import SqlConsole.Proofs.Gateway.Naming
import SqlConsole.Proofs.Statement.Definitions
/-!
# Quoted names as names of tables

Whatever stands in a quoted name, the parser reads it as one value (`parse_createTable`), and then
the catalog splits that value at its points and strips its parts.  So a table can be created under a
value, listed under it and shown again exactly if there is nothing in the value to split or to strip
(`one_name_iff_simple`); other values name a table in another database, or the table of another
value.
-/

namespace SqlConsole.Local

open Statement

variable {g g' : Local} {t value other rest : Text}

/-- The gateway executes the operation of a text. -/
def Answers (g : Local) (t : Text) (answer : Except GatewayError TableResult) (g' : Local) : Prop :=
  ∃ op, parse t = .ok (some op) ∧ g.execute op = (answer, g')

/-- A value is one name: a table can be created under it, is listed under it, and is shown under it
with the statement that created it. -/
def OneName (g : Local) (value rest : Text) : Prop :=
  ∃ src created, Source.ofText (createTable value rest) = .ok src ∧
    g.Answers (createTable value rest) (.ok .ok) created ∧
    created.Answers "SHOW TABLES;" (.ok (.names "table name" [value])) created ∧
    created.Answers (Route.showCreate.statement (spelled [value])) (.ok (.text "result" src.body))
      created

/-- A statement looks for two values under the same key. -/
def SameTable (g : Local) (r : Route) (value other : Text) : Prop :=
  ∃ key, g.LooksUp r (spelled [value]) key ∧ g.LooksUp r (spelled [other]) key

/-! ## Answers -/

theorem Answers.unique {answer answer' : Except GatewayError TableResult} {g'' : Local}
    (h : g.Answers t answer g') (h' : g.Answers t answer' g'') : answer = answer' ∧ g' = g'' := by
  obtain ⟨op, hparse, hanswer⟩ := h
  obtain ⟨op', hparse', hanswer'⟩ := h'
  obtain rfl := Option.some.inj (Except.ok.inj (hparse.symm.trans hparse'))
  exact Prod.mk.inj (hanswer.symm.trans hanswer')

theorem names_inj {column : Text} {names others : List Text}
    (h : TableResult.names column names = TableResult.names column others) : names = others := by
  have hrows := congrArg TableResult.rows h
  refine List.map_injective_iff.2 (fun name name' hname => ?_) hrows
  simpa [Row.insert] using hname

/-- The tables of the current database are listed. -/
theorem answers_showTables (g : Local) :
    g.Answers "SHOW TABLES;" (.ok (.names "table name" (g.catalog.listObjects .table))) g := by
  have hparse : parse "SHOW TABLES;" = .ok (some (.other "SHOW TABLES")) := by decide +kernel
  have hwords : listings.lookup
      ((Text.words (Text.dropTerminators (Text.trim "SHOW TABLES"))).map Text.upper) =
        some .tables := by decide
  refine ⟨_, hparse, ?_⟩
  change (g.answerWords "SHOW TABLES", g) = _
  rw [answerWords, hwords]
  rfl

theorem answers_showCreate (g : Local) (value : Text) :
    g.Answers (Route.showCreate.statement (spelled [value])) (showCreate g.catalog .table value)
      g := by
  have hparse := parse_showCreate (List.cons_ne_nil value [])
  rw [dotted_singleton] at hparse
  exact ⟨_, hparse, rfl⟩

/-- A table is created as its value says. -/
theorem answers_createTable (g : Local) (hrest : FollowsName rest) (value : Text) :
    ∃ src op, Source.ofText (createTable value rest) = .ok src ∧
      parse (createTable value rest) = .ok (some op) ∧
      g.execute op =
        settleCatalog g ((g.catalog.createObject .table value src.body false).map (·.2)) := by
  obtain ⟨src, hsrc, hparse⟩ := parse_createTable hrest value
  exact ⟨src, _, hsrc, hparse, rfl⟩

theorem created_of_answers (hrest : FollowsName rest)
    (h : g.Answers (createTable value rest) (.ok .ok) g') :
    ∃ ddl made, g.catalog.createObject .table value ddl false = .ok made ∧
      g'.catalog = made.2 := by
  obtain ⟨src, op, -, hparse, hexecute⟩ := g.answers_createTable hrest value
  cases hmade : g.catalog.createObject .table value src.body false with
  | error e =>
    rw [hmade] at hexecute
    obtain ⟨hanswer, -⟩ := h.unique ⟨op, hparse, hexecute⟩
    cases hanswer
  | ok made =>
    rw [hmade] at hexecute
    obtain ⟨-, rfl⟩ := h.unique ⟨op, hparse, hexecute⟩
    exact ⟨src.body, made, hmade, rfl⟩

/-! ## Keys of single values -/

/-- Statements about a single value look for its full name, but for the one that cuts its text. -/
theorem looksUp_single (g : Local) {r : Route} (hr : r ≠ .describe) (value : Text) :
    g.LooksUp r (spelled [value]) (g.catalog.qualify value) := by
  have hkey : g.keyOf [value] r = g.catalog.qualify value := by
    cases r with
    | describe => exact (hr rfl).elim
    | showCreate | query | insert | drop =>
      exact congrArg g.catalog.qualify (dotted_singleton value)
  exact hkey ▸ g.looksUp (List.cons_ne_nil value []) r

theorem sameTable_iff (g : Local) {r : Route} (hr : r ≠ .describe) :
    g.SameTable r value other ↔ g.catalog.qualify value = g.catalog.qualify other := by
  constructor
  · rintro ⟨key, hvalue, hother⟩
    exact ((g.looksUp_single hr value).unique hvalue).trans
      (hother.unique (g.looksUp_single hr other))
  · intro hsame
    exact ⟨_, g.looksUp_single hr value, hsame ▸ g.looksUp_single hr other⟩

/-! ## A first table -/

/-- A catalog with a single object, which stands below the current database. -/
def holdingOnly (c : Catalog) (name : Text) (object : CatalogObject) : Catalog :=
  { c with
    objects := (∅ : Std.TreeMap Text CatalogObject).insert (c.currentName ++ '.' :: name) object }

/-- What is listed behind the first creation is what was created. -/
theorem qualify_of_listed {kind : ObjectKind} {ddl : Text} {isNew : Bool} {d : Catalog}
    (hcreated : Catalog.empty.createObject kind value ddl false = .ok (isNew, d))
    (hlisted : other ∈ d.listObjects kind) :
    Catalog.empty.qualify value = Catalog.empty.currentName ++ '.' :: other := by
  obtain ⟨ddl', hobject⟩ := Catalog.mem_listObjects_iff.1 hlisted
  have hmem := Std.TreeMap.mem_iff_isSome_getElem?.2 (Option.isSome_iff_exists.2 ⟨_, hobject⟩)
  obtain rfl | ⟨-, -, -, rfl⟩ := Catalog.eq_of_createObject hcreated
  · exact (Std.TreeMap.not_mem_emptyc hmem).elim
  · rcases Std.TreeMap.mem_insert.1 hmem with heq | hnone
    · exact Std.LawfulEqCmp.eq_of_compare heq
    · exact (Std.TreeMap.not_mem_emptyc hnone).elim

/-- A simple name is free where there is nothing yet, and in the current database. -/
theorem createObject_of_simple (kind : ObjectKind) (ddl : Text) (h : IsSimple value) :
    Catalog.empty.createObject kind value ddl false =
      .ok (true, holdingOnly .empty value ⟨kind, ddl⟩) := by
  have hdatabase : Catalog.empty.currentName ∈ Catalog.empty.databases := by decide +kernel
  have hfree : Catalog.empty.currentName ++ '.' :: value ∉ Catalog.empty.objects :=
    Std.TreeMap.not_mem_emptyc
  rw [Catalog.createObject_eq, Catalog.databaseOf_of_not_mem _ h.undivided,
    if_neg (not_not_intro hdatabase), Catalog.qualify_of_simple _ h, if_neg hfree]
  rfl

theorem listObjects_holdingOnly (c : Catalog) (kind : ObjectKind) (name ddl : Text) :
    (holdingOnly c name ⟨kind, ddl⟩).listObjects kind = [name] := by
  have hlist : (holdingOnly c name ⟨kind, ddl⟩).objects.toList =
      [(c.currentName ++ '.' :: name, ⟨kind, ddl⟩)] := rfl
  have hbelow : Catalog.nameBelow? c.currentName (c.currentName ++ '.' :: name) = some name := by
    rw [Catalog.nameBelow?, List.isPrefixOf?_eq_some_iff_append_eq, List.append_assoc]
    rfl
  rw [Catalog.listObjects, hlist]
  simp only [List.filterMap_cons, List.filterMap_nil, if_true]
  exact congrArg (fun found : Option Text => found.toList) hbelow

theorem showCreate_holdingOnly (c : Catalog) (ddl : Text) (h : IsSimple value) :
    showCreate (holdingOnly c value ⟨.table, ddl⟩) .table value = .ok (.text "result" ddl) := by
  have hget : (holdingOnly c value ⟨.table, ddl⟩).get? value = some ⟨.table, ddl⟩ := by
    rw [Catalog.get?, Catalog.qualify_of_simple _ h]
    exact Std.TreeMap.getElem?_insert_self
  rw [showCreate, hget]
  rfl

/-- **A value is one name** exactly if there is nothing in it to split or to strip, and such values
are names of different tables. -/
theorem one_name_iff_simple (defaults : Properties) (savepointDir : Text) (ids : JobIds)
    (hrest : FollowsName rest) (value : Text) :
    ((ofDefaults defaults savepointDir ids).OneName value rest ↔ IsSimple value) ∧
      ∀ (g : Local) (r : Route) (other : Text), r ≠ .describe → IsSimple value → IsSimple other →
        (g.SameTable r value other ↔ value = other) := by
  refine ⟨⟨?_, fun h => ?_⟩, fun g r other hr h h' => ?_⟩
  · rintro ⟨-, created, -, hcreated, hlisted, -⟩
    obtain ⟨ddl, made, hmade, hcatalog⟩ := created_of_answers hrest hcreated
    obtain ⟨hnames, -⟩ := hlisted.unique (answers_showTables created)
    have hmem : value ∈ made.2.listObjects .table := by
      rw [← hcatalog, ← names_inj (Except.ok.inj hnames)]
      exact List.mem_singleton_self value
    exact (Catalog.qualify_eq_below_current_iff _ _).1 (qualify_of_listed hmade hmem)
  · obtain ⟨src, op, hsrc, hparse, hexecute⟩ :=
      (ofDefaults defaults savepointDir ids).answers_createTable hrest value
    rw [show (ofDefaults defaults savepointDir ids).catalog = .empty from rfl,
      createObject_of_simple .table src.body h] at hexecute
    have hlisted := answers_showTables { ofDefaults defaults savepointDir ids with
      catalog := holdingOnly .empty value ⟨.table, src.body⟩ }
    have hshown := answers_showCreate { ofDefaults defaults savepointDir ids with
      catalog := holdingOnly .empty value ⟨.table, src.body⟩ } value
    rw [listObjects_holdingOnly] at hlisted
    rw [showCreate_holdingOnly _ _ h] at hshown
    exact ⟨src, _, hsrc, ⟨op, hparse, hexecute⟩, hlisted, hshown⟩
  · rw [g.sameTable_iff hr, g.catalog.qualify_inj_of_simple h h']

/-- What may stand behind the name of a table with a single column. -/
theorem followsName_column : FollowsName " (x INT);" := by
  refine ⟨?_, ?_, ?_, ?_, ?_⟩
  · rw [Piece.Closed]
    decide +kernel
  all_goals decide +kernel

theorem one_name_iff_simple_blank : FollowsName " (x INT);" ∧
    blankLocal.OneName "a b" " (x INT);" :=
  ⟨followsName_column,
    (one_name_iff_simple ∅ defaultSavepointDir {} followsName_column "a b").1.2
      ⟨by decide, by decide⟩⟩

/-- A value with a point in it names a table in another database, and blanks around a value are
stripped. -/
theorem quoted_name_is_split :
    blankLocal.Answers (createTable "a.b" " (x INT);")
        (.error (.notFound .database "default_catalog.a")) blankLocal ∧
      ¬ blankLocal.OneName "a.b" " (x INT);" ∧
      blankLocal.SameTable .showCreate " a" "a" := by
  have hanswer : blankLocal.Answers (createTable "a.b" " (x INT);")
      (.error (.notFound .database "default_catalog.a")) blankLocal := by
    obtain ⟨src, op, -, hparse, hexecute⟩ :=
      blankLocal.answers_createTable followsName_column "a.b"
    exact ⟨op, hparse, hexecute⟩
  refine ⟨hanswer, ?_, (blankLocal.sameTable_iff (by decide)).2 (by decide)⟩
  rintro ⟨-, created, -, hcreated, -⟩
  exact absurd (hanswer.unique hcreated).1 (by simp)

end SqlConsole.Local
