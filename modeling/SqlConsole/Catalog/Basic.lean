import Std.Data.TreeMap
import Std.Data.TreeSet
import SqlConsole.Gateway.Error
import SqlConsole.Operation
/-!
# The catalog

A catalog keeps the names of catalogs and databases, the objects stored under
`catalog.database.name` with the statements that created them, and the modules that are loaded.
One catalog and one of its databases are current; names with fewer parts are completed with them
(`Catalog.qualify`).

The operations either fail and change nothing, or answer a changed catalog.
-/

namespace SqlConsole

/-- A table, view or function. -/
structure CatalogObject where
  kind : ObjectKind
  /-- The statement that created it. -/
  ddl : Text
  deriving DecidableEq, Repr

/-- A loaded module. -/
structure Module where
  name : Text
  /-- Whether its functions can be used. -/
  used : Bool
  deriving DecidableEq, Repr

/-- The names that statements can refer to. -/
structure Catalog where
  currentCatalog : Text
  currentDatabase : Text
  catalogs : Std.TreeSet Text
  /-- Databases as `catalog.database`. -/
  databases : Std.TreeSet Text
  /-- Objects under `catalog.database.name`. -/
  objects : Std.TreeMap Text CatalogObject
  /-- Modules in the order in which they are searched. -/
  modules : List Module

def ObjectKind.nameKind : ObjectKind → NameKind
  | .table => .table
  | .view => .view
  | .function => .function
  | .database => .database
  | .catalog => .catalog

/-- The catalog that is there from the beginning. -/
def defaultCatalog : Text := "default_catalog"

/-- The database that every catalog begins with. -/
def defaultDatabase : Text := "default_database"

/-- The module that is loaded from the beginning. -/
def coreModule : Text := "core"

/-- The parts of a dotted name, without the blanks around them and then without the quotes around
them. -/
def nameParts (name : Text) : List Text :=
  (Text.fields '.' name).map fun part =>
    Text.dropAround (· == '"') (Text.dropAround (· == '`') (Text.trim part))

/-- The parts of a name with points between them. -/
def dotted (parts : List Text) : Text := Text.join ['.'] parts

namespace Catalog

/-- A catalog with a single empty database. -/
def empty : Catalog where
  currentCatalog := defaultCatalog
  currentDatabase := defaultDatabase
  catalogs := (∅ : Std.TreeSet Text).insert defaultCatalog
  databases := (∅ : Std.TreeSet Text).insert (dotted [defaultCatalog, defaultDatabase])
  objects := ∅
  modules := [⟨coreModule, true⟩]

instance : Inhabited Catalog := ⟨empty⟩

/-! ## Names -/

/-- The full name of an object. -/
def qualify (c : Catalog) (name : Text) : Text :=
  match nameParts name with
  | [object] => dotted [c.currentCatalog, c.currentDatabase, object]
  | [database, object] => dotted [c.currentCatalog, database, object]
  | parts => dotted parts

def qualifyDatabase (c : Catalog) (name : Text) : Text :=
  match nameParts name with
  | [database] => dotted [c.currentCatalog, database]
  | parts => dotted parts

/-- The full name of the current database. -/
def currentName (c : Catalog) : Text := dotted [c.currentCatalog, c.currentDatabase]

/-- The name of a catalog without its quotes. -/
def catalogName (name : Text) : Text := dotted (nameParts name)

/-- Whether one full name lies below another one. -/
def below (parent name : Text) : Bool := (parent ++ ['.']).isPrefixOf name

/-- What stands behind the first part of a full name that lies below another one. -/
def nameBelow? (parent name : Text) : Option Text := (parent ++ ['.']).isPrefixOf? name

/-! ## Objects -/

def get? (c : Catalog) (name : Text) : Option CatalogObject := c.objects[c.qualify name]?

def require (c : Catalog) (kind : ObjectKind) (name : Text) :
    Except GatewayError CatalogObject :=
  match c.get? name with
  | some object =>
    if object.kind = kind then .ok object else .error (.notFound kind.nameKind (c.qualify name))
  | none => .error (.notFound kind.nameKind (c.qualify name))

/-- Store an object, and say whether it was not there before.  An object that is there stays as it
is, which is a fault unless the statement allows it. -/
def createObject (c : Catalog) (kind : ObjectKind) (name ddl : Text) (ifNotExists : Bool) :
    Except GatewayError (Bool × Catalog) :=
  let full := c.qualify name
  let database := ((Text.cutLast? '.' full).map (·.1)).getD []
  if database ∉ c.databases then .error (.notFound .database database)
  else if full ∈ c.objects then
    if ifNotExists then .ok (false, c) else .error (.alreadyExists kind.nameKind full)
  else .ok (true, { c with objects := c.objects.insert full ⟨kind, ddl⟩ })

def dropObject (c : Catalog) (kind : ObjectKind) (name : Text) (ifExists : Bool) :
    Except GatewayError Catalog :=
  match c.require kind name with
  | .ok _ => .ok { c with objects := c.objects.erase (c.qualify name) }
  | .error e => if ifExists then .ok c else .error e

/-- The names of the objects of a kind in the current database, in their order. -/
def listObjects (c : Catalog) (kind : ObjectKind) : List Text :=
  c.objects.toList.filterMap fun (name, object) =>
    if object.kind = kind then nameBelow? c.currentName name else none

/-! ## Catalogs and databases -/

/-- Register a catalog with a first database. -/
def createCatalog (c : Catalog) (name : Text) (ifNotExists : Bool) :
    Except GatewayError Catalog :=
  let name := catalogName name
  if name ∈ c.catalogs then
    if ifNotExists then .ok c else .error (.alreadyExists .catalog name)
  else .ok { c with
    databases := c.databases.insert (dotted [name, defaultDatabase])
    catalogs := c.catalogs.insert name }

/-- Remove a catalog with everything below its name. -/
def dropCatalog (c : Catalog) (name : Text) (ifExists : Bool) : Except GatewayError Catalog :=
  let name := catalogName name
  if name = c.currentCatalog then
    .error (.execution ("cannot drop catalog '" ++ name ++ "' as it is currently in use"))
  else if name ∉ c.catalogs then
    if ifExists then .ok c else .error (.notFound .catalog name)
  else .ok { c with
    catalogs := c.catalogs.erase name
    databases := c.databases.filter fun d => !below name d
    objects := c.objects.filter fun o _ => !below name o }

def createDatabase (c : Catalog) (name : Text) (ifNotExists : Bool) :
    Except GatewayError Catalog :=
  let full := c.qualifyDatabase name
  let catalog := full.takeWhile (· != '.')
  if catalog ∉ c.catalogs then .error (.notFound .catalog catalog)
  else if full ∈ c.databases then
    if ifNotExists then .ok c else .error (.alreadyExists .database full)
  else .ok { c with databases := c.databases.insert full }

/-- Remove a database with every object below its name. -/
def dropDatabase (c : Catalog) (name : Text) (ifExists : Bool) : Except GatewayError Catalog :=
  let full := c.qualifyDatabase name
  if full = c.currentName then
    .error (.execution ("cannot drop database '" ++ full ++ "' as it is currently in use"))
  else if full ∉ c.databases then
    if ifExists then .ok c else .error (.notFound .database full)
  else .ok { c with
    databases := c.databases.erase full
    objects := c.objects.filter fun o _ => !below full o }

/-- Make a catalog current, and the database it begins with. -/
def useCatalog (c : Catalog) (name : Text) : Except GatewayError Catalog :=
  let name := catalogName name
  if name ∉ c.catalogs then .error (.notFound .catalog name)
  else .ok { c with currentCatalog := name, currentDatabase := defaultDatabase }

/-- Make a database current, and the catalog named by the first part of its full name. -/
def useDatabase (c : Catalog) (name : Text) : Except GatewayError Catalog :=
  let full := c.qualifyDatabase name
  if full ∉ c.databases then .error (.notFound .database full)
  else match Text.cutFirst? '.' full with
    | some (catalog, database) =>
      .ok { c with currentCatalog := catalog, currentDatabase := database }
    | none => .ok c

def hasCatalog (c : Catalog) (name : Text) : Bool := catalogName name ∈ c.catalogs

def hasDatabase (c : Catalog) (name : Text) : Bool := c.qualifyDatabase name ∈ c.databases

/-- The names of the catalogs, in their order. -/
def listCatalogs (c : Catalog) : List Text := c.catalogs.toList

/-- The names of the databases of the current catalog, in their order. -/
def listDatabases (c : Catalog) : List Text :=
  c.databases.toList.filterMap (nameBelow? c.currentCatalog)

end Catalog

end SqlConsole
