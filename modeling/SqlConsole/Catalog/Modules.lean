import SqlConsole.Catalog.Basic
/-!
# Modules

Modules are loaded and unloaded one by one.  `useModules` brings some of them to the front, in a
given order, and only those can be used afterwards.
-/

namespace SqlConsole.Catalog

def isLoaded (c : Catalog) (name : Text) : Bool := c.modules.any (·.name == name)

/-- Load a module behind all others. -/
def loadModule (c : Catalog) (name : Text) : Except GatewayError Catalog :=
  if c.isLoaded name then .error (.alreadyExists .module name)
  else .ok { c with modules := c.modules ++ [⟨name, true⟩] }

def unloadModule (c : Catalog) (name : Text) : Except GatewayError Catalog :=
  if c.isLoaded name then .ok { c with modules := c.modules.filter (·.name != name) }
  else .error (.notFound .module name)

/-- The first fault among names that are to be used: a name that was there before, or that is no
module's name. -/
def faultOfNames? (c : Catalog) (seen : List Text) : List Text → Option GatewayError
  | [] => none
  | name :: names =>
    if name ∈ seen then
      some (.execution ("module '" ++ name ++ "' appears more than once"))
    else if c.isLoaded name then faultOfNames? c (name :: seen) names
    else some (.notFound .module name)

/-- Let exactly the given modules be used, in the given order and before all others.  The others
stay loaded in their order. -/
def useModules (c : Catalog) (names : List Text) : Except GatewayError Catalog :=
  match faultOfNames? c [] names with
  | some fault => .error fault
  | none =>
    let others := c.modules.filter fun m => m.name ∉ names
    .ok { c with
      modules := names.map (⟨·, true⟩) ++ others.map fun m => { m with used := false } }

end SqlConsole.Catalog
