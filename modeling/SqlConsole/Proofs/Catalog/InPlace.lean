import SqlConsole.Proofs.Catalog.Housing
/-!
# Changes in place

The operations of a catalog are functions: they fail, or answer a changed catalog.  Here they are
procedures that read and write a catalog step by step (`InPlace`), so one that fails may have
written before: names are put in and taken out to see whether they were there, modules are taken
away before it is known that there was one, and moved to the front one by one.

Each procedure does what the function does, and where that fails it leaves what it found (`Does`).
Moving modules takes the names to be distinct on both sides: then the modules that are found one by
one are those of the given names, and the ones left over are the others (`on_takeModules`).  That
what fails changes nothing (`Atomic`) holds of every catalog (`atomic_act`).
-/

namespace SqlConsole

/-- A procedure that works on a state in place.  What it has written stays where it fails. -/
abbrev InPlace (σ α : Type) : Type := ExceptT GatewayError (StateM σ) α

variable {σ α β : Type} {s : σ}

/-- The answer of a function that fails, or answers with a changed state. -/
def settled (s : σ) : Except GatewayError (α × σ) → Except GatewayError α × σ
  | .ok (a, s) => (.ok a, s)
  | .error e => (.error e, s)

namespace InPlace

/-- What comes of a procedure, and the state behind it. -/
def on (p : InPlace σ α) (s : σ) : Except GatewayError α × σ := p.run s

/-- A procedure does what a function does, and leaves the state where that fails. -/
def Does (p : InPlace σ α) (s : σ) (made : Except GatewayError (α × σ)) : Prop :=
  p.on s = settled s made

/-- A procedure leaves the state where it fails. -/
def Atomic (p : InPlace σ α) (s : σ) : Prop := ∀ e s', p.on s = (.error e, s') → s' = s

theorem Does.atomic {p : InPlace σ α} {made : Except GatewayError (α × σ)} (h : p.Does s made) :
    p.Atomic s := by
  intro e s' hfails
  rw [h] at hfails
  cases made with
  | ok found => cases hfails
  | error _ => exact (Prod.mk.inj hfails).2.symm

/-! ## Steps -/

theorem on_get (s : σ) : (get : InPlace σ σ).on s = (.ok s, s) := rfl

theorem on_set (s s' : σ) : (set s' : InPlace σ PUnit).on s = (.ok ⟨⟩, s') := rfl

theorem on_bind (p : InPlace σ α) (f : α → InPlace σ β) (s : σ) :
    (p >>= f).on s =
      match p.on s with
      | (.ok a, s) => (f a).on s
      | (.error e, s) => (.error e, s) := by
  have hrun : (p >>= f).on s =
      (fun found : Except GatewayError α × σ => (ExceptT.bindCont f found.1 : StateM σ _) found.2)
        (p.on s) := rfl
  rw [hrun]
  rcases p.on s with ⟨e | a, s'⟩
  · rfl
  · rfl

theorem on_bind_ok {p : InPlace σ α} {f : α → InPlace σ β} {a : α} {s s' : σ}
    (h : p.on s = (.ok a, s')) : (p >>= f).on s = (f a).on s' := by
  rw [on_bind, h]

theorem on_bind_error {p : InPlace σ α} {f : α → InPlace σ β} {e : GatewayError} {s s' : σ}
    (h : p.on s = (.error e, s')) : (p >>= f).on s = (.error e, s') := by
  rw [on_bind, h]

end InPlace

namespace Catalog.InPlace

open SqlConsole.InPlace

/-! ## Sets of names -/

/-- Put a name in, and say whether it was not there before. -/
def put (name : Text) (names : Std.TreeSet Text) : Bool × Std.TreeSet Text :=
  if name ∈ names then (false, names) else (true, names.insert name)

/-- Take a name out, and say whether it was there. -/
def take (name : Text) (names : Std.TreeSet Text) : Bool × Std.TreeSet Text :=
  if name ∈ names then (true, names.erase name) else (false, names)

/-! ## Objects -/

def createObject (kind : ObjectKind) (name ddl : Text) (ifNotExists : Bool) :
    InPlace Catalog Bool := do
  let c ← get
  let full := c.qualify name
  let database := ((Text.cutLast? '.' full).map (·.1)).getD []
  if database ∉ c.databases then throw (.notFound .database database)
  if full ∈ c.objects then
    if ifNotExists then return false
    throw (.alreadyExists kind.nameKind full)
  modify fun c => { c with objects := c.objects.insert full ⟨kind, ddl⟩ }
  return true

theorem does_createObject (kind : ObjectKind) (name ddl : Text) (ifNotExists : Bool) (c : Catalog) :
    (createObject kind name ddl ifNotExists).Does c (c.createObject kind name ddl ifNotExists) := by
  unfold createObject Catalog.createObject
  rw [Does, on_bind_ok (on_get c)]
  dsimp only
  split
  · rfl
  split
  · split
    · rfl
    · rfl
  · rfl

def dropObject (kind : ObjectKind) (name : Text) (ifExists : Bool) : InPlace Catalog Unit := do
  let c ← get
  match c.require kind name with
  | .ok _ => modify fun c => { c with objects := c.objects.erase (c.qualify name) }
  | .error e => if !ifExists then throw e

theorem does_dropObject (kind : ObjectKind) (name : Text) (ifExists : Bool) (c : Catalog) :
    (dropObject kind name ifExists).Does c ((c.dropObject kind name ifExists).map ((), ·)) := by
  unfold dropObject Catalog.dropObject
  rw [Does, on_bind_ok (on_get c)]
  cases c.require kind name with
  | ok object => rfl
  | error e => cases ifExists <;> rfl

/-! ## Databases and catalogs -/

/-- The name is put in to see whether it is new. -/
def createDatabase (name : Text) (ifNotExists : Bool) : InPlace Catalog Unit := do
  let c ← get
  let full := c.qualifyDatabase name
  let catalog := full.takeWhile (· != '.')
  if catalog ∉ c.catalogs then throw (.notFound .catalog catalog)
  let (isNew, databases) := put full c.databases
  set { c with databases }
  if !isNew && !ifNotExists then throw (.alreadyExists .database full)

theorem does_createDatabase (name : Text) (ifNotExists : Bool) (c : Catalog) :
    (createDatabase name ifNotExists).Does c
      ((c.createDatabase name ifNotExists).map ((), ·)) := by
  unfold createDatabase Catalog.createDatabase put
  rw [Does, on_bind_ok (on_get c)]
  dsimp only
  split
  · rfl
  split
  · cases ifNotExists <;> rfl
  · rfl

/-- The name is taken out to see whether it was there. -/
def dropDatabase (name : Text) (ifExists : Bool) : InPlace Catalog Unit := do
  let c ← get
  let full := c.qualifyDatabase name
  if full = c.currentName then
    throw (.execution ("cannot drop database '" ++ full ++ "' as it is currently in use"))
  let (wasThere, databases) := take full c.databases
  set { c with databases }
  if wasThere then
    modify fun c => { c with objects := c.objects.filter fun o _ => !below full o }
  else if !ifExists then throw (.notFound .database full)

theorem does_dropDatabase (name : Text) (ifExists : Bool) (c : Catalog) :
    (dropDatabase name ifExists).Does c ((c.dropDatabase name ifExists).map ((), ·)) := by
  unfold dropDatabase Catalog.dropDatabase take
  rw [Does, on_bind_ok (on_get c)]
  dsimp only
  split
  · rfl
  by_cases hmem : c.qualifyDatabase name ∈ c.databases
  · rw [if_pos hmem, if_neg (not_not_intro hmem)]
    rfl
  · rw [if_neg hmem, if_pos hmem]
    cases ifExists <;> rfl

def createCatalog (name : Text) (ifNotExists : Bool) : InPlace Catalog Unit := do
  let c ← get
  let name := catalogName name
  if name ∈ c.catalogs then
    if !ifNotExists then throw (.alreadyExists .catalog name)
  else
    modify fun c => { c with databases := c.databases.insert (dotted [name, defaultDatabase]) }
    modify fun c => { c with catalogs := c.catalogs.insert name }

theorem does_createCatalog (name : Text) (ifNotExists : Bool) (c : Catalog) :
    (createCatalog name ifNotExists).Does c
      ((c.createCatalog name ifNotExists).map ((), ·)) := by
  unfold createCatalog Catalog.createCatalog
  rw [Does, on_bind_ok (on_get c)]
  dsimp only
  split
  · cases ifNotExists <;> rfl
  · rfl

/-- The name is taken out to see whether it was there. -/
def dropCatalog (name : Text) (ifExists : Bool) : InPlace Catalog Unit := do
  let c ← get
  let name := catalogName name
  if name = c.currentCatalog then
    throw (.execution ("cannot drop catalog '" ++ name ++ "' as it is currently in use"))
  let (wasThere, catalogs) := take name c.catalogs
  set { c with catalogs }
  if wasThere then
    modify fun c => { c with databases := c.databases.filter fun d => !below name d }
    modify fun c => { c with objects := c.objects.filter fun o _ => !below name o }
  else if !ifExists then throw (.notFound .catalog name)

theorem does_dropCatalog (name : Text) (ifExists : Bool) (c : Catalog) :
    (dropCatalog name ifExists).Does c ((c.dropCatalog name ifExists).map ((), ·)) := by
  unfold dropCatalog Catalog.dropCatalog take
  rw [Does, on_bind_ok (on_get c)]
  dsimp only
  split
  · rfl
  by_cases hmem : catalogName name ∈ c.catalogs
  · rw [if_pos hmem, if_neg (not_not_intro hmem)]
    rfl
  · rw [if_neg hmem, if_pos hmem]
    cases ifExists <;> rfl

/-! ## The current names -/

def useCatalog (name : Text) : InPlace Catalog Unit := do
  let c ← get
  let name := catalogName name
  if name ∉ c.catalogs then throw (.notFound .catalog name)
  modify fun c => { c with currentDatabase := defaultDatabase }
  modify fun c => { c with currentCatalog := name }

theorem does_useCatalog (name : Text) (c : Catalog) :
    (useCatalog name).Does c ((c.useCatalog name).map ((), ·)) := by
  unfold useCatalog Catalog.useCatalog
  rw [Does, on_bind_ok (on_get c)]
  dsimp only
  split
  · rfl
  · rfl

def useDatabase (name : Text) : InPlace Catalog Unit := do
  let c ← get
  let full := c.qualifyDatabase name
  if full ∉ c.databases then throw (.notFound .database full)
  match Text.cutFirst? '.' full with
  | some (catalog, database) =>
    modify fun c => { c with currentCatalog := catalog }
    modify fun c => { c with currentDatabase := database }
  | none => return

theorem does_useDatabase (name : Text) (c : Catalog) :
    (useDatabase name).Does c ((c.useDatabase name).map ((), ·)) := by
  unfold useDatabase Catalog.useDatabase
  rw [Does, on_bind_ok (on_get c)]
  dsimp only
  split
  · rfl
  · cases Text.cutFirst? '.' (c.qualifyDatabase name) with
    | none => rfl
    | some found => rfl

/-! ## Modules -/

def loadModule (name : Text) : InPlace Catalog Unit := do
  if (← get).isLoaded name then throw (.alreadyExists .module name)
  modify fun c => { c with modules := c.modules ++ [⟨name, true⟩] }

theorem does_loadModule (name : Text) (c : Catalog) :
    (loadModule name).Does c ((c.loadModule name).map ((), ·)) := by
  unfold loadModule Catalog.loadModule
  rw [Does, on_bind_ok (on_get c)]
  split
  · rfl
  · rfl

/-- Modules are taken away first, and counted to see whether there was one. -/
def unloadModule (name : Text) : InPlace Catalog Unit := do
  let before := (← get).modules.length
  modify fun c => { c with modules := c.modules.filter (·.name != name) }
  if (← get).modules.length = before then throw (.notFound .module name)

theorem does_unloadModule (name : Text) (c : Catalog) :
    (unloadModule name).Does c ((c.unloadModule name).map ((), ·)) := by
  have hrun : (unloadModule name).on c =
      (if (c.modules.filter (·.name != name)).length = c.modules.length then
        throw (.notFound .module name) else pure () : InPlace Catalog Unit).on
          { c with modules := c.modules.filter (·.name != name) } := rfl
  rw [Does, hrun, Catalog.unloadModule]
  by_cases hloaded : c.isLoaded name
  · have hfewer : (c.modules.filter (·.name != name)).length ≠ c.modules.length := by
      intro hlength
      obtain ⟨m, hm, hname⟩ := List.any_eq_true.1 hloaded
      have hother := List.length_filter_eq_length_iff.1 hlength m hm
      rw [bne, hname] at hother
      cases hother
    rw [if_neg hfewer, if_pos hloaded]
    rfl
  · have hnone : c.modules.filter (·.name != name) = c.modules :=
      List.filter_eq_self.2 fun m hm =>
        bne_iff_ne.2 fun heq => hloaded (List.any_eq_true.2 ⟨m, hm, beq_iff_eq.2 heq⟩)
    rw [hnone, if_pos rfl, if_neg hloaded]
    rfl

/-- Take modules out one by one, each from where it is found by then, and answer them. -/
def takeModules : List Text → InPlace Catalog (List Module)
  | [] => return []
  | name :: names => do
    let c ← get
    match c.modules.find? (·.name == name) with
    | some m =>
      set { c with modules := c.modules.eraseP (·.name == name) }
      return { m with used := true } :: (← takeModules names)
    | none => takeModules names

/-- All names are looked at before the first module is moved. -/
def useModules (names : List Text) : InPlace Catalog Unit := do
  match (← get).faultOfNames? [] names with
  | some fault => throw fault
  | none =>
    let used ← takeModules names
    modify fun c => { c with modules := used ++ c.modules.map fun m => { m with used := false } }

/-- Taking modules out never fails. -/
theorem exists_on_takeModules (names : List Text) (c : Catalog) :
    ∃ used d, (takeModules names).on c = (.ok used, d) := by
  induction names generalizing c with
  | nil => exact ⟨[], c, rfl⟩
  | cons name names ih =>
    rw [takeModules, on_bind_ok (on_get c)]
    cases hfind : c.modules.find? (·.name == name) with
    | none => exact ih c
    | some m =>
      dsimp only
      obtain ⟨used, d, hused⟩ := ih { c with modules := c.modules.eraseP (·.name == name) }
      exact ⟨_, d, (on_bind_ok (on_set c _)).trans (on_bind_ok hused)⟩

/-- Where names differ, a module that is found is the only one of its name. -/
theorem eraseP_eq_filter {ms : List Module} (h : (ms.map Module.name).Nodup) (name : Text) :
    ms.eraseP (·.name == name) = ms.filter (·.name != name) := by
  induction ms with
  | nil => rfl
  | cons m ms ih =>
    rw [List.map_cons, List.nodup_cons] at h
    rw [List.eraseP_cons, List.filter_cons]
    cases hm : m.name == name with
    | true =>
      have hrest : ∀ other ∈ ms, (other.name != name) = true := by
        intro other hother
        refine bne_iff_ne.2 fun heq => h.1 ?_
        rw [beq_iff_eq.1 hm, ← heq]
        exact List.mem_map_of_mem hother
      rw [bne, hm, List.filter_eq_self.2 hrest]
      rfl
    | false =>
      rw [bne, hm, ih h.2]
      rfl

/-- **Distinct names of distinct modules** are those of the modules that are taken out, and the
others are left. -/
theorem on_takeModules {names : List Text} {c : Catalog} (hc : DistinctModules c)
    (hnames : names.Nodup) (hloaded : ∀ name ∈ names, c.isLoaded name) :
    (takeModules names).on c = (.ok (names.map (⟨·, true⟩)),
      { c with modules := c.modules.filter fun m => m.name ∉ names }) := by
  induction names generalizing c with
  | nil =>
    have hall : c.modules.filter (fun m => m.name ∉ ([] : List Text)) = c.modules :=
      List.filter_eq_self.2 fun m _ => by simp
    rw [hall]
    rfl
  | cons name names ih =>
    obtain ⟨hfirst, hnames⟩ := List.nodup_cons.1 hnames
    obtain ⟨m, hfind⟩ : ∃ m, c.modules.find? (·.name == name) = some m :=
      Option.isSome_iff_exists.1
        (List.find?_isSome.2 (List.any_eq_true.1 (hloaded name List.mem_cons_self)))
    have hm : m.name = name := by simpa using List.find?_some hfind
    -- What is left holds all the other names.
    have hrest : (takeModules names).on { c with modules := c.modules.filter (·.name != name) } =
        (.ok (names.map (⟨·, true⟩)), { c with
          modules := (c.modules.filter (·.name != name)).filter fun m => m.name ∉ names }) := by
      refine ih ?_ hnames fun other hother => ?_
      · exact hc.sublist (List.filter_sublist.map Module.name)
      · obtain ⟨n, hn, hname⟩ :=
          List.any_eq_true.1 (hloaded other (List.mem_cons_of_mem name hother))
        refine List.any_eq_true.2 ⟨n, List.mem_filter.2 ⟨hn, bne_iff_ne.2 fun heq => ?_⟩, hname⟩
        exact hfirst ((heq.symm.trans (beq_iff_eq.1 hname)) ▸ hother)
    have hleft : (c.modules.filter (·.name != name)).filter (fun m => m.name ∉ names) =
        c.modules.filter fun m => m.name ∉ name :: names := by
      rw [List.filter_filter]
      refine List.filter_congr fun m _ => ?_
      rw [Bool.eq_iff_iff]
      simp [and_comm]
    rw [takeModules, on_bind_ok (on_get c), hfind]
    dsimp only
    rw [on_bind_ok (on_set c _), eraseP_eq_filter hc, on_bind_ok hrest, hleft, hm]
    rfl

theorem does_useModules {c : Catalog} (hc : DistinctModules c) (names : List Text) :
    (useModules names).Does c ((c.useModules names).map ((), ·)) := by
  rw [Does, useModules, on_bind_ok (on_get c), Catalog.useModules]
  cases hfault : c.faultOfNames? [] names with
  | some fault => rfl
  | none =>
    obtain ⟨hnames, hall⟩ := faultOfNames?_eq_none_iff.1 hfault
    have htaken := on_takeModules hc hnames fun name hname => (hall name hname).2
    exact (on_bind_ok htaken).trans rfl

/-- Names are refused before a module is moved, and then nothing fails. -/
theorem atomic_useModules (names : List Text) (c : Catalog) : (useModules names).Atomic c := by
  intro e d h
  rw [useModules, on_bind_ok (on_get c)] at h
  cases hfault : c.faultOfNames? [] names with
  | some fault =>
    rw [hfault] at h
    exact (Prod.mk.inj h).2.symm
  | none =>
    obtain ⟨used, left, hused⟩ := exists_on_takeModules names c
    rw [hfault] at h
    cases (on_bind_ok hused).symm.trans h

/-! ## Actions -/

/-- A change, step by step. -/
def change : Change → InPlace Catalog Unit
  | .createObject kind name ddl ifNotExists => do
    let _ ← createObject kind name ddl ifNotExists
  | .dropObject kind name ifExists => dropObject kind name ifExists
  | .createDatabase name ifNotExists => createDatabase name ifNotExists
  | .dropDatabase name ifExists => dropDatabase name ifExists
  | .useDatabase name => useDatabase name
  | .createCatalog name ifNotExists => createCatalog name ifNotExists
  | .dropCatalog name ifExists => dropCatalog name ifExists
  | .useCatalog name => useCatalog name

theorem does_change (ch : Change) (c : Catalog) :
    (change ch).Does c ((c.change ch).map ((), ·)) := by
  cases ch with
  | createObject kind name ddl ifNotExists =>
    have hdoes := does_createObject kind name ddl ifNotExists c
    rw [Does, change, Catalog.change]
    cases hmade : c.createObject kind name ddl ifNotExists with
    | ok made =>
      rw [hmade] at hdoes
      exact on_bind_ok hdoes
    | error e =>
      rw [hmade] at hdoes
      exact on_bind_error hdoes
  | dropObject kind name ifExists => exact does_dropObject kind name ifExists c
  | createDatabase name ifNotExists => exact does_createDatabase name ifNotExists c
  | dropDatabase name ifExists => exact does_dropDatabase name ifExists c
  | useDatabase name => exact does_useDatabase name c
  | createCatalog name ifNotExists => exact does_createCatalog name ifNotExists c
  | dropCatalog name ifExists => exact does_dropCatalog name ifExists c
  | useCatalog name => exact does_useCatalog name c

/-- An action, step by step. -/
def act : Action → InPlace Catalog Unit
  | .change ch => change ch
  | .loadModule name => loadModule name
  | .unloadModule name => unloadModule name
  | .useModules names => useModules names

/-- **An action does in place what it does as a function.** -/
theorem does_act {c : Catalog} (hc : DistinctModules c) (a : Action) :
    (act a).Does c ((c.act a).map ((), ·)) := by
  cases a with
  | change ch => exact does_change ch c
  | loadModule name => exact does_loadModule name c
  | unloadModule name => exact does_unloadModule name c
  | useModules names => exact does_useModules hc names

/-- **An action that fails leaves the catalog** as it was, whatever the catalog is. -/
theorem atomic_act (a : Action) (c : Catalog) : (act a).Atomic c := by
  cases a with
  | change ch => exact (does_change ch c).atomic
  | loadModule name => exact (does_loadModule name c).atomic
  | unloadModule name => exact (does_unloadModule name c).atomic
  | useModules names => exact atomic_useModules names c

end Catalog.InPlace

end SqlConsole
