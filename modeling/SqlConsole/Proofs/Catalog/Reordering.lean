import SqlConsole.Proofs.Catalog.InPlace
/-!
# Modules in a new order

Some modules are brought to the front, and the others follow.  `Reorders` says what that is without
saying how it is done: the given names come first and are used, the others keep the order that they
had and are not used, and together they are the names that were there.  Where modules differ in
their names there is one such list at most (`Reorders.unique`).

* `reorders_useModules`: modules that are used are reordered.
* `useModules_reorders`: **in every catalog that can come about, names are brought to the front
  exactly if they are distinct and loaded**, and there is one way to do so; the modules moved one by
  one end up in that order, and where a name is refused none of them is moved.
-/

namespace SqlConsole.Catalog

variable {c d : Catalog} {names : List Text} {before after : List Module}

/-! ## Orders of modules -/

/-- Modules of some names, used, in front of all others, unused and in the order that they had. -/
def Reorders (names : List Text) (before after : List Module) : Prop :=
  ∃ others : List Text, others.Sublist (before.map Module.name) ∧
    (names ++ others).Perm (before.map Module.name) ∧
    after = names.map (⟨·, true⟩) ++ others.map (⟨·, false⟩)

/-- No module is lost and none is there twice. -/
theorem Reorders.perm (h : Reorders names before after) :
    (after.map Module.name).Perm (before.map Module.name) := by
  obtain ⟨others, -, hperm, rfl⟩ := h
  rw [List.map_append, List.map_map, List.map_map]
  have hname (used : Bool) : Module.name ∘ (⟨·, used⟩) = (id : Text → Text) := rfl
  rw [hname, hname, List.map_id, List.map_id]
  exact hperm

/-- The names that follow are those that are not brought to the front. -/
theorem eq_filter_of_perm {others all : List Text} (hall : all.Nodup) (hsub : others.Sublist all)
    (hperm : (names ++ others).Perm all) : others = all.filter (· ∉ names) := by
  have hapart : ∀ name ∈ others, name ∉ names := by
    intro name hother hname
    exact (List.nodup_append.1 (hperm.nodup_iff.2 hall)).2.2 name hname name hother rfl
  have hothers : others.filter (· ∉ names) = others :=
    List.filter_eq_self.2 fun name hname => decide_eq_true (hapart name hname)
  have hnames : names.filter (· ∉ names) = [] :=
    List.filter_eq_nil_iff.2 fun name hname hout => of_decide_eq_true hout hname
  have hsame : others.Perm (all.filter (· ∉ names)) := by
    have hfiltered := hperm.filter (· ∉ names)
    rwa [List.filter_append, hnames, hothers, List.nil_append] at hfiltered
  have hinside : others.Sublist (all.filter (· ∉ names)) := by
    have hfiltered := hsub.filter (· ∉ names)
    rwa [hothers] at hfiltered
  exact hinside.eq_of_length hsame.length_eq

/-- **There is one order at most** in which names are brought to the front of distinct modules. -/
theorem Reorders.unique {other : List Module} (hbefore : (before.map Module.name).Nodup)
    (h : Reorders names before after) (h' : Reorders names before other) : other = after := by
  obtain ⟨others, hsub, hperm, rfl⟩ := h
  obtain ⟨others', hsub', hperm', rfl⟩ := h'
  rw [eq_filter_of_perm hbefore hsub hperm, eq_filter_of_perm hbefore hsub' hperm']

/-! ## Using modules -/

/-- Names can be used if they are distinct and loaded. -/
def Usable (c : Catalog) (names : List Text) : Prop :=
  names.Nodup ∧ ∀ name ∈ names, c.isLoaded name

theorem faultOfNames?_eq_none_iff_usable : c.faultOfNames? [] names = none ↔ c.Usable names := by
  rw [faultOfNames?_eq_none_iff, Usable]
  simp

/-- Names that can be used are taken from among those of the modules. -/
theorem Usable.perm (h : c.Usable names) (hc : DistinctModules c) :
    (names ++ (c.modules.map Module.name).filter (· ∉ names)).Perm (c.modules.map Module.name) := by
  have hfront : names.Perm ((c.modules.map Module.name).filter (· ∈ names)) := by
    refine (List.perm_ext_iff_of_nodup h.1 (hc.sublist List.filter_sublist)).2 fun name => ?_
    rw [List.mem_filter, decide_eq_true_eq]
    exact ⟨fun hname => ⟨isLoaded_iff.1 (h.2 name hname), hname⟩, And.right⟩
  have hparts := List.filter_append_perm (· ∈ names) (c.modules.map Module.name)
  refine (hfront.append_right _).trans (.trans (.of_eq ?_) hparts)
  exact congrArg _ (List.filter_congr fun name _ => decide_not)

/-- **Modules that are used are reordered**, and nothing else of the catalog is changed. -/
theorem reorders_useModules (hc : DistinctModules c) (h : c.Usable names) :
    ∃ modules, c.useModules names = .ok { c with modules } ∧ Reorders names c.modules modules := by
  refine ⟨_, by rw [useModules, faultOfNames?_eq_none_iff_usable.2 h], ?_⟩
  refine ⟨(c.modules.map Module.name).filter (· ∉ names), List.filter_sublist, h.perm hc, ?_⟩
  rw [List.filter_map, List.map_map]
  rfl

/-- **USE MODULES is an exact reordering**, in every catalog that can come about.  It succeeds
exactly if the names are distinct and all loaded.  Then the modules behind it are those before it
with the given ones in front, and no other list is: none is lost and none is there twice.
Otherwise nothing is changed.  Both are said of the modules as they are moved one by one, and what
comes of that is what the function answers. -/
theorem useModules_reorders (actions : List Action) (names : List Text) :
    let c := empty.afterActions actions
    match (InPlace.useModules names).on c with
    | (.ok _, d) => c.Usable names ∧ c.useModules names = .ok d ∧
        d = { c with modules := d.modules } ∧
        (d.modules.map Module.name).Perm (c.modules.map Module.name) ∧
        ∀ modules, Reorders names c.modules modules ↔ modules = d.modules
    | (.error e, d) => ¬ c.Usable names ∧ c.useModules names = .error e ∧ d = c := by
  intro c
  have hc : DistinctModules c := (housed_afterActions housed_empty actions).modules
  rw [InPlace.does_useModules hc names]
  by_cases h : c.Usable names
  · obtain ⟨modules, hused, hreorders⟩ := reorders_useModules hc h
    rw [hused]
    refine ⟨h, rfl, rfl, hreorders.perm, fun other => ⟨hreorders.unique hc, ?_⟩⟩
    rintro rfl
    exact hreorders
  · obtain ⟨fault, hfault⟩ : ∃ fault, c.faultOfNames? [] names = some fault :=
      Option.ne_none_iff_exists'.1 (mt faultOfNames?_eq_none_iff_usable.1 h)
    have hrefused : c.useModules names = .error fault := by
      rw [useModules, hfault]
    rw [hrefused]
    exact ⟨h, rfl, rfl⟩

example : ((empty.afterActions [.loadModule "hive", .useModules ["hive"]]).modules) =
    [⟨"hive", true⟩, ⟨"core", false⟩] := by decide

end SqlConsole.Catalog
