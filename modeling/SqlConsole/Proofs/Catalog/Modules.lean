import SqlConsole.Catalog.Modules
/-!
# Names of modules

Modules are found by their names, so no two of them may have the same one (`DistinctModules`).
Loading looks for the name first, unloading only takes away, and a list of names to be used is
accepted exactly if the names are distinct and all loaded (`faultOfNames?_eq_none_iff`); those come
to the front and leave their old places.
-/

namespace SqlConsole.Catalog

/-- No two modules have the same name. -/
def DistinctModules (c : Catalog) : Prop := (c.modules.map Module.name).Nodup

variable {c d : Catalog}

theorem isLoaded_iff {name : Text} : c.isLoaded name ↔ name ∈ c.modules.map Module.name := by
  simp [isLoaded]

theorem distinctModules_empty : DistinctModules empty := by
  simp [DistinctModules, empty]

/-- Names can be used if they are distinct, were not seen before, and are all loaded. -/
theorem faultOfNames?_eq_none_iff {seen names : List Text} :
    c.faultOfNames? seen names = none ↔
      names.Nodup ∧ ∀ name ∈ names, name ∉ seen ∧ c.isLoaded name := by
  induction names generalizing seen with
  | nil => simp [faultOfNames?]
  | cons name names ih =>
    rw [faultOfNames?]
    by_cases hseen : name ∈ seen
    · simp [hseen]
    by_cases hloaded : c.isLoaded name
    · rw [if_neg hseen, if_pos hloaded, ih, List.nodup_cons]
      constructor
      · rintro ⟨hnodup, hall⟩
        refine ⟨⟨fun hmem => (hall name hmem).1 List.mem_cons_self, hnodup⟩, ?_⟩
        intro other hother
        rcases List.mem_cons.1 hother with rfl | hmem
        · exact ⟨hseen, hloaded⟩
        · exact ⟨fun h => (hall other hmem).1 (List.mem_cons_of_mem _ h), (hall other hmem).2⟩
      · rintro ⟨⟨hfirst, hnodup⟩, hall⟩
        refine ⟨hnodup, fun other hmem => ?_⟩
        obtain ⟨hother, hother'⟩ := hall other (List.mem_cons_of_mem _ hmem)
        refine ⟨fun h => ?_, hother'⟩
        rcases List.mem_cons.1 h with rfl | h
        · exact hfirst hmem
        · exact hother h
    · simp [hseen, hloaded]

theorem distinctModules_loadModule (h : DistinctModules c) {name : Text}
    (hd : c.loadModule name = .ok d) : DistinctModules d := by
  unfold loadModule at hd
  split at hd
  · cases hd
  next hloaded =>
  obtain rfl := Except.ok.inj hd
  rw [isLoaded_iff] at hloaded
  rw [DistinctModules, List.map_append, List.nodup_append]
  refine ⟨h, by simp, ?_⟩
  intro loaded hmem other hother heq
  obtain rfl : other = name := List.mem_singleton.1 hother
  exact hloaded (heq ▸ hmem)

theorem distinctModules_unloadModule (h : DistinctModules c) {name : Text}
    (hd : c.unloadModule name = .ok d) : DistinctModules d := by
  unfold unloadModule at hd
  split at hd
  · obtain rfl := Except.ok.inj hd
    exact h.sublist (List.filter_sublist.map Module.name)
  · cases hd

/-- Modules that are used leave their old places. -/
theorem distinctModules_useModules (h : DistinctModules c) {names : List Text}
    (hd : c.useModules names = .ok d) : DistinctModules d := by
  unfold useModules at hd
  cases hfault : c.faultOfNames? [] names with
  | some fault =>
    rw [hfault] at hd
    cases hd
  | none =>
    rw [hfault] at hd
    obtain rfl := Except.ok.inj hd
    obtain ⟨hnames, -⟩ := faultOfNames?_eq_none_iff.1 hfault
    have hused : (names.map fun name => (⟨name, true⟩ : Module)).map Module.name = names := by
      rw [List.map_map]
      exact List.map_id names
    have hunused (ms : List Module) :
        (ms.map fun m => { m with used := false }).map Module.name = ms.map Module.name := by
      rw [List.map_map]
      rfl
    rw [DistinctModules, List.map_append, hused, hunused, List.nodup_append]
    refine ⟨hnames, h.sublist (List.filter_sublist.map Module.name), ?_⟩
    rintro name hmem other hother rfl
    obtain ⟨m, hm, rfl⟩ := List.mem_map.1 hother
    exact of_decide_eq_true (List.mem_filter.1 hm).2 hmem

end SqlConsole.Catalog
