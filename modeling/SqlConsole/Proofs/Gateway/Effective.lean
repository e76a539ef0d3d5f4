import SqlConsole.Proofs.Gateway.Jobs
import SqlConsole.Proofs.Gateway.Settled
/-!
# Effective properties

The effective properties are kept in two layers, the defaults and what was set over them.  Seen from
outside they are a log: the value of a key is the one that it was last set to, unless it was reset
since (`LastSet`), and its default otherwise.  Setting fails for values that a known setting cannot
read (`Property.Readable`) and for no others.

* `Property.check_eq_ok_iff`: what is checked is that known settings can read their values.
* `overrides_afterCalls_eq_some_iff`: whatever is asked of a gateway, the upper layer is the log.
* `properties_replay`: **the effective properties are the replay of the log**, and no known setting
  falls back to its own default where a value is present.
-/

namespace SqlConsole

/-! ## Known settings -/

/-- The settings whose values are checked. -/
inductive Setting.Known : {α : Type} → Setting α → Prop
  | resultMode : Known Setting.resultMode
  | dmlSync : Known Setting.dmlSync
  | verbose : Known Setting.verbose
  | runtimeMode : Known Setting.runtimeMode
  | maxColumnWidth : Known Setting.maxColumnWidth

/-- A known setting with this key, if there is one, can read the value. -/
def Property.Readable (key value : Text) : Prop :=
  ∀ {α : Type} (s : Setting α), s.Known → s.key = key → ∃ a, s.read? value = some a

/-- Known settings can read the properties that are there. -/
def Properties.Readable (p : Properties) : Prop :=
  ∀ key value, p[key]? = some value → Property.Readable key value

theorem Property.check_of_known {α : Type} {s : Setting α} (hs : s.Known) (value : Text) :
    check s.key value = checkSetting s value := by
  cases hs with
  | resultMode => rfl
  | dmlSync => rfl
  | verbose => rfl
  | runtimeMode => rfl
  | maxColumnWidth => rfl

theorem Property.check_of_unknown {key : Text}
    (h : ∀ {α : Type} (s : Setting α), s.Known → s.key ≠ key) (value : Text) :
    check key value = .ok () := by
  unfold check
  rw [if_neg (h _ .resultMode).symm, if_neg (h _ .dmlSync).symm, if_neg (h _ .verbose).symm,
    if_neg (h _ .runtimeMode).symm, if_neg (h _ .maxColumnWidth).symm]

/-- **A value is accepted exactly if a known setting with its key can read it.** -/
theorem Property.check_eq_ok_iff {key value : Text} :
    check key value = .ok () ↔ Readable key value := by
  constructor
  · intro hcheck α s hs hkey
    subst hkey
    rw [check_of_known hs, checkSetting] at hcheck
    cases hread : s.read? value with
    | some a => exact ⟨a, rfl⟩
    | none =>
      rw [hread] at hcheck
      cases hcheck
  · intro hreadable
    by_cases hknown : ∃ (α : Type) (s : Setting α), s.Known ∧ s.key = key
    · obtain ⟨α, s, hs, rfl⟩ := hknown
      obtain ⟨a, ha⟩ := hreadable s hs rfl
      rw [check_of_known hs, checkSetting, ha]
    · exact check_of_unknown (fun s hs hkey => hknown ⟨_, s, hs, hkey⟩) value

theorem Property.not_readable_iff {key value : Text} :
    ¬ Readable key value ↔
      ∃ (α : Type) (s : Setting α), s.Known ∧ s.key = key ∧ s.read? value = none := by
  constructor
  · intro hnot
    refine Classical.byContradiction fun hnone => hnot fun s hs hkey => ?_
    cases hread : s.read? value with
    | some a => exact ⟨a, rfl⟩
    | none => exact (hnone ⟨_, s, hs, hkey, hread⟩).elim
  · intro hunread hreadable
    obtain ⟨α, s, hs, hkey, hread⟩ := hunread
    obtain ⟨a, ha⟩ := hreadable s hs hkey
    rw [hread] at ha
    cases ha

/-! ## Logs -/

/-- A request gives a key a value or takes its value away. -/
def Request.Touches (key : Text) : Request → Prop
  | .setProperty k value => k = key ∧ Property.Readable k value
  | .resetProperty k => k = key
  | .resetProperties => True
  | _ => False

/-- A key was last set to a value, successfully, and not reset since. -/
def LastSet (log : List Request) (key value : Text) : Prop :=
  ∃ before behind, log = before ++ .setProperty key value :: behind ∧
    Property.Readable key value ∧ ∀ r ∈ behind, ¬ r.Touches key

theorem lastSet_cons_iff {r : Request} {log : List Request} {key value : Text} :
    LastSet (r :: log) key value ↔
      LastSet log key value ∨
        (r = .setProperty key value ∧ Property.Readable key value) ∧
          ∀ r ∈ log, ¬ r.Touches key := by
  constructor
  · rintro ⟨before, behind, heq, hreadable, hbehind⟩
    cases before with
    | nil =>
      obtain ⟨rfl, rfl⟩ := List.cons.inj heq
      exact .inr ⟨⟨rfl, hreadable⟩, hbehind⟩
    | cons first before =>
      obtain ⟨rfl, rfl⟩ := List.cons.inj heq
      exact .inl ⟨before, behind, rfl, hreadable, hbehind⟩
  · rintro (⟨before, behind, rfl, hreadable, hbehind⟩ | ⟨⟨rfl, hreadable⟩, hbehind⟩)
    · exact ⟨r :: before, behind, rfl, hreadable, hbehind⟩
    · exact ⟨[], log, rfl, hreadable, hbehind⟩

namespace Local

variable {g : Local} {token : CancelToken} {i : Interrupts}

/-! ## One request -/

/-- Setting fails with a value that cannot be read, and nothing is changed. -/
theorem handle_setProperty_of_not_readable {key value : Text}
    (h : ¬ Property.Readable key value) (token : CancelToken) (g : Local) (i : Interrupts) :
    ∃ e, handle (.setProperty key value) token g i = (.error e, g, i) := by
  have hset : ∃ e, settle g ((g.setProperty key value).map ((), ·)) = (.error e, g) := by
    rw [setProperty]
    cases hcheck : Property.check key value with
    | ok u => exact (h (Property.check_eq_ok_iff.1 hcheck)).elim
    | error fault => exact ⟨.invalidProperty fault, rfl⟩
  obtain ⟨e, he⟩ := hset
  exact ⟨e, congrArg (fun settled => (settled.1, settled.2, i)) he⟩

/-- Setting fails exactly where a known setting with the key cannot read the value. -/
theorem handle_setProperty_fails (key value : Text) (token : CancelToken) (g : Local)
    (i : Interrupts) :
    ((∃ e, (handle (.setProperty key value) token g i).1 = .error e) ↔
      ∃ (α : Type) (s : Setting α), s.Known ∧ s.key = key ∧ s.read? value = none) ∧
    ∀ e, (handle (.setProperty key value) token g i).1 = .error e →
      (handle (.setProperty key value) token g i).2 = (g, i) := by
  rw [← Property.not_readable_iff]
  by_cases hreadable : Property.Readable key value
  · rw [handle_setProperty_of_accepted (Property.check_eq_ok_iff.2 hreadable)]
    refine ⟨⟨fun hfails => ?_, fun hnot => (hnot hreadable).elim⟩, fun e he => by cases he⟩
    obtain ⟨e, he⟩ := hfails
    cases he
  · obtain ⟨e, he⟩ := handle_setProperty_of_not_readable hreadable token g i
    rw [he]
    exact ⟨⟨fun _ => hreadable, fun _ => ⟨e, rfl⟩⟩, fun _ _ => rfl⟩

/-- A request that is none about properties leaves both layers as they are. -/
theorem layers_handle_of_other {r : Request} (hset : ∀ key value, r ≠ .setProperty key value)
    (hreset : ∀ key, r ≠ .resetProperty key) (hall : r ≠ .resetProperties) :
    (handle r token g i).2.1.defaults = g.defaults ∧
      (handle r token g i).2.1.overrides = g.overrides := by
  cases r with
  | setProperty key value => exact (hset key value rfl).elim
  | resetProperty key => exact (hreset key rfl).elim
  | resetProperties => exact (hall rfl).elim
  | query statement =>
    unfold handle
    dsimp only
    split
    · exact ⟨rfl, rfl⟩
    · refine settle_snd (P := fun d => d.defaults = g.defaults ∧ d.overrides = g.overrides)
        ⟨rfl, rfl⟩ fun descriptor d hd => ?_
      rw [(eq_of_query hd).2]
      exact ⟨rfl, rfl⟩
  | modify ms =>
    unfold handle
    dsimp only
    split
    · exact ⟨rfl, rfl⟩
    · obtain ⟨catalog, jobs, ids, heq⟩ := exists_modify_eq g ms
      rw [heq]
      exact ⟨rfl, rfl⟩
  | execute op =>
    obtain ⟨catalog, jars, jobs, ids, heq⟩ := exists_execute_eq g op
    change (g.execute op).2.defaults = _ ∧ (g.execute op).2.overrides = _
    rw [heq]
    exact ⟨rfl, rfl⟩
  | removeJar path =>
    refine settle_done (P := fun d => d.defaults = g.defaults ∧ d.overrides = g.overrides)
      ⟨rfl, rfl⟩ fun d hd => ?_
    obtain ⟨jars, rfl⟩ := exists_of_removeJar hd
    exact ⟨rfl, rfl⟩
  | stopJob job savepoint drain =>
    refine settle_snd (P := fun d => d.defaults = g.defaults ∧ d.overrides = g.overrides)
      ⟨rfl, rfl⟩ fun path d hd => ?_
    obtain ⟨-, jobs, savepoints, rfl⟩ := exists_of_stopJob hd
    exact ⟨rfl, rfl⟩

/-- The defaults stay as they are. -/
theorem defaults_handle (r : Request) : (handle r token g i).2.1.defaults = g.defaults := by
  cases r with
  | setProperty key value =>
    by_cases hreadable : Property.Readable key value
    · rw [handle_setProperty_of_accepted (Property.check_eq_ok_iff.2 hreadable)]
    · obtain ⟨e, he⟩ := handle_setProperty_of_not_readable hreadable token g i
      rw [he]
  | resetProperty | resetProperties => rfl
  | query | modify | execute | removeJar | stopJob =>
    apply (layers_handle_of_other _ _ _).1
    all_goals intros; exact Request.noConfusion

/-- A request that leaves the upper layer as it is, and neither sets the key nor touches it. -/
theorem overrides_handle_of_kept {r : Request} {key value : Text}
    (hsame : (handle r token g i).2.1.overrides = g.overrides)
    (hset : ¬ (r = .setProperty key value ∧ Property.Readable key value))
    (htouches : ¬ r.Touches key) :
    (handle r token g i).2.1.overrides[key]? = some value ↔
      (r = .setProperty key value ∧ Property.Readable key value) ∨
        g.overrides[key]? = some value ∧ ¬ r.Touches key := by
  rw [hsame]
  constructor
  · intro hvalue
    exact .inr ⟨hvalue, htouches⟩
  · rintro (hset' | ⟨hvalue, -⟩)
    · exact (hset hset').elim
    · exact hvalue

theorem overrides_handle_setProperty (k v : Text) (token : CancelToken) (g : Local)
    (i : Interrupts) {key value : Text} :
    (handle (.setProperty k v) token g i).2.1.overrides[key]? = some value ↔
      (Request.setProperty k v = .setProperty key value ∧ Property.Readable key value) ∨
        g.overrides[key]? = some value ∧ ¬ (Request.setProperty k v).Touches key := by
  by_cases hreadable : Property.Readable k v
  · rw [handle_setProperty_of_accepted (Property.check_eq_ok_iff.2 hreadable)]
    dsimp only
    simp only [Std.TreeMap.getElem?_insert, Std.LawfulEqCmp.compare_eq_iff_eq]
    by_cases hk : k = key
    · subst hk
      rw [if_pos rfl]
      constructor
      · intro hvalue
        obtain rfl : v = value := Option.some.inj hvalue
        exact .inl ⟨rfl, hreadable⟩
      · rintro (⟨hset, -⟩ | ⟨-, htouches⟩)
        · rw [(Request.setProperty.inj hset).2]
        · exact (htouches ⟨rfl, hreadable⟩).elim
    · rw [if_neg hk]
      constructor
      · intro hvalue
        exact .inr ⟨hvalue, fun htouches => hk htouches.1⟩
      · rintro (⟨hset, -⟩ | ⟨hvalue, -⟩)
        · exact (hk (Request.setProperty.inj hset).1).elim
        · exact hvalue
  · obtain ⟨e, he⟩ := handle_setProperty_of_not_readable hreadable token g i
    refine overrides_handle_of_kept (by rw [he]) ?_ fun htouches => hreadable htouches.2
    rintro ⟨hset, hreadable'⟩
    obtain ⟨rfl, rfl⟩ := Request.setProperty.inj hset
    exact hreadable hreadable'

/-- **One request and the upper layer**: a key has a value behind it if it is set to it, or had it
before and is not touched. -/
theorem overrides_handle_eq_some_iff (r : Request) (token : CancelToken) (g : Local)
    (i : Interrupts) {key value : Text} :
    (handle r token g i).2.1.overrides[key]? = some value ↔
      (r = .setProperty key value ∧ Property.Readable key value) ∨
        g.overrides[key]? = some value ∧ ¬ r.Touches key := by
  cases r with
  | setProperty k v => exact overrides_handle_setProperty k v token g i
  | resetProperty k =>
    change (g.overrides.erase k)[key]? = some value ↔ _
    simp only [Std.TreeMap.getElem?_erase, Std.LawfulEqCmp.compare_eq_iff_eq]
    by_cases hk : k = key
    · rw [if_pos hk]
      simp [Request.Touches, hk]
    · rw [if_neg hk]
      simp [Request.Touches, hk]
  | resetProperties =>
    change (∅ : Properties)[key]? = some value ↔ _
    simp [Request.Touches]
  | query | modify | execute | removeJar | stopJob =>
    refine overrides_handle_of_kept (layers_handle_of_other ?_ ?_ ?_).2 ?_ id
    all_goals simp

/-! ## All requests -/

theorem defaults_afterCalls (calls : List Call) : (g.afterCalls calls).defaults = g.defaults := by
  induction calls generalizing g with
  | nil => rfl
  | cons call calls ih =>
    have hstep : (g.afterCall call).defaults = g.defaults := defaults_handle _
    exact ih.trans hstep

/-- **The upper layer is the log**, over what was there before. -/
theorem overrides_afterCalls_eq_some_iff (calls : List Call) {key value : Text} :
    (g.afterCalls calls).overrides[key]? = some value ↔
      LastSet (calls.map Call.request) key value ∨
        g.overrides[key]? = some value ∧ ∀ r ∈ calls.map Call.request, ¬ r.Touches key := by
  induction calls generalizing g with
  | nil => simp [afterCalls, LastSet]
  | cons call calls ih =>
    have hstep : (g.afterCall call).overrides[key]? = some value ↔ _ :=
      overrides_handle_eq_some_iff call.request call.token g call.interrupts
    change ((g.afterCall call).afterCalls calls).overrides[key]? = some value ↔ _
    rw [ih, hstep, List.map_cons, lastSet_cons_iff, List.forall_mem_cons]
    constructor
    · rintro (hlast | ⟨hset | ⟨hvalue, hfirst⟩, hrest⟩)
      · exact .inl (.inl hlast)
      · exact .inl (.inr ⟨hset, hrest⟩)
      · exact .inr ⟨hvalue, hfirst, hrest⟩
    · rintro ((hlast | ⟨hset, hrest⟩) | ⟨hvalue, hfirst, hrest⟩)
      · exact .inl hlast
      · exact .inr ⟨.inl hset, hrest⟩
      · exact .inr ⟨.inr ⟨hvalue, hfirst⟩, hrest⟩

variable {defaults : Properties} {savepointDir : Text} {ids : JobIds}

/-- In the beginning nothing is set. -/
theorem overrides_eq_some_iff_lastSet (calls : List Call) {key value : Text} :
    ((ofDefaults defaults savepointDir ids).afterCalls calls).overrides[key]? = some value ↔
      LastSet (calls.map Call.request) key value := by
  rw [overrides_afterCalls_eq_some_iff]
  have hnone : (ofDefaults defaults savepointDir ids).overrides[key]? = none :=
    Std.TreeMap.getElem?_emptyc
  simp [hnone]

/-- What is not set has its default, given or built in. -/
theorem properties_afterCalls (calls : List Call) (key : Text) :
    ((ofDefaults defaults savepointDir ids).afterCalls calls).properties[key]? =
      ((ofDefaults defaults savepointDir ids).afterCalls calls).overrides[key]?.or
        (defaults[key]?.or builtinDefaults[key]?) := by
  rw [properties, Std.TreeMap.getElem?_union, defaults_afterCalls]
  change Option.or _ (builtinDefaults ∪ defaults)[key]? = _
  rw [Std.TreeMap.getElem?_union]

/-! ## What is there can be read -/

theorem readable_builtinDefaults : builtinDefaults.Readable := by
  intro key value hvalue
  exact Property.check_eq_ok_iff.1 (settled_builtinDefaults key value hvalue).accepted

/-- What was set could be read, so only the given defaults might not be readable. -/
theorem readable_properties (h : defaults.Readable) (calls : List Call) :
    ((ofDefaults defaults savepointDir ids).afterCalls calls).properties.Readable := by
  intro key value hvalue
  rw [properties_afterCalls, Option.or_eq_some_iff, Option.or_eq_some_iff] at hvalue
  rcases hvalue with hset | ⟨-, hgiven | ⟨-, hbuiltin⟩⟩
  · obtain ⟨before, behind, -, hreadable, -⟩ := (overrides_eq_some_iff_lastSet calls).1 hset
    exact hreadable
  · exact h key value hgiven
  · exact readable_builtinDefaults key value hbuiltin

/-- **Properties are the replay of the log.**  Behind any requests to a new gateway, a key has the
value that it was last set to if it was not reset since, and otherwise its given or its built-in
default, if there is one.  Setting fails exactly where a known setting with the key cannot read the
value, and changes nothing then.  If the given defaults can be read, the known settings read whatever
value is there. -/
theorem properties_replay (defaults : Properties) (savepointDir : Text) (ids : JobIds)
    (calls : List Call) :
    let g := (ofDefaults defaults savepointDir ids).afterCalls calls
    let log := calls.map Call.request
    (∀ key value, LastSet log key value → g.properties[key]? = some value) ∧
      (∀ key, (∀ value, ¬ LastSet log key value) →
        g.properties[key]? = defaults[key]?.or builtinDefaults[key]?) ∧
      (∀ key value token i,
        ((∃ e, (handle (.setProperty key value) token g i).1 = .error e) ↔
          ∃ (α : Type) (s : Setting α), s.Known ∧ s.key = key ∧ s.read? value = none) ∧
        ∀ e, (handle (.setProperty key value) token g i).1 = .error e →
          (handle (.setProperty key value) token g i).2 = (g, i)) ∧
      (defaults.Readable → ∀ (α : Type) (s : Setting α) (value : Text), s.Known →
        g.properties[s.key]? = some value → s.read? value = some (s.get g.properties)) := by
  intro g log
  refine ⟨?_, ?_, fun key value token i => handle_setProperty_fails key value token g i, ?_⟩
  · intro key value hlast
    rw [properties_afterCalls, (overrides_eq_some_iff_lastSet calls).2 hlast, Option.some_or]
  · intro key hnever
    have hunset : g.overrides[key]? = none := by
      cases hvalue : g.overrides[key]? with
      | none => rfl
      | some value => exact (hnever value ((overrides_eq_some_iff_lastSet calls).1 hvalue)).elim
    rw [properties_afterCalls, hunset, Option.none_or]
  · intro hdefaults α s value hs hvalue
    obtain ⟨a, ha⟩ := readable_properties hdefaults calls s.key value hvalue s hs rfl
    rw [Setting.get, hvalue, Option.bind_some, ha]
    rfl

/-- A key is set, reset with all others, and set again, while a setting is refused. -/
def changes : List Request :=
  [.setProperty "a" "1", .setProperty Setting.dmlSync.key "on", .resetProperties,
    .setProperty "a" "2", .resetProperty "b"]

theorem properties_replay_changes :
    let defaults : Properties := (∅ : Properties).insert "b" "3"
    let g := (ofDefaults defaults defaultSavepointDir {}).afterCalls (quietly changes)
    LastSet changes "a" "2" ∧ (∀ value, ¬ LastSet changes "b" value) ∧ defaults.Readable ∧
      g.properties[("a" : Text)]? = some "2" ∧ g.properties[("b" : Text)]? = some "3" ∧
      (∃ e, (handle (.setProperty Setting.dmlSync.key "on") 0 g {}).1 = .error e) ∧
      Setting.dmlSync.read? "false" = some (Setting.dmlSync.get g.properties) := by
  intro defaults g
  have hlast : LastSet changes "a" "2" := by
    refine ⟨changes.take 3, [.resetProperty "b"], rfl, Property.check_eq_ok_iff.1 rfl, ?_⟩
    intro r hr htouches
    obtain rfl := List.mem_singleton.1 hr
    exact absurd htouches (by show ¬ ("b" : Text) = "a"; decide)
  have hnever : ∀ value, ¬ LastSet changes "b" value := by
    rintro value ⟨before, behind, heq, -, -⟩
    have hmem : Request.setProperty "b" value ∈ changes := by rw [heq]; simp
    have hkeys : ∀ r ∈ changes, ∀ v, r ≠ .setProperty "b" v := by
      intro r hr v heq
      subst heq
      have hkey : ("b" : Text) = "a" ∨ ("b" : Text) = Setting.dmlSync.key := by
        simp only [changes, List.mem_cons, Request.setProperty.injEq] at hr
        grind
      revert hkey
      decide
    exact hkeys _ hmem value rfl
  have hreadable : defaults.Readable := by
    intro key value hvalue
    simp only [defaults, Std.TreeMap.getElem?_insert, Std.LawfulEqCmp.compare_eq_iff_eq] at hvalue
    split at hvalue
    · next hkey =>
      obtain rfl := hkey
      obtain rfl := Option.some.inj hvalue
      exact Property.check_eq_ok_iff.1 rfl
    · simp at hvalue
  obtain ⟨hset, hunset, hfails, hread⟩ :=
    properties_replay defaults defaultSavepointDir {} (quietly changes)
  have hsync : g.properties[Setting.dmlSync.key]? = some "false" := by decide +kernel
  refine ⟨hlast, hnever, hreadable, hset _ _ hlast, (hunset _ hnever).trans ?_, ?_,
    hread hreadable _ _ _ .dmlSync hsync⟩
  · decide +kernel
  · exact (hfails _ _ 0 {}).1.2 ⟨_, Setting.dmlSync, .dmlSync, rfl, by decide +kernel⟩

end Local

end SqlConsole
