import SqlConsole.Proofs.Gateway.Replies
/-!
# Settled properties

A property is settled if nothing is trimmed off it and its value is one that it may have
(`Property.Settled`).  It can be set again, and that is accepted (`handle_setProperty_of_accepted`).
Setting and resetting properties leaves settled ones settled (`settled_handle`), so the effective
properties are settled if the defaults are (`settled_properties`).

Properties come in the order of their keys (`sorted_toList`), and this order leaves no choice
(`eq_of_sorted`).
-/

namespace SqlConsole

/-! ## Order -/

/-- Texts are compared by the first character in which they differ. -/
theorem Text.compare_eq_lt {s t : Text} : compare s t = .lt ↔ s < t := by
  have hlt (c d : Char) : compare c d = .lt ↔ c < d := compareOfLessAndEq_eq_lt
  have heq (c d : Char) : compare c d = .eq ↔ c = d := Std.LawfulEqCmp.compare_eq_iff_eq
  induction s generalizing t with
  | nil =>
    cases t with
    | nil => simp
    | cons d t => simp
  | cons c s ih =>
    cases t with
    | nil => simp
    | cons d t =>
      have htail : compare s t = .lt ↔ s < t := ih
      rw [List.compare_cons_cons, Ordering.then_eq_lt, List.cons_lt_cons_iff, hlt, heq, htail]

namespace Properties

/-- Properties come in the order of their keys. -/
theorem sorted_toList (p : Properties) : p.toList.Pairwise fun a b => a.1 < b.1 :=
  p.ordered_keys_toList.imp Text.compare_eq_lt.1

/-- There is one way to put properties in the order of their keys. -/
theorem eq_of_sorted {es fs : List (Text × Text)} (hes : es.Pairwise fun a b => a.1 < b.1)
    (hfs : fs.Pairwise fun a b => a.1 < b.1) (hmem : ∀ e, e ∈ es ↔ e ∈ fs) : es = fs := by
  have hirrefl (s : Text) : ¬ s < s := List.lt_irrefl s
  have hnodup {gs : List (Text × Text)} (h : gs.Pairwise fun a b => a.1 < b.1) : gs.Nodup := by
    refine h.imp ?_
    rintro a _ hlt rfl
    exact hirrefl _ hlt
  have hperm : es.Perm fs := (List.perm_ext_iff_of_nodup (hnodup hes) (hnodup hfs)).2 hmem
  refine hperm.eq_of_pairwise (fun a b _ _ hab hba => ?_) hes hfs
  exact (hirrefl _ (List.lt_trans hab hba)).elim

end Properties

/-! ## Settled properties -/

/-- A property that can be set again: no blanks are around it, and it may have its value. -/
structure Property.Settled (key value : Text) : Prop where
  key_trimmed : Text.trim key = key
  value_trimmed : Text.trim value = value
  accepted : Property.check key value = .ok ()

/-- Properties that are all settled. -/
def Properties.Settled (p : Properties) : Prop :=
  ∀ key value, p[key]? = some value → Property.Settled key value

namespace Properties.Settled

variable {p q : Properties} {key value : Text}

theorem empty : Settled ∅ := fun key value h => by simp at h

theorem insert (hp : Settled p) (h : Property.Settled key value) : Settled (p.insert key value) := by
  intro k v hfound
  rw [Std.TreeMap.getElem?_insert] at hfound
  split at hfound
  · next heq =>
    obtain rfl := Std.LawfulEqCmp.compare_eq_iff_eq.1 heq
    exact Option.some.inj hfound ▸ h
  · exact hp k v hfound

theorem erase (hp : Settled p) (key : Text) : Settled (p.erase key) := by
  intro k v hfound
  rw [Std.TreeMap.getElem?_erase] at hfound
  split at hfound
  · cases hfound
  · exact hp k v hfound

theorem union (hp : Settled p) (hq : Settled q) : Settled (p ∪ q) := by
  intro k v hfound
  rw [Std.TreeMap.getElem?_union, Option.or_eq_some_iff] at hfound
  rcases hfound with hfound | ⟨-, hfound⟩
  · exact hq k v hfound
  · exact hp k v hfound

end Properties.Settled

/-- Requests that set a property without blanks around it, or reset properties. -/
def Request.IsSetting : Request → Prop
  | .setProperty key value => Text.trim key = key ∧ Text.trim value = value
  | .resetProperty _ | .resetProperties => True
  | _ => False

namespace Local

variable {g : Local}

theorem settled_builtinDefaults : builtinDefaults.Settled := by
  have hsettled : Property.Settled Setting.resultMode.key "table" ∧
      Property.Settled Setting.dmlSync.key "false" ∧
      Property.Settled Setting.runtimeMode.key "streaming" ∧
      Property.Settled Setting.maxColumnWidth.key "30" := by
    refine ⟨⟨?_, ?_, rfl⟩, ⟨?_, ?_, rfl⟩, ⟨?_, ?_, rfl⟩, ⟨?_, ?_, rfl⟩⟩ <;> decide +kernel
  obtain ⟨hresult, hsync, hruntime, hwidth⟩ := hsettled
  exact (((Properties.Settled.empty.insert hresult).insert hsync).insert hruntime).insert hwidth

/-- A setting that is not refused is settled behind it. -/
theorem settled_handle {r : Request} (hr : r.IsSetting) (token : CancelToken) (g : Local)
    (i : Interrupts) :
    (handle r token g i).2.1.defaults = g.defaults ∧
      (g.overrides.Settled → (handle r token g i).2.1.overrides.Settled) := by
  cases r with
  | setProperty key value =>
    refine settle_done (P := fun d => d.defaults = g.defaults ∧
      (g.overrides.Settled → d.overrides.Settled)) ⟨rfl, id⟩ fun d hd => ?_
    obtain ⟨hcheck, rfl⟩ := eq_of_setProperty hd
    exact ⟨rfl, fun h => h.insert ⟨hr.1, hr.2, hcheck⟩⟩
  | resetProperty key => exact ⟨rfl, fun h => h.erase key⟩
  | resetProperties => exact ⟨rfl, fun _ => .empty⟩
  | query | modify | execute | removeJar | stopJob => cases hr

theorem settled_properties (hdefaults : g.defaults.Settled) (hoverrides : g.overrides.Settled) :
    g.properties.Settled :=
  hdefaults.union hoverrides

/-- Setting succeeds with a value that is accepted. -/
theorem handle_setProperty_of_accepted {key value : Text} (h : Property.check key value = .ok ())
    (token : CancelToken) (g : Local) (i : Interrupts) :
    handle (.setProperty key value) token g i =
      (.ok (), { g with overrides := g.overrides.insert key value }, i) := by
  have hset : settle g ((g.setProperty key value).map ((), ·)) =
      (.ok (), { g with overrides := g.overrides.insert key value }) := by
    rw [setProperty, h]
    rfl
  exact congrArg (fun settled => (settled.1, settled.2, i)) hset

/-- What was set last is effective, key by key. -/
theorem properties_insertMany {es : List (Text × Text)} (hsorted : es.Pairwise fun a b => a.1 < b.1)
    {key value : Text} (h : (key, value) ∈ es) (g : Local) :
    ({ g with overrides := g.overrides.insertMany es } : Local).properties[key]? = some value := by
  have hdistinct : es.Pairwise fun a b => ¬ compare a.1 b.1 = .eq :=
    hsorted.imp fun hlt heq => by
      rw [Text.compare_eq_lt.2 hlt] at heq
      cases heq
  have hset := Std.TreeMap.getElem?_insertMany_list_of_mem (t := g.overrides)
    Std.ReflCmp.compare_self hdistinct h
  rw [properties, Std.TreeMap.getElem?_union, hset]
  rfl

/-- There is always a property to list. -/
theorem isEmpty_properties {defaults : Properties} (h : g.defaults = builtinDefaults ∪ defaults) :
    g.properties.isEmpty = false := by
  have hbuiltin : builtinDefaults[Setting.resultMode.key]?.isSome := by decide +kernel
  cases hempty : g.properties.isEmpty with
  | false => rfl
  | true =>
    have hnone := Std.TreeMap.getElem?_of_isEmpty (a := Setting.resultMode.key) hempty
    rw [properties, h, Std.TreeMap.getElem?_union, Std.TreeMap.getElem?_union,
      Option.or_eq_none_iff, Option.or_eq_none_iff] at hnone
    rw [hnone.2.2] at hbuiltin
    cases hbuiltin

end Local

end SqlConsole
