import Mathlib.Data.List.Basic
import SqlConsole.Proofs.Catalog.Housing
import SqlConsole.Proofs.Catalog.Quoted
/-!
# Simple names

A name is simple if it has no point and nothing around it that would be stripped off.  A simple
name is completed with the current names and stays as it is (`qualify_of_simple`), and no other name
does: parts of a name only get shorter, so one with points never becomes its own last part
(`qualify_eq_below_current_iff`).

Objects are listed by what stands behind the full name of the current database.  A listed name
belongs to the current database if it has no point (`homeOf?_below_iff`).
-/

namespace SqlConsole

/-! ## Lengths of names -/

theorem Text.length_dropAround_le (p : Char → Bool) (t : Text) :
    (dropAround p t).length ≤ t.length := by
  have hstart : (t.dropWhile p).length ≤ t.length := (List.dropWhile_sublist p).length_le
  have hend : ((t.dropWhile p).reverse.dropWhile p).length ≤ (t.dropWhile p).reverse.length :=
    (List.dropWhile_sublist p).length_le
  rw [dropAround, dropEndWhile, List.length_reverse]
  rw [List.length_reverse] at hend
  omega

theorem length_unquoted_le (part : Text) : (unquoted part).length ≤ part.length :=
  Nat.le_trans (Text.length_dropAround_le _ _)
    (Nat.le_trans (Text.length_dropAround_le _ _) (Text.length_dropAround_le _ _))

/-- A name is its parts with points between them. -/
theorem dotted_fields (name : Text) : dotted (Text.fields '.' name) = name := by
  induction name with
  | nil => rfl
  | cons c name ih =>
    by_cases hc : c = '.'
    · obtain ⟨first, rest, hfields⟩ :=
        List.exists_cons_of_ne_nil (Text.fieldsBy_ne_nil (· == '.') name)
      have hfields : Text.fields '.' name = first :: rest := hfields
      rw [hfields] at ih
      rw [hc, Text.fields_cons_self, hfields, dotted_cons_cons, ih]
      rfl
    · obtain ⟨first, rest, hfields, hcons⟩ := Text.exists_fields_cons hc name
      rw [hfields] at ih
      rw [hcons]
      cases rest with
      | nil =>
        rw [dotted_singleton] at ih ⊢
        rw [ih]
      | cons second rest =>
        rw [dotted_cons_cons] at ih ⊢
        rw [List.cons_append, ih]

theorem length_dotted_map_le {f : Text → Text} (hf : ∀ part, (f part).length ≤ part.length)
    (parts : List Text) : (dotted (parts.map f)).length ≤ (dotted parts).length := by
  induction parts with
  | nil => exact Nat.le_refl _
  | cons first rest ih =>
    cases rest with
    | nil =>
      rw [List.map_singleton, dotted_singleton, dotted_singleton]
      exact hf first
    | cons second rest =>
      have hfirst := hf first
      rw [List.map_cons] at ih
      rw [List.map_cons, List.map_cons, dotted_cons_cons, dotted_cons_cons, List.length_append,
        List.length_append, List.length_cons, List.length_cons]
      omega

/-- Stripping makes names shorter at most. -/
theorem length_dotted_nameParts_le (name : Text) :
    (dotted (nameParts name)).length ≤ name.length := by
  have hle := length_dotted_map_le length_unquoted_le (Text.fields '.' name)
  rw [dotted_fields] at hle
  exact hle

/-! ## Simple names -/

/-- A name with nothing to split or to strip. -/
structure IsSimple (name : Text) : Prop where
  undivided : '.' ∉ name
  bare : unquoted name = name

theorem nameParts_of_undivided {name : Text} (h : '.' ∉ name) :
    nameParts name = [unquoted name] := by
  have hfields : Text.fields '.' name = [name] := by
    refine Text.fieldsBy_of_forall fun c hc => ?_
    simpa using fun heq : c = '.' => h (heq ▸ hc)
  rw [nameParts_eq, hfields]
  rfl

theorem undivided_of_nameParts {name part : Text} (h : nameParts name = [part]) : '.' ∉ name := by
  obtain ⟨field, hfields, -⟩ := List.map_eq_singleton_iff.1 (nameParts_eq name ▸ h)
  have hjoined := dotted_fields name
  rw [hfields] at hjoined
  have hfield : field = name := (dotted_singleton field).symm.trans hjoined
  intro hpoint
  have hmem : name ∈ Text.fields '.' name := by
    rw [hfields, hfield]
    exact List.mem_cons_self
  exact (Text.mem_of_mem_fields hmem hpoint).2 rfl

namespace Catalog

variable {c : Catalog} {name : Text}

theorem qualify_of_undivided (c : Catalog) (h : '.' ∉ name) :
    c.qualify name = c.currentName ++ '.' :: unquoted name := by
  rw [qualify, nameParts_of_undivided h]
  exact dotted_triple _ _ _

theorem qualify_of_simple (c : Catalog) (h : IsSimple name) :
    c.qualify name = c.currentName ++ '.' :: name := by
  rw [c.qualify_of_undivided h.undivided, h.bare]

/-- At most the current catalog is put in front of a name with points. -/
theorem length_qualify_le (c : Catalog) (h : '.' ∈ name) :
    (c.qualify name).length ≤ c.currentCatalog.length + 1 + name.length := by
  have hshorter := length_dotted_nameParts_le name
  unfold qualify
  split
  · next part hparts => exact absurd h (undivided_of_nameParts hparts)
  · next database object hparts =>
    rw [dotted_cons_cons, ← hparts, List.length_append, List.length_cons]
    omega
  · omega

/-- **Only simple names stay what they are** below the current database. -/
theorem qualify_eq_below_current_iff (c : Catalog) (name : Text) :
    c.qualify name = c.currentName ++ '.' :: name ↔ IsSimple name := by
  refine ⟨fun hsame => ?_, c.qualify_of_simple⟩
  have hpoint : '.' ∉ name := by
    intro hpoint
    have hshort := c.length_qualify_le hpoint
    rw [hsame, currentName, dotted_pair] at hshort
    simp only [List.length_append, List.length_cons] at hshort
    omega
  refine ⟨hpoint, ?_⟩
  rw [c.qualify_of_undivided hpoint] at hsame
  exact (List.cons.inj (List.append_cancel_left hsame)).2

/-- What stands below a database belongs to it exactly if no point stands in it. -/
theorem homeOf?_below_iff {database : Text} :
    homeOf? (database ++ '.' :: name) = some database ↔ '.' ∉ name := by
  constructor
  · intro h
    obtain ⟨⟨home, behind⟩, hcut, rfl⟩ := Option.map_eq_some_iff.1 h
    obtain ⟨hname, hpoint⟩ := Text.cutLast?_eq_some_iff.1 hcut
    obtain ⟨-, rfl⟩ := List.cons.inj (List.append_cancel_left hname)
    exact hpoint
  · intro h
    rw [homeOf?, Text.cutLast?_append h]
    rfl

/-- Simple names are names of different objects. -/
theorem qualify_inj_of_simple (c : Catalog) {other : Text} (h : IsSimple name)
    (h' : IsSimple other) : c.qualify name = c.qualify other ↔ name = other := by
  rw [c.qualify_of_simple h, c.qualify_of_simple h', List.append_cancel_left_eq]
  simp

/-- A listed name stands behind the full name of the current database in that of an object. -/
theorem mem_listObjects_iff {kind : ObjectKind} :
    name ∈ c.listObjects kind ↔
      ∃ ddl, c.objects[c.currentName ++ '.' :: name]? = some ⟨kind, ddl⟩ := by
  have hbelow (full : Text) :
      nameBelow? c.currentName full = some name ↔ full = c.currentName ++ '.' :: name := by
    rw [nameBelow?, List.isPrefixOf?_eq_some_iff_append_eq, List.append_assoc]
    exact eq_comm
  rw [listObjects, List.mem_filterMap]
  constructor
  · rintro ⟨⟨full, object⟩, hmem, hlisted⟩
    dsimp only at hlisted
    split at hlisted
    · next hkind =>
      obtain rfl := (hbelow full).1 hlisted
      obtain rfl := hkind
      exact ⟨object.ddl, Std.TreeMap.mem_toList_iff_getElem?_eq_some.1 hmem⟩
    · cases hlisted
  · rintro ⟨ddl, hobject⟩
    refine ⟨(_, ⟨kind, ddl⟩), Std.TreeMap.mem_toList_iff_getElem?_eq_some.2 hobject, ?_⟩
    exact (if_pos rfl).trans ((hbelow _).2 rfl)

end Catalog

end SqlConsole
