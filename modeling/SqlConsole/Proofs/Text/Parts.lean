import SqlConsole.Catalog.Basic
/-!
# Parts between points

A text is cut in two at the first or the last occurrence of a separator (`cutFirst?_eq_some_iff`,
`cutLast?_eq_some_iff`), and split at all of them (`fieldsBy_append_cons`).  The parts of a dotted
name are what stands between its points, so a name without a point is a single part
(`nameParts_of_not_mem`).
-/

namespace SqlConsole

namespace Text

variable {sep : Char} {t a b : Text}

/-- A text is cut at the first separator: none stands before it. -/
theorem cutFirst?_eq_some_iff :
    cutFirst? sep t = some (a, b) ↔ t = a ++ sep :: b ∧ sep ∉ a := by
  induction t generalizing a with
  | nil => simp [cutFirst?]
  | cons c t ih =>
    by_cases hc : c = sep
    · subst hc
      rw [cutFirst?, if_pos rfl]
      constructor
      · intro h
        obtain ⟨rfl, rfl⟩ := Prod.mk.inj (Option.some.inj h)
        simp
      · rintro ⟨htext, hmem⟩
        cases a with
        | nil => simpa using htext
        | cons d a =>
          obtain ⟨rfl, -⟩ := List.cons.inj htext
          simp at hmem
    · rw [cutFirst?, if_neg hc, Option.map_eq_some_iff]
      constructor
      · rintro ⟨⟨a', b'⟩, hcut, heq⟩
        obtain ⟨rfl, rfl⟩ := Prod.mk.inj heq
        obtain ⟨rfl, hmem⟩ := ih.1 hcut
        exact ⟨rfl, by simpa [Ne.symm hc] using hmem⟩
      · rintro ⟨htext, hmem⟩
        cases a with
        | nil => exact absurd (List.cons.inj htext).1 hc
        | cons d a =>
          obtain ⟨rfl, rfl⟩ := List.cons.inj htext
          exact ⟨(a, b), ih.2 ⟨rfl, fun h => hmem (List.mem_cons_of_mem _ h)⟩, rfl⟩

theorem exists_cutFirst? (h : sep ∈ t) : ∃ a b, cutFirst? sep t = some (a, b) := by
  obtain ⟨a, b, htext, hmem⟩ := List.eq_append_cons_of_mem h
  exact ⟨a, b, cutFirst?_eq_some_iff.2 ⟨htext, hmem⟩⟩

/-- A text is cut at the last separator: none stands behind it. -/
theorem cutLast?_eq_some_iff :
    cutLast? sep t = some (a, b) ↔ t = a ++ sep :: b ∧ sep ∉ b := by
  rw [cutLast?, Option.map_eq_some_iff]
  constructor
  · rintro ⟨⟨b', a'⟩, hcut, heq⟩
    obtain ⟨rfl, rfl⟩ := Prod.mk.inj heq
    obtain ⟨htext, hmem⟩ := cutFirst?_eq_some_iff.1 hcut
    have ht : t = (b' ++ sep :: a').reverse := by rw [← htext, List.reverse_reverse]
    exact ⟨by rw [ht]; simp, by simpa using hmem⟩
  · rintro ⟨rfl, hmem⟩
    have hcut : cutFirst? sep (a ++ sep :: b).reverse = some (b.reverse, a.reverse) := by
      rw [cutFirst?_eq_some_iff]
      exact ⟨by simp, by simpa using hmem⟩
    exact ⟨(b.reverse, a.reverse), hcut, by simp⟩

theorem cutLast?_append (h : sep ∉ b) : cutLast? sep (a ++ sep :: b) = some (a, b) :=
  cutLast?_eq_some_iff.2 ⟨rfl, h⟩

/-- The text before the first separator. -/
theorem takeWhile_append_separator (h : sep ∉ a) : (a ++ sep :: b).takeWhile (· != sep) = a := by
  have hall : ∀ c ∈ a, (c != sep) = true := fun c hc => by
    simpa using fun heq : c = sep => h (heq ▸ hc)
  rw [List.takeWhile_append_of_pos hall]
  simp

theorem fieldsBy_ne_nil (p : Char → Bool) (t : Text) : fieldsBy p t ≠ [] := by
  cases t with
  | nil => simp [fieldsBy]
  | cons c t =>
    rw [fieldsBy]
    split
    · simp
    · split <;> simp

/-- A text without separators is a single part. -/
theorem fieldsBy_of_forall {p : Char → Bool} (h : ∀ c ∈ t, p c = false) : fieldsBy p t = [t] := by
  induction t with
  | nil => rfl
  | cons c t ih =>
    have ht := ih fun d hd => h d (List.mem_cons_of_mem c hd)
    simp [fieldsBy, h c List.mem_cons_self, ht]

theorem fieldsBy_cons_of_pos {p : Char → Bool} {c : Char} (hc : p c) (t : Text) :
    fieldsBy p (c :: t) = [] :: fieldsBy p t := by
  rw [fieldsBy, if_pos hc]

/-- A character that is no separator belongs to the first part behind it. -/
theorem exists_fieldsBy_cons {p : Char → Bool} {c : Char} (hc : ¬ p c) (t : Text) :
    ∃ part parts, fieldsBy p t = part :: parts ∧ fieldsBy p (c :: t) = (c :: part) :: parts := by
  obtain ⟨part, parts, hparts⟩ := List.exists_cons_of_ne_nil (fieldsBy_ne_nil p t)
  refine ⟨part, parts, hparts, ?_⟩
  rw [fieldsBy, if_neg hc, hparts]

/-- A text is split at every separator in it. -/
theorem fieldsBy_append_cons {p : Char → Bool} {b : Char} (hb : p b) (x y : Text) :
    fieldsBy p (x ++ b :: y) = fieldsBy p x ++ fieldsBy p y := by
  induction x with
  | nil => exact fieldsBy_cons_of_pos hb y
  | cons c x ih =>
    by_cases hc : p c
    · rw [List.cons_append, fieldsBy_cons_of_pos hc, fieldsBy_cons_of_pos hc, ih]
      rfl
    · obtain ⟨part, parts, hparts, hcons⟩ := exists_fieldsBy_cons hc x
      rw [hparts] at ih
      rw [List.cons_append, hcons, fieldsBy, if_neg hc, ih]
      rfl

theorem fields_cons_self (sep : Char) (t : Text) : fields sep (sep :: t) = [] :: fields sep t :=
  if_pos (beq_self_eq_true sep)

theorem exists_fields_cons {c : Char} (hc : c ≠ sep) (t : Text) :
    ∃ part parts, fields sep t = part :: parts ∧ fields sep (c :: t) = (c :: part) :: parts :=
  exists_fieldsBy_cons (p := (· == sep)) (by simpa using hc) t

/-- The fields of texts that are joined are those of the one and then of the other. -/
theorem fields_join {sep : Char} {ts : List Text} (h : ts ≠ []) :
    fields sep (join [sep] ts) = ts.flatMap (fields sep) := by
  induction ts with
  | nil => exact (h rfl).elim
  | cons t ts ih =>
    cases ts with
    | nil => simp [join]
    | cons next ts =>
      have hjoin : join [sep] (t :: next :: ts) = t ++ sep :: join [sep] (next :: ts) := by
        simp [join]
      have hcut := fieldsBy_append_cons (p := (· == sep)) (beq_self_eq_true sep) t
        (join [sep] (next :: ts))
      rw [hjoin, fields, hcut, List.flatMap_cons, ← ih (List.cons_ne_nil next ts)]
      rfl

/-- What no separator is in belongs to the first part. -/
theorem exists_fields_append {u : Text} (hu : sep ∉ u) (t : Text) :
    ∃ part parts, fields sep t = part :: parts ∧ fields sep (u ++ t) = (u ++ part) :: parts := by
  induction u with
  | nil =>
    obtain ⟨part, parts, hparts⟩ := List.exists_cons_of_ne_nil (fieldsBy_ne_nil (· == sep) t)
    exact ⟨part, parts, hparts, hparts⟩
  | cons c u ih =>
    obtain ⟨part, parts, hparts, happend⟩ := ih fun hmem => hu (List.mem_cons_of_mem c hmem)
    have hc : c ≠ sep := fun heq => hu (heq ▸ List.mem_cons_self)
    obtain ⟨first, rest, hrest, hcons⟩ := exists_fields_cons hc (u ++ t)
    obtain ⟨rfl, rfl⟩ := List.cons.inj (hrest.symm.trans happend)
    exact ⟨part, _, hparts, hcons⟩

/-- What no separator is in belongs to the last part of what stands in front of it. -/
theorem exists_append_fields {u : Text} (hu : sep ∉ u) (t : Text) :
    ∃ parts part, fields sep t = parts ++ [part] ∧ fields sep (t ++ u) = parts ++ [part ++ u] := by
  induction t with
  | nil =>
    refine ⟨[], [], rfl, fieldsBy_of_forall fun c hc => ?_⟩
    simpa using fun heq : c = sep => hu (heq ▸ hc)
  | cons c t ih =>
    obtain ⟨parts, part, hparts, happend⟩ := ih
    rw [fields] at hparts happend
    rw [fields, fieldsBy, fields, List.cons_append, fieldsBy, hparts, happend]
    by_cases hc : c == sep
    · rw [if_pos hc, if_pos hc]
      exact ⟨[] :: parts, part, rfl, rfl⟩
    · rw [if_neg hc, if_neg hc]
      cases parts with
      | nil => exact ⟨[], c :: part, rfl, rfl⟩
      | cons first parts => exact ⟨(c :: first) :: parts, part, rfl, rfl⟩

/-- A character of a text is a separator or belongs to a part. -/
theorem mem_fieldsBy {p : Char → Bool} {c : Char} (hc : c ∈ t) :
    p c ∨ ∃ part ∈ fieldsBy p t, c ∈ part := by
  induction t with
  | nil => cases hc
  | cons d t ih =>
    by_cases hd : p d
    · rw [fieldsBy_cons_of_pos hd]
      rcases List.mem_cons.1 hc with rfl | hc
      · exact .inl hd
      · refine (ih hc).imp_right fun ⟨part, hpart, hmem⟩ => ?_
        exact ⟨part, List.mem_cons_of_mem _ hpart, hmem⟩
    · obtain ⟨first, parts, hparts, hcons⟩ := exists_fieldsBy_cons hd t
      rw [hparts] at ih
      rw [hcons]
      rcases List.mem_cons.1 hc with rfl | hc
      · exact .inr ⟨_, List.mem_cons_self, List.mem_cons_self⟩
      · refine (ih hc).imp_right fun ⟨part, hpart, hmem⟩ => ?_
        rcases List.mem_cons.1 hpart with rfl | hpart
        · exact ⟨_, List.mem_cons_self, List.mem_cons_of_mem d hmem⟩
        · exact ⟨part, List.mem_cons_of_mem _ hpart, hmem⟩

/-- The parts hold characters of the text, separators aside. -/
theorem mem_of_mem_fields {part : Text} (h : part ∈ fields sep t) {c : Char} (hc : c ∈ part) :
    c ∈ t ∧ c ≠ sep := by
  induction t generalizing part with
  | nil =>
    obtain rfl := List.mem_singleton.1 h
    cases hc
  | cons d t ih =>
    have hrest {part : Text} (h : part ∈ fields sep t) (hc : c ∈ part) :
        c ∈ d :: t ∧ c ≠ sep := (ih h hc).imp_left (List.mem_cons_of_mem d)
    by_cases hd : d = sep
    · rw [hd, fields_cons_self] at h
      rcases List.mem_cons.1 h with rfl | h
      · cases hc
      · exact hrest h hc
    · obtain ⟨first, parts, hparts, hcons⟩ := exists_fields_cons hd t
      rw [hparts] at hrest
      rw [hcons] at h
      rcases List.mem_cons.1 h with rfl | h
      · rcases List.mem_cons.1 hc with rfl | hc
        · exact ⟨List.mem_cons_self, hd⟩
        · exact hrest List.mem_cons_self hc
      · exact hrest (List.mem_cons_of_mem first h) hc

theorem mem_of_mem_dropEndWhile {p : Char → Bool} {c : Char} (h : c ∈ dropEndWhile p t) :
    c ∈ t := by
  have hreverse := (List.dropWhile_sublist p).mem (List.mem_reverse.1 h)
  exact List.mem_reverse.1 hreverse

theorem mem_of_mem_dropAround {p : Char → Bool} {c : Char} (h : c ∈ dropAround p t) : c ∈ t :=
  (List.dropWhile_sublist p).mem (mem_of_mem_dropEndWhile h)

end Text

/-! ## Dotted names -/

theorem dotted_singleton (part : Text) : dotted [part] = part := List.append_nil part

theorem dotted_pair (a b : Text) : dotted [a, b] = a ++ '.' :: b := by
  simp [dotted, Text.join, List.intercalate]

theorem dotted_cons_cons (first second : Text) (rest : List Text) :
    dotted (first :: second :: rest) = first ++ '.' :: dotted (second :: rest) := by
  simp [dotted, Text.join, List.intercalate]

theorem dotted_triple (a b c : Text) : dotted [a, b, c] = dotted [a, b] ++ '.' :: c := by
  simp [dotted, Text.join, List.intercalate]

theorem nameParts_ne_nil (name : Text) : nameParts name ≠ [] := by
  simpa [nameParts, Text.fields] using Text.fieldsBy_ne_nil (· == '.') name

/-- A name without a point is a single part, and no point stands in that. -/
theorem nameParts_of_not_mem {name : Text} (h : '.' ∉ name) :
    ∃ part, nameParts name = [part] ∧ '.' ∉ part := by
  have hfields : Text.fields '.' name = [name] := by
    refine Text.fieldsBy_of_forall fun c hc => ?_
    simpa using fun heq : c = '.' => h (heq ▸ hc)
  refine ⟨_, by rw [nameParts, hfields]; rfl, fun hpoint => h ?_⟩
  exact Text.mem_of_mem_dropAround
    (Text.mem_of_mem_dropAround (Text.mem_of_mem_dropAround hpoint))

end SqlConsole
