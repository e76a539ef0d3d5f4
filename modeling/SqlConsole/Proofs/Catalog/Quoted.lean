import SqlConsole.Proofs.Script.Blocks
/-!
# Names in quotes

The catalog splits a name at its points and strips each part of the blanks and quotes around it
(`unquoted`).  It knows nothing of identifiers: a point inside of quotes splits as well, and a quote
that is written twice stays written twice.  So the values of some identifiers, with points between
them, and the text that spells the identifiers (`spelled`) are split into as many parts, and where
no blank stands in the values the parts of the one are those of the other with their backquotes
written twice (`nameParts_spelled`).  Both are the same name exactly if no backquote is inside of a
part (`qualify_spelled_eq_iff`).
-/

namespace SqlConsole

namespace Text

variable {q sep : Char} {t : Text}

theorem double_cons (q c : Char) (t : Text) :
    double q (c :: t) = (if c = q then [c, c] else [c]) ++ double q t := rfl

theorem length_double (q : Char) (t : Text) : (double q t).length = t.length + t.count q := by
  induction t with
  | nil => rfl
  | cons c t ih =>
    rw [double_cons, List.length_append, ih, List.count_cons, List.length_cons]
    by_cases hc : c = q
    · rw [if_pos hc, if_pos (beq_iff_eq.2 hc)]
      simp only [List.length_cons, List.length_nil]
      omega
    · rw [if_neg hc, if_neg (by simpa using hc)]
      simp only [List.length_cons, List.length_nil]
      omega

/-- Nothing is written twice exactly if there is nothing to write twice. -/
theorem double_eq_self_iff : double q t = t ↔ q ∉ t := by
  constructor
  · intro h
    have hlength := length_double q t
    rw [h] at hlength
    exact List.count_eq_zero.1 (by omega)
  · intro h
    induction t with
    | nil => rfl
    | cons c t ih =>
      have hc : c ≠ q := fun hc => h (hc ▸ List.mem_cons_self)
      rw [double_cons, if_neg hc, ih fun hmem => h (List.mem_cons_of_mem c hmem)]
      rfl

theorem mem_double {c : Char} (h : c ∈ double q t) : c ∈ t := by
  obtain ⟨d, hd, hmem⟩ := List.mem_flatMap.1 h
  have hsame : c = d := by
    split at hmem
    · simpa using hmem
    · simpa using hmem
  exact hsame ▸ hd

theorem dropWhile_double (p : Char → Bool) (q : Char) (t : Text) :
    (double q t).dropWhile p = double q (t.dropWhile p) := by
  induction t with
  | nil => rfl
  | cons c t ih =>
    by_cases hp : p c
    · rw [double_cons, List.dropWhile_cons_of_pos hp, ← ih]
      split
      · simp [hp]
      · simp [hp]
    · rw [double_cons, List.dropWhile_cons_of_neg hp, double_cons]
      split
      · simp [hp]
      · simp [hp]

theorem reverse_double (q : Char) (t : Text) : (double q t).reverse = double q t.reverse := by
  have hpair (c : Char) :
      (if c = q then [c, c] else [c]).reverse = if c = q then [c, c] else [c] := by
    split
    · rfl
    · rfl
  rw [double, List.reverse_flatMap, double]
  exact congrArg t.reverse.flatMap (funext hpair)

theorem dropAround_double (p : Char → Bool) (q : Char) (t : Text) :
    dropAround p (double q t) = double q (dropAround p t) := by
  rw [dropAround, dropEndWhile, dropWhile_double, reverse_double, dropWhile_double, reverse_double]
  rfl

theorem fields_double (h : q ≠ sep) (t : Text) :
    fields sep (double q t) = (fields sep t).map (double q) := by
  induction t with
  | nil => rfl
  | cons c t ih =>
    rw [double_cons]
    by_cases hc : c = sep
    · rw [hc, if_neg h.symm, List.singleton_append, fields_cons_self, fields_cons_self, ih]
      rfl
    · obtain ⟨part, parts, hparts, hcons⟩ := exists_fields_cons hc t
      obtain ⟨first, rest, hfirst, hcons'⟩ := exists_fields_cons hc (double q t)
      rw [ih, hparts, List.map_cons] at hfirst
      obtain ⟨rfl, rfl⟩ := List.cons.inj hfirst
      rw [hcons, List.map_cons, double_cons]
      split
      · obtain ⟨first, rest, hfirst, hcons''⟩ := exists_fields_cons hc (c :: double q t)
        rw [hcons'] at hfirst
        obtain ⟨rfl, rfl⟩ := List.cons.inj hfirst
        exact hcons''
      · exact hcons'

theorem trim_of_forall (h : ∀ c ∈ t, isBlank c = false) : trim t = t :=
  trim_of_ends (fun c hc => h c (List.mem_of_mem_head? hc))
    fun c hc => h c (List.mem_of_mem_getLast? hc)

end Text

/-! ## Parts of names -/

/-- A part of a name without the blanks around it and then without the quotes around it. -/
def unquoted (part : Text) : Text :=
  Text.dropAround (· == '"') (Text.dropAround (· == '`') (Text.trim part))

theorem nameParts_eq (name : Text) : nameParts name = (Text.fields '.' name).map unquoted := rfl

theorem not_mem_of_mem_nameParts {name part : Text} (h : part ∈ nameParts name) : '.' ∉ part := by
  obtain ⟨field, hfield, rfl⟩ := List.mem_map.1 h
  intro hpoint
  have hmem := Text.mem_of_mem_dropAround
    (Text.mem_of_mem_dropAround (Text.mem_of_mem_dropAround hpoint))
  exact (Text.mem_of_mem_fields hfield hmem).2 rfl

theorem nameParts_dotted {parts : List Text} (h : parts ≠ []) :
    nameParts (dotted parts) = parts.flatMap nameParts := by
  rw [nameParts_eq, dotted, Text.fields_join h, List.map_flatMap]
  rfl

/-- Parts without points can be told from the name that they make up. -/
theorem dotted_inj {parts others : List Text} (hne : parts ≠ []) (hne' : others ≠ [])
    (h : ∀ part ∈ parts, '.' ∉ part) (h' : ∀ part ∈ others, '.' ∉ part) :
    dotted parts = dotted others ↔ parts = others := by
  have hfields {ps : List Text} (hps : ps ≠ []) (hpoint : ∀ part ∈ ps, '.' ∉ part) :
      Text.fields '.' (dotted ps) = ps := by
    rw [dotted, Text.fields_join hps]
    have hone : ∀ part ∈ ps, Text.fields '.' part = [part] := by
      intro part hpart
      refine Text.fieldsBy_of_forall fun c hc => ?_
      simpa using fun heq : c = '.' => hpoint part hpart (heq ▸ hc)
    rw [List.flatMap_def, List.map_congr_left hone, ← List.flatMap_def, List.flatMap_singleton']
  constructor
  · intro heq
    rw [← hfields hne h, heq, hfields hne' h']
  · intro heq
    rw [heq]

/-- **Names with as many parts** are the same name exactly if they have the same parts. -/
theorem Catalog.qualify_eq_iff (c : Catalog) {name other : Text}
    (hlength : (nameParts name).length = (nameParts other).length) :
    c.qualify name = c.qualify other ↔ nameParts name = nameParts other := by
  have hpoint : ∀ part ∈ nameParts name, '.' ∉ part := fun _ => not_mem_of_mem_nameParts
  have hpoint' : ∀ part ∈ nameParts other, '.' ∉ part := fun _ => not_mem_of_mem_nameParts
  have hne := nameParts_ne_nil name
  have hne' := nameParts_ne_nil other
  unfold qualify
  generalize nameParts name = parts at *
  generalize nameParts other = others at *
  match parts, others with
  | [], _ => exact (hne rfl).elim
  | [a], [b] =>
    dsimp only
    rw [dotted_triple, dotted_triple, List.append_cancel_left_eq]
    simp
  | [a, b], [a', b'] =>
    dsimp only
    rw [dotted_cons_cons, dotted_cons_cons c.currentCatalog, List.append_cancel_left_eq,
      List.cons_inj_right]
    exact dotted_inj hne hne' hpoint hpoint'
  | a :: b :: d :: ps, a' :: b' :: d' :: qs => exact dotted_inj hne hne' hpoint hpoint'

/-! ## Spelled names -/

/-- How identifiers with some values are spelled, with points between them. -/
def spelled (values : List Text) : Text := dotted (values.map (Piece.quote '`'))

theorem unquoted_double (part : Text) :
    unquoted (Text.double '`' part) = Text.double '`' (unquoted part) := by
  rw [unquoted, Text.trim, Text.dropAround_double, Text.dropAround_double, Text.dropAround_double]
  rfl

/-- A backquote in front of a part that has no blanks is stripped. -/
theorem unquoted_cons {part : Text} (h : ∀ c ∈ part, isBlank c = false) :
    unquoted ('`' :: part) = unquoted part := by
  have hquoted : ∀ c ∈ '`' :: part, isBlank c = false := by
    intro c hc
    rcases List.mem_cons.1 hc with rfl | hc
    · decide
    · exact h c hc
  rw [unquoted, unquoted, Text.trim_of_forall h, Text.trim_of_forall hquoted,
    Text.dropAround_cons rfl]

theorem unquoted_concat {part : Text} (h : ∀ c ∈ part, isBlank c = false) :
    unquoted (part ++ ['`']) = unquoted part := by
  have hquoted : ∀ c ∈ part ++ ['`'], isBlank c = false := by
    intro c hc
    rcases List.mem_append.1 hc with hc | hc
    · exact h c hc
    · obtain rfl := List.mem_singleton.1 hc
      decide
  rw [unquoted, unquoted, Text.trim_of_forall h, Text.trim_of_forall hquoted,
    Text.dropAround_concat rfl]

/-- **The parts of a quoted value** are those of the value, with their backquotes written twice. -/
theorem nameParts_quote {value : Text} (h : ∀ c ∈ value, isBlank c = false) :
    nameParts (Piece.quote '`' value) = (nameParts value).map (Text.double '`') := by
  have hdouble : ∀ c ∈ Text.double '`' value, isBlank c = false :=
    fun c hc => h c (Text.mem_double hc)
  have hclosed : ∀ c ∈ Text.double '`' value ++ ['`'], isBlank c = false := by
    intro c hc
    rcases List.mem_append.1 hc with hc | hc
    · exact hdouble c hc
    · obtain rfl := List.mem_singleton.1 hc
      decide
  have hquote : '.' ∉ ['`'] := by decide
  obtain ⟨first, rest, hfirst, hopen⟩ :=
    Text.exists_fields_append hquote (Text.double '`' value ++ ['`'])
  obtain ⟨init, last, hlast, hclose⟩ := Text.exists_append_fields hquote (Text.double '`' value)
  have hfirst' : unquoted ('`' :: first) = unquoted first := by
    have hmem : first ∈ Text.fields '.' (Text.double '`' value ++ ['`']) := by
      rw [hfirst]
      exact List.mem_cons_self
    exact unquoted_cons fun c hc => hclosed c (Text.mem_of_mem_fields hmem hc).1
  have hlast' : unquoted (last ++ ['`']) = unquoted last := by
    have hmem : last ∈ Text.fields '.' (Text.double '`' value) := by
      rw [hlast]
      exact List.mem_append_right _ List.mem_cons_self
    exact unquoted_concat fun c hc => hdouble c (Text.mem_of_mem_fields hmem hc).1
  calc nameParts (Piece.quote '`' value)
    _ = (('`' :: first) :: rest).map unquoted := congrArg (List.map unquoted) hopen
    _ = (first :: rest).map unquoted := by rw [List.map_cons, List.map_cons, hfirst']
    _ = (init ++ [last ++ ['`']]).map unquoted := by rw [← hfirst, hclose]
    _ = (init ++ [last]).map unquoted := by
      rw [List.map_append, List.map_append, List.map_singleton, List.map_singleton, hlast']
    _ = (Text.fields '.' (Text.double '`' value)).map unquoted := by rw [← hlast]
    _ = ((Text.fields '.' value).map unquoted).map (Text.double '`') := by
      rw [Text.fields_double (by decide), List.map_map, List.map_map]
      simp only [Function.comp_def, unquoted_double]

variable {values : List Text}

theorem nameParts_spelled (hne : values ≠ [])
    (h : ∀ value ∈ values, ∀ c ∈ value, isBlank c = false) :
    nameParts (spelled values) = (nameParts (dotted values)).map (Text.double '`') := by
  have hquoted : values.map (Piece.quote '`') ≠ [] := fun hnil => hne (List.map_eq_nil_iff.1 hnil)
  rw [spelled, nameParts_dotted hquoted, nameParts_dotted hne, List.map_flatMap, List.flatMap_map,
    List.flatMap_def, List.flatMap_def]
  have hparts : ∀ value ∈ values, nameParts (Piece.quote '`' value) =
      (nameParts value).map (Text.double '`') := by
    intro value hvalue
    exact nameParts_quote (h value hvalue)
  exact congrArg List.flatten (List.map_congr_left hparts)

/-- **Spelled identifiers are the name of their values** exactly if no backquote is inside of a
part. -/
theorem Catalog.qualify_spelled_eq_iff (c : Catalog) (hne : values ≠ [])
    (h : ∀ value ∈ values, ∀ d ∈ value, isBlank d = false) :
    c.qualify (spelled values) = c.qualify (dotted values) ↔
      ∀ part ∈ nameParts (dotted values), '`' ∉ part := by
  have hparts := nameParts_spelled hne h
  rw [c.qualify_eq_iff (by rw [hparts, List.length_map]), hparts]
  constructor
  · intro hsame part hpart
    have hself : (nameParts (dotted values)).map (Text.double '`') =
        (nameParts (dotted values)).map id := by rw [hsame, List.map_id]
    exact Text.double_eq_self_iff.1 (List.map_inj_left.1 hself part hpart)
  · intro hnone
    refine (List.map_congr_left fun part hpart => ?_).trans (List.map_id _)
    exact Text.double_eq_self_iff.2 (hnone part hpart)

end SqlConsole
