import SqlConsole.Proofs.Query.Literals
/-!
# Literals in groups

Literals with commas between them, and groups of them in parentheses, are planned as the values that
they spell.  Tokens that stand between two commas are `Enclosed`: no comma of theirs is outside of
parentheses, and they close what they open.  So they are found again as the part that they are
(`map_splitCommas`), whatever follows them.

* `planProjection_of_tokens`: a list of literals is a row.
* `planValues_of_tokens`: a list of groups of one width is a list of rows.
-/

namespace SqlConsole.Query

variable {statement : Text} {ts us : List Located} {depth after : Nat} {values : List Value}
  {rows : List (List Value)}

/-! ## Parts between commas -/

/-- Tokens that lead from one depth of parentheses to another one, without a comma outside of
parentheses. -/
inductive Enclosed : Nat → List Located → Nat → Prop
  | nil (depth : Nat) : Enclosed depth [] depth
  | cons {depth after : Nat} {t : Located} {ts : List Located}
      (hcomma : ¬ (depth = 0 ∧ t.token = .symbol ','))
      (hrest : Enclosed (depthBehind depth t) ts after) : Enclosed depth (t :: ts) after

theorem Enclosed.append {deeper : Nat} (h : Enclosed depth ts deeper)
    (h' : Enclosed deeper us after) : Enclosed depth (ts ++ us) after := by
  induction h with
  | nil => exact h'
  | cons hcomma _ ih => exact .cons hcomma (ih h')

/-- Without parentheses the depth stays as it is. -/
theorem enclosed_of_flat
    (h : ∀ t ∈ ts, t.token ≠ .symbol '(' ∧ t.token ≠ .symbol ')' ∧
      (depth = 0 → t.token ≠ .symbol ',')) : Enclosed depth ts depth := by
  induction ts with
  | nil => exact .nil depth
  | cons t ts ih =>
    obtain ⟨⟨hopen, hclose, hcomma⟩, hts⟩ := List.forall_mem_cons.1 h
    refine .cons (fun hsplit => hcomma hsplit.1 hsplit.2) ?_
    rw [depthBehind, if_neg hopen, if_neg hclose]
    exact ih hts

/-- Enclosed tokens belong to the first part. -/
theorem Enclosed.splitCommas_append {part : List Located} {parts : List (List Located)}
    (h : Enclosed depth ts after) (hus : splitCommas after us = part :: parts) :
    splitCommas depth (ts ++ us) = (ts ++ part) :: parts := by
  induction h with
  | nil => exact hus
  | cons hcomma _ ih => rw [List.cons_append, splitCommas, if_neg hcomma, ih hus, List.cons_append]

/-- **Commas are found again** between tokens that are enclosed. -/
theorem map_splitCommas {kss : List (List Token)} (hne : kss ≠ [])
    (henclosed : ∀ ks ∈ kss, ∀ us : List Located, us.map (·.token) = ks → Enclosed 0 us 0)
    (h : ts.map (·.token) = [.symbol ','].intercalate kss) :
    (splitCommas 0 ts).map (·.map (·.token)) = kss := by
  induction kss generalizing ts with
  | nil => exact (hne rfl).elim
  | cons ks kss ih =>
    obtain ⟨hks, hkss⟩ := List.forall_mem_cons.1 henclosed
    cases kss with
    | nil =>
      rw [List.intercalate_singleton] at h
      have hsplit : splitCommas 0 (ts ++ []) = [ts ++ []] := (hks ts h).splitCommas_append rfl
      rw [List.append_nil] at hsplit
      rw [hsplit, List.map_singleton, h]
    | cons next kss =>
      rw [List.intercalate_cons_cons, List.append_assoc] at h
      obtain ⟨front, rest, rfl, hfront, hrest⟩ := List.map_eq_append_iff.1 h
      obtain ⟨comma, rest, rfl, hcomma, hrest⟩ := List.map_eq_cons_iff.1 hrest
      have hbehind : splitCommas 0 (comma :: rest) = [] :: splitCommas 0 rest := by
        rw [splitCommas, if_pos ⟨rfl, hcomma⟩]
      rw [(hks front hfront).splitCommas_append hbehind, List.append_nil, List.map_cons, hfront,
        ih (List.cons_ne_nil _ _) hkss hrest]

theorem mem_intercalate {α : Type} {a : α} {sep : List α} {parts : List (List α)}
    (h : a ∈ sep.intercalate parts) : a ∈ sep ∨ ∃ part ∈ parts, a ∈ part := by
  induction parts with
  | nil => cases h
  | cons part parts ih =>
    cases parts with
    | nil =>
      rw [List.intercalate_singleton] at h
      exact .inr ⟨part, List.mem_cons_self, h⟩
    | cons next parts =>
      rw [List.intercalate_cons_cons, List.mem_append, List.mem_append] at h
      rcases h with (h | h) | h
      · exact .inr ⟨part, List.mem_cons_self, h⟩
      · exact .inl h
      · exact (ih h).imp_right fun ⟨found, hfound, ha⟩ => ⟨found, List.mem_cons_of_mem _ hfound, ha⟩

/-! ## Values and rows -/

/-- The tokens of values with commas between them. -/
def listTokens (values : List Value) : List Token :=
  [.symbol ','].intercalate (values.map Value.tokens)

def rowTokens (values : List Value) : List Token :=
  .symbol '(' :: (listTokens values ++ [.symbol ')'])

theorem symbol_of_mem_listTokens {c : Char} (h : .symbol c ∈ listTokens values) :
    c = ',' ∨ c = '-' := by
  rcases mem_intercalate h with h | ⟨ks, hks, hc⟩
  · exact .inl (Token.symbol.inj (List.mem_singleton.1 h))
  · obtain ⟨v, -, rfl⟩ := List.mem_map.1 hks
    exact .inr (Value.inLiteral_of_mem_tokens hc)

theorem enclosed_value {v : Value} (h : us.map (·.token) = v.tokens) : Enclosed 0 us 0 := by
  have hother {t : Located} (ht : t ∈ us) {c : Char} (hc : c ≠ '-') : t.token ≠ .symbol c := by
    intro htoken
    have hmem : .symbol c ∈ v.tokens := htoken ▸ h ▸ List.mem_map_of_mem ht
    exact hc (Value.inLiteral_of_mem_tokens hmem)
  exact enclosed_of_flat fun t ht =>
    ⟨hother ht (by decide), hother ht (by decide), fun _ => hother ht (by decide)⟩

/-- The parentheses of a group enclose its commas. -/
theorem enclosed_row (h : us.map (·.token) = rowTokens values) : Enclosed 0 us 0 := by
  obtain ⟨first, rest, rfl, hfirst, hrest⟩ := List.map_eq_cons_iff.1 h
  obtain ⟨inner, closing, rfl, hinner, hclosing⟩ := List.map_eq_append_iff.1 hrest
  obtain ⟨last, none, rfl, hlast, hnone⟩ := List.map_eq_cons_iff.1 hclosing
  obtain rfl := List.map_eq_nil_iff.1 hnone
  have hflat : Enclosed 1 inner 1 := by
    refine enclosed_of_flat fun t ht => ?_
    have hsymbol {c : Char} (htoken : t.token = .symbol c) : c = ',' ∨ c = '-' :=
      symbol_of_mem_listTokens (htoken ▸ hinner ▸ List.mem_map_of_mem ht)
    exact ⟨fun htoken => absurd (hsymbol htoken) (by decide),
      fun htoken => absurd (hsymbol htoken) (by decide), fun hzero => absurd hzero (by decide)⟩
  have hopens : depthBehind 0 first = 1 := by rw [depthBehind, if_pos hfirst]
  have hcloses : depthBehind 1 last = 0 := by rw [depthBehind, hlast]; decide
  refine .cons (fun hcomma => ?_) (hopens ▸ hflat.append (.cons (fun hdeep => ?_) ?_))
  · exact absurd (hfirst.symm.trans hcomma.2) (by decide)
  · exact absurd hdeep.1 (by decide)
  · rw [hcloses]
    exact .nil 0

/-- A list of literals is split into its values. -/
theorem map_splitCommas_list (hne : values ≠ []) (h : ts.map (·.token) = listTokens values) :
    (splitCommas 0 ts).map (·.map (·.token)) = values.map Value.tokens := by
  refine map_splitCommas (mt List.map_eq_nil_iff.1 hne) (fun ks hks us hus => ?_) h
  obtain ⟨v, -, rfl⟩ := List.mem_map.1 hks
  exact enclosed_value hus

theorem map_splitCommas_rows (hne : rows ≠ [])
    (h : ts.map (·.token) = [.symbol ','].intercalate (rows.map rowTokens)) :
    (splitCommas 0 ts).map (·.map (·.token)) = rows.map rowTokens := by
  refine map_splitCommas (mt List.map_eq_nil_iff.1 hne) (fun ks hks us hus => ?_) h
  obtain ⟨values, -, rfl⟩ := List.mem_map.1 hks
  exact enclosed_row hus

theorem columnsOf_eq_mapIdx (index : Nat) (values : List Value) :
    columnsOf index values = values.mapIdx fun i v => ⟨columnName (index + i), v.typeName⟩ := by
  induction values generalizing index with
  | nil => rfl
  | cons v values ih =>
    rw [columnsOf, ih, List.mapIdx_cons]
    simp only [Nat.add_zero, Nat.add_assoc, Nat.add_comm 1]

/-! ## Plans -/

theorem projectionItems_of_tokens {items : List (List Located)} (index : Nat)
    (hexact : ∀ v ∈ values, v.IsExact)
    (h : items.map (·.map (·.token)) = values.map Value.tokens) :
    projectionItems statement index items = .ok (columnsOf index values, values) := by
  induction values generalizing items index with
  | nil =>
    obtain rfl := List.map_eq_nil_iff.1 h
    rfl
  | cons v values ih =>
    obtain ⟨item, items, rfl, hitem, hitems⟩ := List.map_eq_cons_iff.1 h
    obtain ⟨hv, hvalues⟩ := List.forall_mem_cons.1 hexact
    rw [projectionItems, projectionItem, Value.literal?_tokens hv hitem, ih _ hvalues hitems]
    rfl

theorem rowValues_of_tokens {items : List (List Located)} (hexact : ∀ v ∈ values, v.IsExact)
    (h : items.map (·.map (·.token)) = values.map Value.tokens) :
    rowValues statement items = .ok values := by
  induction values generalizing items with
  | nil =>
    obtain rfl := List.map_eq_nil_iff.1 h
    rfl
  | cons v values ih =>
    obtain ⟨item, items, rfl, hitem, hitems⟩ := List.map_eq_cons_iff.1 h
    obtain ⟨hv, hvalues⟩ := List.forall_mem_cons.1 hexact
    rw [rowValues, Value.literal?_tokens hv hitem, ih hvalues hitems]
    rfl

/-- **A list of literals is planned as the row that it spells.** -/
theorem planProjection_of_tokens (hne : values ≠ []) (hexact : ∀ v ∈ values, v.IsExact)
    (h : ts.map (·.token) = listTokens values) :
    planProjection statement ts = .ok (.literal (columnsOf 0 values) [.insert values]) := by
  have hsplit := map_splitCommas_list hne h
  cases ts with
  | nil =>
    -- No value has the only part of an empty list.
    obtain ⟨v, _, rfl, hnil, -⟩ := List.map_eq_cons_iff.1 hsplit.symm
    cases Value.literal?_tokens (hexact v List.mem_cons_self) hnil.symm
  | cons t ts =>
    rw [planProjection, projectionItems_of_tokens 0 hexact hsplit]
    rfl

/-- The tokens inside of the parentheses of a group. -/
theorem exists_between {group : List Located} (h : group.map (·.token) = rowTokens values) :
    ∃ inner, betweenParentheses? group = some inner ∧ inner.map (·.token) = listTokens values := by
  obtain ⟨first, rest, rfl, hfirst, hrest⟩ := List.map_eq_cons_iff.1 h
  obtain ⟨inner, closing, rfl, hinner, hclosing⟩ := List.map_eq_append_iff.1 hrest
  obtain ⟨last, none, rfl, hlast, hnone⟩ := List.map_eq_cons_iff.1 hclosing
  obtain rfl := List.map_eq_nil_iff.1 hnone
  refine ⟨inner, ?_, hinner⟩
  rw [betweenParentheses?, List.getLast?_concat, List.dropLast_concat, if_pos]
  exact ⟨hfirst, beq_iff_eq.2 hlast⟩

theorem rowsOf_of_tokens {groups : List (List Located)} {width : Option Nat} {w : Nat} (hw : 0 < w)
    (hwidth : ∀ values ∈ rows, values.length = w) (hbefore : ∀ n ∈ width, n = w)
    (hexact : ∀ values ∈ rows, ∀ v ∈ values, v.IsExact)
    (h : groups.map (·.map (·.token)) = rows.map rowTokens) :
    rowsOf statement width groups = .ok rows := by
  induction rows generalizing groups width with
  | nil =>
    obtain rfl := List.map_eq_nil_iff.1 h
    rfl
  | cons values rows ih =>
    obtain ⟨group, groups, rfl, hgroup, hgroups⟩ := List.map_eq_cons_iff.1 h
    obtain ⟨hlength, hlengths⟩ := List.forall_mem_cons.1 hwidth
    obtain ⟨hvalues, hrows⟩ := List.forall_mem_cons.1 hexact
    obtain ⟨inner, hbetween, hinner⟩ := exists_between hgroup
    have hne : values ≠ [] := List.ne_nil_of_length_pos (hlength ▸ hw)
    have hsame : width.any (· != values.length) = false := by
      cases width with
      | none => rfl
      | some n => simp [hbefore n rfl, hlength]
    have hbehind : ∀ n ∈ (width <|> some values.length), n = w := by
      cases width with
      | none => simp [hlength]
      | some n => simpa using hbefore n rfl
    have hstep : rowsOf statement width (group :: groups) =
        (rowsOf statement (width <|> some values.length) groups).map (values :: ·) := by
      rw [rowsOf, hbetween]
      dsimp only
      rw [rowValues_of_tokens hvalues (map_splitCommas_list hne hinner)]
      show (if width.any (· != values.length) = true then _ else _) = _
      rw [hsame]
      cases rowsOf statement (width <|> some values.length) groups <;> rfl
    rw [hstep, ih hlengths hbehind hrows hgroups]
    rfl

/-- **A list of groups of one width is planned as the rows that they spell.** -/
theorem planValues_of_tokens {first : List Value} {others : List (List Value)} (hne : first ≠ [])
    (hwidth : ∀ values ∈ others, values.length = first.length)
    (hexact : ∀ values ∈ first :: others, ∀ v ∈ values, v.IsExact)
    (h : ts.map (·.token) = [.symbol ','].intercalate ((first :: others).map rowTokens)) :
    planValues statement ts =
      .ok (.literal (columnsOf 0 first) ((first :: others).map .insert)) := by
  have hrows : rowsOf statement none (splitCommas 0 ts) = .ok (first :: others) :=
    rowsOf_of_tokens (List.length_pos_iff.2 hne) (List.forall_mem_cons.2 ⟨rfl, hwidth⟩) nofun
      hexact (map_splitCommas_rows (List.cons_ne_nil _ _) h)
  rw [planValues, hrows]
  rfl

end SqlConsole.Query
