import Mathlib.Data.List.Basic
import SqlConsole.Proofs.Console.Printed
import SqlConsole.Proofs.Value.Exact
/-!
# The rows that survive a changelog

What a changelog leaves behind is said twice, without a table.  How many rows with some values there
are is counted up and down, and not below zero (`balance`).  Which rows those are is said by their
places in the changelog: a row that is added survives at first, and a row that is taken back takes
the earliest of its equals with it (`Survives`).

* `count_materialize`, `survives_materialize`: both hold of the table in which changes are searched
  for and erased one after the other, for values that are the same only if they are equal.
* `materialize_survivors`: **the table is the multiset of the balances in the order of the
  survivors**, and where nothing is taken back it is shown like a bounded result.
-/

namespace SqlConsole.Changelog

variable {changes table : List Row} {row : Row} {values : List Value} {n : Nat}

/-! ## Counting -/

/-- How many rows with some values there are behind a change, if there were `n` before. -/
def countBehind (values : List Value) (n : Nat) (row : Row) : Nat :=
  if row.values = values then if row.kind.adds then n + 1 else n - 1 else n

/-- How many rows with some values there are behind some changes. -/
def balance (values : List Value) (changes : List Row) : Nat :=
  changes.foldl (countBehind values) 0

/-- A list of rows that has no doubles in it. -/
def Exact (changes : List Row) : Prop := ∀ row ∈ changes, ∀ v ∈ row.values, v.IsExact

/-- A change adds values at the end of a table or erases their first occurrence. -/
theorem map_values_change (h : ∀ v ∈ row.values, v.IsExact) :
    (change table row).map Row.values =
      if row.kind.adds then table.map Row.values ++ [row.values]
      else (table.map Row.values).erase row.values := by
  unfold change
  split
  · exact List.map_append
  · have hsame : (fun r : Row => sameValues r.values row.values) = (row.values == ·) ∘ Row.values :=
      funext fun r => Bool.eq_iff_iff.2 <| by
        rw [sameValues_iff h, Function.comp, beq_iff_eq, eq_comm]
    rw [hsame, List.erase_eq_eraseP, List.eraseP_map]

theorem count_change (h : ∀ v ∈ row.values, v.IsExact) :
    ((change table row).map Row.values).count values =
      countBehind values ((table.map Row.values).count values) row := by
  rw [map_values_change h, countBehind]
  split
  · rw [List.count_append, List.count_singleton]
    simp only [beq_iff_eq]
    split <;> rfl
  · rw [List.count_erase]
    simp only [beq_iff_eq]
    split <;> rfl

/-- **Every balance is the number of rows** that are left with the values. -/
theorem count_materialize (h : Exact changes) (values : List Value) :
    ((materialize changes).map Row.values).count values = balance values changes := by
  -- Counting goes on from the table so far, whatever that is.
  suffices hbehind : ∀ table : List Row, ((changes.foldl change table).map Row.values).count values =
      changes.foldl (countBehind values) ((table.map Row.values).count values) from hbehind []
  induction changes with
  | nil => exact fun _ => rfl
  | cons row changes ih =>
    obtain ⟨hrow, hchanges⟩ := List.forall_mem_cons.1 h
    intro table
    rw [List.foldl_cons, List.foldl_cons, ih hchanges, count_change hrow]

/-! ## Kinds -/

/-- A table only holds rows that add something, whatever was taken back. -/
theorem kind_of_mem_materialize (h : row ∈ materialize changes) : row.kind = .insert := by
  suffices hbehind : ∀ table : List Row, (∀ r ∈ table, r.kind = .insert) →
      ∀ r ∈ changes.foldl change table, r.kind = .insert from hbehind [] (by simp) row h
  clear h
  induction changes with
  | nil => exact fun _ htable => htable
  | cons row changes ih =>
    intro table htable
    refine ih (change table row) fun r hr => ?_
    unfold change at hr
    split at hr
    · rcases List.mem_append.1 hr with hr | hr
      · exact htable r hr
      · rw [List.mem_singleton.1 hr]
        rfl
    · exact htable r (List.mem_of_mem_eraseP hr)

/-- Where nothing is taken back, all rows are left. -/
theorem materialize_of_inserts (h : ∀ row ∈ changes, row.kind = .insert) :
    materialize changes = changes := by
  suffices hbehind : ∀ table : List Row, changes.foldl change table = table ++ changes from
    hbehind []
  induction changes with
  | nil => exact fun table => (List.append_nil table).symm
  | cons row changes ih =>
    obtain ⟨hrow, hchanges⟩ := List.forall_mem_cons.1 h
    intro table
    have hchange : change table row = table ++ [row] := by
      obtain ⟨kind, values⟩ := row
      obtain rfl : kind = .insert := hrow
      rfl
    rw [List.foldl_cons, hchange, ih hchanges, List.append_assoc, List.singleton_append]

/-! ## Survivors -/

/-- The values of the change at a place. -/
def valuesAt? (changes : List Row) (i : Nat) : Option (List Value) := changes[i]?.map Row.values

/-- The first of some places where there are some values. -/
def Earliest (changes : List Row) (P : Nat → Prop) (values : List Value) (i : Nat) : Prop :=
  P i ∧ valuesAt? changes i = some values ∧ ∀ j < i, P j → valuesAt? changes j ≠ some values

/-- The places of the rows that are left behind the first `n` changes.  A row that is added is left
where it came, and one that is taken back is the earliest of its equals. -/
def Survives (changes : List Row) : Nat → Nat → Prop
  | 0, _ => False
  | n + 1, i =>
    match changes[n]? with
    | none => Survives changes n i
    | some row =>
      if row.kind.adds then Survives changes n i ∨ i = n
      else Survives changes n i ∧ ¬ Earliest changes (Survives changes n) row.values i

/-- A row survives only changes that come behind it. -/
theorem Survives.lt {i : Nat} (h : Survives changes n i) : i < n := by
  induction n with
  | zero => exact h.elim
  | succ n ih =>
    rw [Survives] at h
    split at h
    · exact Nat.lt_succ_of_lt (ih h)
    · split at h
      · rcases h with h | rfl
        · exact Nat.lt_succ_of_lt (ih h)
        · exact Nat.lt_succ_self _
      · exact Nat.lt_succ_of_lt (ih h.1)

/-- Of places in their order, the first one with a property is erased. -/
theorem mem_eraseP_iff_of_pairwise {places : List Nat} (h : places.Pairwise (· < ·))
    (p : Nat → Bool) (i : Nat) :
    i ∈ places.eraseP p ↔ i ∈ places ∧ ¬ (p i = true ∧ ∀ j < i, j ∈ places → p j = false) := by
  induction places with
  | nil => simp
  | cons a places ih =>
    obtain ⟨hfirst, hplaces⟩ := List.pairwise_cons.1 h
    by_cases ha : p a = true
    · rw [List.eraseP_cons_of_pos ha, List.mem_cons]
      constructor
      · intro hi
        refine ⟨.inr hi, fun hearliest => ?_⟩
        have hnot := hearliest.2 a (hfirst i hi) List.mem_cons_self
        rw [ha] at hnot
        cases hnot
      · rintro ⟨rfl | hi, hlater⟩
        · refine (hlater ⟨ha, fun j hj hmem => ?_⟩).elim
          rcases List.mem_cons.1 hmem with rfl | hmem
          · exact (Nat.lt_irrefl _ hj).elim
          · exact (Nat.lt_asymm hj (hfirst j hmem)).elim
        · exact hi
    · rw [List.eraseP_cons_of_neg ha, List.mem_cons, List.mem_cons, ih hplaces]
      have hfalse : p a = false := Bool.eq_false_iff.2 ha
      constructor
      · rintro (rfl | ⟨hi, hlater⟩)
        · exact ⟨.inl rfl, fun hearliest => ha hearliest.1⟩
        · exact ⟨.inr hi, fun hearliest => hlater ⟨hearliest.1, fun j hj hmem =>
            hearliest.2 j hj (List.mem_cons_of_mem a hmem)⟩⟩
      · rintro ⟨rfl | hi, hlater⟩
        · exact .inl rfl
        · refine .inr ⟨hi, fun hearliest => hlater ⟨hearliest.1, fun j hj hmem => ?_⟩⟩
          rcases List.mem_cons.1 hmem with rfl | hmem
          · exact hfalse
          · exact hearliest.2 j hj hmem

/-- The values of the rows that are left, at the places where they came. -/
structure Places (changes : List Row) (n : Nat) (table : List Row) (places : List Nat) : Prop where
  pairwise : places.Pairwise (· < ·)
  mem_iff : ∀ i, i ∈ places ↔ Survives changes n i
  values : table.map (some ·.values) = places.map (valuesAt? changes)

/-- **Taking back what is there erases the earliest place**, and a row that is added has a place
behind all others. -/
theorem Places.change {places : List Nat} (hrow : changes[n]? = some row)
    (hexact : ∀ v ∈ row.values, v.IsExact) (h : Places changes n table places) :
    ∃ places, Places changes (n + 1) (change table row) places := by
  have hsome (rows : List Row) : rows.map (some ·.values) = (rows.map Row.values).map some :=
    List.map_map.symm
  by_cases hadds : row.kind.adds = true
  · refine ⟨places ++ [n], ?_, fun i => ?_, ?_⟩
    · refine List.pairwise_append.2 ⟨h.pairwise, List.pairwise_singleton _ _, fun i hi j hj => ?_⟩
      rw [List.mem_singleton.1 hj]
      exact ((h.mem_iff i).1 hi).lt
    · rw [List.mem_append, List.mem_singleton, h.mem_iff, Survives, hrow]
      dsimp only
      rw [if_pos hadds]
    · have hlast : valuesAt? changes n = some row.values := by rw [valuesAt?, hrow]; rfl
      rw [hsome, map_values_change hexact, if_pos hadds, List.map_append, ← hsome, h.values,
        List.map_append, List.map_singleton, List.map_singleton, hlast]
  · -- The first place with the values is the place of the first row with them.
    refine ⟨places.eraseP (valuesAt? changes · == some row.values), ?_, fun i => ?_, ?_⟩
    · exact h.pairwise.sublist (List.eraseP_sublist)
    · rw [mem_eraseP_iff_of_pairwise h.pairwise, h.mem_iff, Survives, hrow]
      dsimp only
      rw [if_neg hadds, Earliest]
      simp only [h.mem_iff, beq_iff_eq, beq_eq_false_iff_ne]
      refine and_congr_right fun hi => not_congr ?_
      exact (and_iff_right hi).symm
    · rw [hsome, map_values_change hexact, if_neg hadds, List.map_erase fun _ _ => Option.some.inj,
        ← hsome, h.values, List.erase_eq_eraseP, List.eraseP_map]
      exact congrArg (List.map _) (congrArg (List.eraseP · _) (funext fun i => BEq.comm))

/-- **What is left are the survivors** in the order in which they came. -/
theorem survives_materialize (h : Exact changes) (n : Nat) :
    ∃ places, Places changes n (materialize (changes.take n)) places := by
  induction n with
  | zero => exact ⟨[], .nil, fun i => ⟨fun hi => (List.not_mem_nil hi).elim, False.elim⟩, rfl⟩
  | succ n ih =>
    obtain ⟨places, hplaces⟩ := ih
    rw [List.take_add_one]
    cases hrow : changes[n]? with
    | none =>
      rw [Option.toList_none, List.append_nil]
      refine ⟨places, hplaces.pairwise, fun i => ?_, hplaces.values⟩
      rw [hplaces.mem_iff, Survives, hrow]
    | some row =>
      have hbehind : materialize (changes.take n ++ [row]) =
          Changelog.change (materialize (changes.take n)) row := List.foldl_append
      rw [Option.toList_some, hbehind]
      exact hplaces.change hrow (h row (List.mem_of_getElem? hrow))

/-- **Materializing a changelog** keeps the balance of all values and the order of the survivors, and
every row of the table adds something.  A result that takes nothing back is shown as a table like a
bounded one with the same columns and widths is shown as a tableau. -/
theorem materialize_survivors (changes : List Row) :
    (∀ row ∈ materialize changes, row.kind = .insert) ∧
    (Exact changes →
      (∀ values, ((materialize changes).map Row.values).count values = balance values changes) ∧
      ∃ places, Places changes changes.length (materialize changes) places) ∧
    ((∀ row ∈ changes, row.kind = .insert) →
      ∀ (d d' : Descriptor) (token token' : CancelToken) (c c' : Console),
        d.schema = d'.schema → d.maxColumnWidth = d'.maxColumnWidth → d'.streaming = false →
        (d.source.collect token c.interrupts).1 = .ok changes →
        (d'.source.collect token' c'.interrupts).1 = .ok changes →
        Prints (View.present .table d token) c
          (.ok View.tableTitle :: View.boundedLines d'.schema d'.maxColumnWidth changes) ∧
        Prints (View.present .tableau d' token') c'
          (View.boundedLines d'.schema d'.maxColumnWidth changes)) := by
  refine ⟨fun row => kind_of_mem_materialize, fun h => ⟨count_materialize h, ?_⟩, ?_⟩
  · obtain ⟨places, hplaces⟩ := survives_materialize h changes.length
    rw [List.take_length] at hplaces
    exact ⟨places, hplaces⟩
  · intro h d d' token token' c c' hschema hwidth hbounded hrows hrows'
    refine ⟨?_, View.prints_tableau hbounded hrows'⟩
    have htable := View.prints_table hrows
    rwa [materialize_of_inserts h, hschema, hwidth] at htable

/-- Equal rows come twice, one of them is updated, and a row is taken back that never came. -/
def updates : List Row :=
  [.insert [.int 1], .insert [.int 2], .insert [.int 1], ⟨.delete, [.int 3]⟩,
    ⟨.updateBefore, [.int 1]⟩, ⟨.updateAfter, [.int 4]⟩]

/-- Two equal rows that arrive one by one, and the same rows all at once. -/
def arriving (streaming : Bool) : Descriptor :=
  ⟨"1", [⟨"n", "BIGINT"⟩], .table, streaming, 30,
    Local.sourceOf streaming [.insert [.int 7], .insert [.int 7]]⟩

/-- A console with nothing written at it. -/
def untouched : Console := .ofSink .unlimited false .editor

/-- The tableau of the two rows. -/
def drawn : List Text :=
  ["+---+", "| n |", "+---+", "| 7 |", "| 7 |", "+---+", "2 rows in set"]

theorem materialize_survivors_updates :
    (∀ row ∈ materialize updates, row.kind = .insert) ∧
    ((materialize updates).map Row.values).count [.int 1] = 1 ∧
    (∃ places, Places updates 6 (materialize updates) places) ∧
    (View.present .table (arriving true) 0 untouched).2.sink.written =
      asText (View.tableTitle :: drawn) ∧
    (View.present .tableau (arriving false) 0 untouched).2.sink.written = asText drawn := by
  have hexact : Exact updates := by unfold Exact; decide
  obtain ⟨hkind, hleft, -⟩ := materialize_survivors updates
  obtain ⟨hcount, hplaces⟩ := hleft hexact
  have hrows (streaming : Bool) : ((arriving streaming).source.collect 0 {}).1 =
      .ok [.insert [.int 7], .insert [.int 7]] := by
    rw [RowSource.collect_of_plain rfl rfl rfl]
    cases streaming <;> rfl
  have hdrawn : View.boundedLines [⟨"n", "BIGINT"⟩] 30 [.insert [.int 7], .insert [.int 7]] =
      drawn.map .ok := by rfl
  obtain ⟨-, -, hshown⟩ := materialize_survivors [.insert [.int 7], .insert [.int 7]]
  obtain ⟨htable, htableau⟩ := hshown (by decide) (arriving true) (arriving false) 0 0
    untouched untouched rfl rfl rfl (hrows true) (hrows false)
  refine ⟨hkind, (hcount _).trans (by decide), hplaces, ?_, ?_⟩
  · have htexts : Prints (View.present .table (arriving true) 0) untouched
        ((View.tableTitle :: drawn).map .ok) := by
      rw [List.map_cons, ← hdrawn]
      exact htable
    exact (htexts.written rfl).2
  · have htexts : Prints (View.present .tableau (arriving false) 0) untouched
        (drawn.map .ok) := by
      rw [← hdrawn]
      exact htableau
    exact (htexts.written rfl).2

example : materialize updates = [.insert [.int 2], .insert [.int 1], .insert [.int 4]] := by decide

end SqlConsole.Changelog
