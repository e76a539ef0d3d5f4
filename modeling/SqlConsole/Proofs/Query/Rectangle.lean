import Mathlib.Data.List.Basic
import SqlConsole.Proofs.Gateway.Delivery
/-!
# Results are rectangles

Rows and columns of a plan are built apart from each other: a projection has a column for every
item, and a list of `VALUES` takes its columns from its first row and refuses a row of another
width.  Whatever the tokens are, with parentheses that close nothing, empty groups or trailing
commas, there is always a part to read, and a part that is no literal is refused.  So a literal plan
is a rectangle that is not empty (`rectangular_of_literal`).

What a query delivers is the beginning of its rows, and the beginning of a rectangle is one
(`Rectangular.front`).  A scan has no columns and no rows here.
-/

namespace SqlConsole

/-- Rows that fit their columns: each adds values, one for each column, and the columns have the
types of the first row. -/
structure Rectangular (schema : Schema) (rows : List Row) : Prop where
  kind : ∀ row ∈ rows, row.kind = .insert
  width : ∀ row ∈ rows, row.values.length = schema.length
  types : ∀ first ∈ rows.head?, schema.map Column.type = first.values.map Value.typeName

namespace Rectangular

variable {schema : Schema} {rows more : List Row}

theorem empty : Rectangular [] [] := ⟨by simp, by simp, by simp⟩

theorem front (h : Rectangular schema rows) (hmore : more <+: rows) :
    Rectangular schema more where
  kind row hrow := h.kind row (hmore.subset hrow)
  width row hrow := h.width row (hmore.subset hrow)
  types first hfirst := by
    refine h.types first ?_
    obtain ⟨rest, rfl⟩ := hmore
    rw [Option.mem_def, List.head?_append, Option.mem_def.1 hfirst]
    rfl

/-- Rows of one width, under columns with the types of the first one. -/
theorem of_values {first : List Value} {others : List (List Value)}
    (htypes : schema.map Column.type = first.map Value.typeName)
    (hwidth : ∀ values ∈ first :: others, values.length = first.length) :
    Rectangular schema ((first :: others).map .insert) where
  kind row hrow := by
    obtain ⟨values, -, rfl⟩ := List.mem_map.1 hrow
    rfl
  width row hrow := by
    obtain ⟨values, hvalues, rfl⟩ := List.mem_map.1 hrow
    have hlength := congrArg List.length htypes
    rw [List.length_map, List.length_map] at hlength
    exact (hwidth values hvalues).trans hlength.symm
  types row hrow := by
    obtain rfl := Option.some.inj hrow
    exact htypes

end Rectangular

namespace Query

variable {statement : Text} {tokens : List Located} {schema : Schema} {values : List Value}

/-! ## Parts -/

theorem splitCommas_ne_nil (depth : Nat) (tokens : List Located) :
    splitCommas depth tokens ≠ [] := by
  cases tokens with
  | nil => exact List.cons_ne_nil _ _
  | cons t ts =>
    rw [splitCommas]
    split
    · exact List.cons_ne_nil _ _
    · split <;> exact List.cons_ne_nil _ _

/-- What two steps behind each other answer is what the second answers behind the first. -/
theorem exists_of_bind {ε α β : Type} {x : Except ε α} {f : α → Except ε β} {b : β}
    (h : x >>= f = .ok b) : ∃ a, x = .ok a ∧ f a = .ok b := by
  cases x with
  | error e => cases h
  | ok a => exact ⟨a, rfl, h⟩

/-! ## Projections -/

/-- Every item of a projection is a column and a value of the type of the column. -/
theorem types_of_projectionItems {index : Nat} {items : List (List Located)}
    (h : projectionItems statement index items = .ok (schema, values)) :
    schema.map Column.type = values.map Value.typeName ∧ values.length = items.length := by
  induction items generalizing index schema values with
  | nil =>
    cases h
    exact ⟨rfl, rfl⟩
  | cons item items ih =>
    obtain ⟨⟨v, name⟩, -, h⟩ := exists_of_bind h
    obtain ⟨⟨columns, rest⟩, hitems, h⟩ := exists_of_bind h
    cases h
    obtain ⟨htypes, hlength⟩ := ih hitems
    exact ⟨congrArg (v.typeName :: ·) htypes, congrArg (· + 1) hlength⟩

theorem rectangular_of_planProjection {rows : List Row}
    (h : planProjection statement tokens = .ok (.literal schema rows)) :
    Rectangular schema rows ∧ rows ≠ [] ∧ schema ≠ [] := by
  rw [planProjection] at h
  split at h
  · cases h
  obtain ⟨⟨columns, values⟩, hitems, h⟩ := exists_of_bind h
  cases h
  obtain ⟨htypes, hlength⟩ := types_of_projectionItems hitems
  have hrectangular : Rectangular schema ([values].map .insert) := .of_values htypes (by simp)
  refine ⟨hrectangular, List.cons_ne_nil _ _, ?_⟩
  rintro rfl
  rw [List.map_nil, eq_comm, List.map_eq_nil_iff] at htypes
  rw [htypes, List.length_nil, eq_comm, List.length_eq_zero_iff] at hlength
  exact splitCommas_ne_nil 0 tokens hlength

/-! ## Lists of values -/

theorem length_of_rowValues {items : List (List Located)}
    (h : rowValues statement items = .ok values) : values.length = items.length := by
  induction items generalizing values with
  | nil =>
    cases h
    rfl
  | cons item items ih =>
    rw [rowValues] at h
    cases hliteral : literal? item with
    | none =>
      rw [hliteral] at h
      cases h
    | some v =>
      rw [hliteral] at h
      obtain ⟨rest, hrest, h⟩ := exists_of_bind h
      cases h
      exact congrArg (· + 1) (ih hrest)

/-- The values of the first of some groups, and those of the others, which have the width that was
asked for, or else that of the first. -/
theorem exists_of_rowsOf_cons {width : Option Nat} {group : List Located}
    {groups : List (List Located)} {rows : List (List Value)}
    (h : rowsOf statement width (group :: groups) = .ok rows) :
    ∃ values others, rows = values :: others ∧ values ≠ [] ∧
      (∀ w ∈ width, values.length = w) ∧
      rowsOf statement (width <|> some values.length) groups = .ok others := by
  rw [rowsOf] at h
  cases hinner : betweenParentheses? group with
  | none =>
    rw [hinner] at h
    cases h
  | some inner =>
    rw [hinner] at h
    obtain ⟨values, hvalues, h⟩ := exists_of_bind h
    dsimp only at h
    split at h
    · cases h
    next hwidth =>
    obtain ⟨others, hothers, h⟩ := exists_of_bind h
    cases h
    refine ⟨values, others, rfl, ?_, ?_, hothers⟩
    · rintro rfl
      exact splitCommas_ne_nil 0 inner (List.length_eq_zero_iff.1 (length_of_rowValues hvalues).symm)
    · rintro w rfl
      have hsame : ¬ (w != values.length) = true := hwidth
      rw [bne_iff_ne, Decidable.not_not] at hsame
      exact hsame.symm

/-- Behind a first row all rows have its width. -/
theorem length_of_mem_rowsOf {w : Nat} {groups : List (List Located)} {rows : List (List Value)}
    (h : rowsOf statement (some w) groups = .ok rows) : ∀ values ∈ rows, values.length = w := by
  induction groups generalizing rows with
  | nil =>
    cases h
    exact fun values hvalues => (List.not_mem_nil hvalues).elim
  | cons group groups ih =>
    obtain ⟨first, others, rfl, -, hfirst, hothers⟩ := exists_of_rowsOf_cons h
    intro values hvalues
    rcases List.mem_cons.1 hvalues with rfl | hvalues
    · exact hfirst w rfl
    · exact ih hothers values hvalues

theorem types_columnsOf (index : Nat) (values : List Value) :
    (columnsOf index values).map Column.type = values.map Value.typeName := by
  induction values generalizing index with
  | nil => rfl
  | cons v values ih => exact congrArg (v.typeName :: ·) (ih (index + 1))

theorem rectangular_of_planValues {rows : List Row}
    (h : planValues statement tokens = .ok (.literal schema rows)) :
    Rectangular schema rows ∧ rows ≠ [] ∧ schema ≠ [] := by
  obtain ⟨found, hfound, h⟩ := exists_of_bind h
  obtain ⟨group, groups, hgroups⟩ := List.exists_cons_of_ne_nil (splitCommas_ne_nil 0 tokens)
  rw [hgroups] at hfound
  obtain ⟨first, others, rfl, hne, -, hothers⟩ := exists_of_rowsOf_cons hfound
  cases h
  refine ⟨.of_values (types_columnsOf 0 first) fun values hvalues => ?_, List.cons_ne_nil _ _, ?_⟩
  · rcases List.mem_cons.1 hvalues with rfl | hvalues
    · rfl
    · exact length_of_mem_rowsOf hothers values hvalues
  · intro hnil
    have htypes := types_columnsOf 0 first
    rw [hnil, List.map_nil, eq_comm, List.map_eq_nil_iff] at htypes
    exact hne htypes

/-! ## Plans and results -/

/-- **A literal plan is a rectangle** with at least one row and at least one column. -/
theorem rectangular_of_literal {rows : List Row} (h : plan statement = .ok (.literal schema rows)) :
    Rectangular schema rows ∧ rows ≠ [] ∧ schema ≠ [] := by
  unfold plan at h
  split at h
  · cases h
  split at h
  · cases h
  split at h
  · exact rectangular_of_planValues h
  split at h
  · cases h
  split at h
  · exact rectangular_of_planProjection h
  · split at h
    · cases h
    · cases h

end Query

namespace Local

variable {g : Local} {statement : Text} {schema : Schema} {rows : List Row} {token : CancelToken}
  {i : Interrupts} {d : Descriptor}

theorem rectangular_of_answerQuery (h : g.answerQuery statement = .ok (schema, rows)) :
    Rectangular schema rows := by
  obtain ⟨plan, hplan, h⟩ := Query.exists_of_bind h
  cases plan with
  | literal schema rows =>
    cases h
    exact (Query.rectangular_of_literal hplan).1
  | scan table =>
    dsimp only at h
    split at h
    · cases h
      exact .empty
    · cases h
      exact .empty
    · cases h

/-- **Every result is a rectangle**, whatever the statement is and whatever the state of the
gateway.  A query that succeeds delivers rows that add something, each with as many values as there
are columns, and the columns have the types of the first row.  A literal plan has a row and a
column at least, and a query with such a plan succeeds with its columns and rows unless it is
cancelled. -/
theorem results_are_rectangles (statement : Text) (g : Local) (token : CancelToken)
    (i : Interrupts) :
    (∀ d, (handle (.query statement) token g i).1 = .ok d →
        ∀ later batches, d.source.Delivers later batches →
          Rectangular d.schema batches.flatten) ∧
      ∀ schema rows, Query.plan statement = .ok (.literal schema rows) →
        rows ≠ [] ∧ schema ≠ [] ∧ (i.isCancelled token = false →
          ∃ d, (handle (.query statement) token g i).1 = .ok d ∧ d.schema = schema ∧
            d.source.batches.flatten = rows) := by
  constructor
  · intro d hd later batches hdelivers
    obtain ⟨g', hquery⟩ := exists_query_of_handle hd
    obtain ⟨rows, hanswer, hsource⟩ := exists_answer_of_query hquery
    obtain ⟨rest, hrest⟩ := hdelivers.prefix_batches
    have hbegin : batches.flatten <+: rows := by
      refine ⟨rest.flatten, ?_⟩
      rw [← List.flatten_append, hrest, hsource, flatten_batches_sourceOf]
    exact (rectangular_of_answerQuery hanswer).front hbegin
  · intro schema rows hplan
    obtain ⟨-, hrows, hschema⟩ := Query.rectangular_of_literal hplan
    refine ⟨hrows, hschema, fun hi => ?_⟩
    obtain ⟨d, hd, rfl, -, hsource⟩ := exists_handle_of_answer hi (answerQuery_of_literal hplan g)
    exact ⟨d, congrArg (·.1) hd, rfl, by rw [hsource, flatten_batches_sourceOf]⟩

/-- Two rows of different types, with a comma and a parenthesis inside of a string. -/
def twoRows : Text := "VALUES (-1, 'a,)'), (NULL, TRUE)"

theorem results_are_rectangles_twoRows :
    ∃ d, (handle (.query twoRows) 0 (ofDefaults ∅ defaultSavepointDir {}) {}).1 = .ok d ∧
      d.source.Delivers 0 [[.insert [.int (-1), .string "a,)"]]] ∧
      Rectangular d.schema [.insert [.int (-1), .string "a,)"]] := by
  have hplan : Query.plan twoRows =
      .ok (.literal [⟨"EXPR$0", "BIGINT"⟩, ⟨"EXPR$1", "STRING"⟩]
        [.insert [.int (-1), .string "a,)"], .insert [.null, .bool true]]) := by decide +kernel
  have hmode : Setting.runtimeMode.get (ofDefaults ∅ defaultSavepointDir {}).properties =
      .streaming := by decide +kernel
  have hrunning : ({} : Interrupts).isCancelled 0 = false := rfl
  obtain ⟨d, hd, -, hstreaming, hsource⟩ := exists_handle_of_answer hrunning
    (answerQuery_of_literal hplan (ofDefaults ∅ defaultSavepointDir {}))
  have hdelivers : d.source.Delivers 0 [[.insert [.int (-1), .string "a,)"]]] := by
    rw [hsource, hstreaming, hmode]
    exact .cons (i := {}) rfl (.nil _)
  have hstarted := congrArg (·.1) hd
  exact ⟨d, hstarted, hdelivers, (results_are_rectangles twoRows _ 0 {}).1 d hstarted 0 _ hdelivers⟩

end Local

end SqlConsole
