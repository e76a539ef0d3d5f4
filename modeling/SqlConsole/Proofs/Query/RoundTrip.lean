import SqlConsole.Proofs.Gateway.Delivery
import SqlConsole.Proofs.Query.Groups
import SqlConsole.Proofs.Statement.Names
/-!
# Constants come back

Rows of values that are no doubles can be asked for: as a list of `VALUES`, or as a projection where
there is one row only.  What is written down is read as the tokens that were meant (`ReadsAs`), since
every part of it ends where a comma, a parenthesis or the terminator follows.  So the statement is
parsed as a query, the query is planned as the rows, and every gateway answers it with them
(`constants_round_trip`): whatever stands in the texts, for the smallest number and the largest one,
and whether rows arrive one by one or all at once.
-/

namespace SqlConsole

open Piece

namespace Query

variable {values : List Value} {t w : Text} {ks : List Token}

/-! ## Constants as text -/

/-- Literals with a comma and a blank between each two of them. -/
def listText (values : List Value) : Text := Text.join ", " (values.map Value.literal)

def rowText (values : List Value) : Text := '(' :: (listText values ++ [')'])

/-- A row as a projection. -/
def selectStatement (values : List Value) : Text := "SELECT " ++ listText values ++ ";"

/-- Rows as a list of values. -/
def valuesStatement (rows : List (List Value)) : Text :=
  "VALUES " ++ Text.join ", " (rows.map rowText) ++ ";"

example : valuesStatement [[.int (-1), .string "it's"], [.null, .bool true]] =
    "VALUES (-1, 'it''s'), (NULL, TRUE);" := by decide

/-- A text that is read as some tokens in front of a comma, a parenthesis or a terminator. -/
def ReadsAs (t : Text) (ks : List Token) : Prop :=
  ∃ ps : List Piece, (∀ c ∈ Value.stops, ∀ rest, Glued ps (c :: rest)) ∧
    ps.filterMap token? = ks ∧ ps.flatMap text = t

theorem readsAs_literal {v : Value} (hv : v.IsExact) : ReadsAs v.literal v.tokens := by
  refine ⟨v.tokens.map ofToken, fun c hc => Value.glued_literal hv hc, filterMap_map_ofToken _, ?_⟩
  rw [List.flatMap_map]
  exact Value.flatMap_spelled_tokens hv

/-- A symbol that opens no comment and ends wherever it stands. -/
theorem glued_symbol {c : Char} (hc : c ∈ '(' :: Value.stops) (rest : Text) :
    Glued [ofToken (.symbol c)] rest := by
  have hsymbols : ∀ c ∈ '(' :: Value.stops, isBlank c = false ∧ ¬ IsQuote c ∧ c.isDigit = false ∧
      beginsWord c = false ∧ c ≠ '-' ∧ c ≠ '/' := by
    unfold IsQuote
    exact List.forall_mem_cons.2 ⟨by decide, Value.forall_stops.2 (by decide)⟩
  obtain ⟨hblank, hquote, hdigit, hword, hminus, hslash⟩ := hsymbols c hc
  exact ⟨.symbol hblank hquote hdigit hword,
    fun d _ => by simp [ofToken, endsBefore, hminus, hslash], trivial⟩

theorem intercalate_map_cons {α β : Type} (sep : List β) (f : α → List β) (x y : α) (xs : List α) :
    sep.intercalate ((x :: y :: xs).map f) =
      f x ++ (sep ++ sep.intercalate ((y :: xs).map f)) := by
  rw [List.map_cons, List.map_cons, List.intercalate_cons_cons, List.append_assoc]

/-- **Parts are read between commas.** -/
theorem readsAs_join {α : Type} {xs : List α} {write : α → Text} {meant : α → List Token}
    (h : ∀ x ∈ xs, ReadsAs (write x) (meant x)) :
    ReadsAs (Text.join ", " (xs.map write)) ([.symbol ','].intercalate (xs.map meant)) := by
  induction xs with
  | nil => exact ⟨[], fun _ _ _ => trivial, rfl, rfl⟩
  | cons x xs ih =>
    obtain ⟨hx, hxs⟩ := List.forall_mem_cons.1 h
    cases xs with
    | nil =>
      rw [List.map_singleton, List.map_singleton, Text.join, List.intercalate_singleton,
        List.intercalate_singleton]
      exact hx
    | cons y xs =>
      obtain ⟨ps, hglued, htokens, htext⟩ := hx
      obtain ⟨qs, hglued', htokens', htext'⟩ := ih hxs
      refine ⟨ps ++ ([ofToken (.symbol ','), .blank ' '] ++ qs), fun c hc rest => ?_, ?_, ?_⟩
      · have hcomma := glued_symbol (by decide : ',' ∈ '(' :: Value.stops)
          (text (.blank ' ') ++ (qs.flatMap text ++ c :: rest))
        refine glued_append.2 ⟨hglued ',' (by decide) _, hcomma.1, hcomma.2.1, ?_⟩
        exact ⟨.blank (by decide), fun _ _ => rfl, hglued' c hc rest⟩
      · rw [List.filterMap_append, htokens, List.filterMap_append, htokens', intercalate_map_cons]
        rfl
      · rw [List.flatMap_append, htext, List.flatMap_append, htext', Text.join, Text.join,
          intercalate_map_cons]
        rfl

theorem readsAs_list (h : ∀ v ∈ values, v.IsExact) :
    ReadsAs (listText values) (listTokens values) :=
  readsAs_join fun v hv => readsAs_literal (h v hv)

theorem readsAs_row (h : ∀ v ∈ values, v.IsExact) :
    ReadsAs (rowText values) (rowTokens values) := by
  obtain ⟨ps, hglued, htokens, htext⟩ := readsAs_list h
  refine ⟨ofToken (.symbol '(') :: (ps ++ [ofToken (.symbol ')')]), fun c hc rest => ?_, ?_, ?_⟩
  · have hopen := glued_symbol List.mem_cons_self
      ((ps ++ [ofToken (.symbol ')')]).flatMap text ++ c :: rest)
    refine ⟨hopen.1, hopen.2.1, glued_append.2 ⟨hglued ')' (by decide) _, ?_⟩⟩
    exact glued_symbol (by decide) _
  · rw [List.filterMap_cons, List.filterMap_append, htokens]
    rfl
  · rw [List.flatMap_cons, List.flatMap_append, htext]
    rfl

/-! ## Parsing -/

theorem terminated_eq {front : Text} (h : front = w ++ [' ']) (t : Text) :
    front ++ t ++ ";" = w ++ ' ' :: (t ++ [';']) := by
  rw [h, List.append_assoc, List.append_assoc]
  rfl

/-- A word, what is read behind it, and the terminator. -/
theorem exists_cut_of_readsAs (hw : (ofToken (.word w)).WellFormed) (ht : ReadsAs t ks) :
    ∃ ps : List Piece, ps.filterMap token? = ks ∧ cut (w ++ ' ' :: (t ++ [';'])) =
      ⟨(ofToken (.word w) :: .blank ' ' :: ps) ++ [ofToken (.symbol ';')], none⟩ := by
  obtain ⟨ps, hglued, hkinds, rfl⟩ := ht
  have hblank : (ofToken (.word w)).endsBefore ' ' = true := show (!inWord ' ') = true by decide
  have hall : Glued (ofToken (.word w) :: .blank ' ' :: (ps ++ [ofToken (.symbol ';')])) [] :=
    ⟨hw, seam_cons hblank _, .blank (by decide), fun _ _ => rfl,
      glued_append.2 ⟨hglued ';' (by decide) [], glued_symbol (by decide) []⟩⟩
  have hcut := cut_of_glued hall
  rw [cut_nil, List.append_nil, List.append_nil, List.flatMap_cons, List.flatMap_cons,
    List.flatMap_append] at hcut
  exact ⟨ps, hkinds, hcut⟩

open Statement StatementParser in
/-- A word that begins a query, and what is read behind it, are a query with these tokens. -/
theorem exists_query_of_readsAs {front : Text} (hfront : front = w ++ [' '])
    (hw : (ofToken (.word w)).WellFormed) (hopening : Opening.ofWord? w = some .query)
    (ht : ReadsAs t ks) (hks : .symbol ';' ∉ ks) :
    ∃ query src, parse (front ++ t ++ ";") = .ok (some (.query query)) ∧
      Source.ofText query = .ok src ∧ src.tokens.map (·.token) = .word w :: ks := by
  rw [terminated_eq hfront]
  obtain ⟨ps, hkinds, hcut⟩ := exists_cut_of_readsAs hw ht
  obtain ⟨src, last, hsrc, htokens, -, hbody⟩ := exists_source_terminated hcut
  obtain ⟨query, hquery, htold⟩ := exists_source_of_body hbody
  obtain ⟨place, ts, hlocated, hts⟩ : ∃ place ts,
      locate .start (ofToken (.word w) :: .blank ' ' :: ps) = ⟨.word w, place⟩ :: ts ∧
        ts.map (·.token) = ks :=
    ⟨_, _, rfl, by rw [map_token_locate]; exact hkinds⟩
  rw [hlocated, List.cons_append] at htokens
  -- The only terminator is the last token, so the statement is not refused for one inside of it.
  have hinner : ∀ k ∈ src.tokens.dropLast, k.token ≠ .symbol ';' := by
    rw [htokens, ← List.cons_append, List.dropLast_concat]
    intro k hk hterminator
    rcases List.mem_cons.1 hk with rfl | hk
    · cases hterminator
    · exact hks (hterminator ▸ hts ▸ List.mem_map_of_mem hk)
  have hend : atEnd (⟨.word w, place⟩ :: (ts ++ [last])) = false := atEnd_concat _ last ts
  refine ⟨src.body, query, parse_eq_ok_some_iff.2 ?_, hquery, ?_⟩
  · refine ⟨src, ⟨.word w, place⟩, ts ++ [last], ⟨.word w, place⟩ :: (ts ++ [last]), hsrc, htokens,
      hend, rejectInnerTerminators_of (.inr hinner) _, ?_⟩
    rw [firstWord_of_word rfl hopening]
    rfl
  · rw [htold, ← hkinds]
    rfl

/-! ## Planning -/

variable {statement : Text} {src : Source}

/-- In a list of literals there is neither a terminator nor the beginning of another part. -/
theorem plain_listTokens {k : Token} (h : k ∈ listTokens values) :
    k ≠ .symbol ';' ∧ k.isKeyword "FROM" = false := by
  constructor
  · rintro rfl
    exact absurd (symbol_of_mem_listTokens h) (by decide)
  · rcases mem_intercalate h with h | ⟨ks, hks, hk⟩
    · rw [List.mem_singleton.1 h]
      rfl
    · obtain ⟨v, -, rfl⟩ := List.mem_map.1 hks
      exact (Value.inLiteral_of_mem_tokens hk).isKeyword_from

theorem not_mem_rowsTokens (rows : List (List Value)) :
    .symbol ';' ∉ ([.symbol ','] : List Token).intercalate (rows.map rowTokens) := by
  intro h
  rcases mem_intercalate h with h | ⟨ks, hks, hk⟩
  · cases List.mem_singleton.1 h
  · obtain ⟨values, -, rfl⟩ := List.mem_map.1 hks
    rcases List.mem_cons.1 hk with hk | hk
    · cases hk
    · rcases List.mem_append.1 hk with hk | hk
      · exact (plain_listTokens hk).1 rfl
      · cases List.mem_singleton.1 hk

/-- Without a terminator all tokens behind the first word are planned. -/
theorem exists_body_of_tokens (hkinds : src.tokens.map (·.token) = .word w :: ks)
    (hks : .symbol ';' ∉ ks) :
    ∃ place ts, src.tokens.filter (·.token != .symbol ';') = ⟨.word w, place⟩ :: ts ∧
      ts.map (·.token) = ks := by
  obtain ⟨place, ts, htokens, hts⟩ := Statement.exists_cons_of_tokens hkinds
  refine ⟨place, ts, ?_, hts⟩
  rw [← htokens]
  refine List.filter_eq_self.2 fun k hk => bne_iff_ne.2 fun hterminator => ?_
  have hmem : .symbol ';' ∈ Token.word w :: ks := hterminator ▸ hkinds ▸ List.mem_map_of_mem hk
  rcases List.mem_cons.1 hmem with hmem | hmem
  · cases hmem
  · exact hks hmem

theorem behindKeyword?_eq_none {keyword : Text} {ts : List Located} (depth : Nat)
    (h : ∀ k ∈ ts, k.token.isKeyword keyword = false) : behindKeyword? keyword depth ts = none := by
  induction ts generalizing depth with
  | nil => rfl
  | cons k ts ih =>
    obtain ⟨hk, hts⟩ := List.forall_mem_cons.1 h
    rw [behindKeyword?, if_neg (by simp [hk])]
    exact ih _ hts

theorem plan_of_select (hne : values ≠ []) (hexact : ∀ v ∈ values, v.IsExact)
    (hsrc : Source.ofText statement = .ok src)
    (hkinds : src.tokens.map (·.token) = .word "SELECT" :: listTokens values) :
    plan statement = .ok (.literal (columnsOf 0 values) [.insert values]) := by
  obtain ⟨place, ts, hbody, hts⟩ :=
    exists_body_of_tokens hkinds fun hmem => (plain_listTokens hmem).1 rfl
  have hfrom : behindKeyword? "FROM" 0 ts = none := behindKeyword?_eq_none 0 fun k hk =>
    (plain_listTokens (hts ▸ List.mem_map_of_mem hk)).2
  rw [plan, hsrc]
  dsimp only
  rw [hbody]
  dsimp only
  rw [hfrom]
  exact planProjection_of_tokens hne hexact hts

section

variable {first : List Value} {others : List (List Value)} (hne : first ≠ [])
  (hwidth : ∀ values ∈ others, values.length = first.length)
  (hexact : ∀ values ∈ first :: others, ∀ v ∈ values, v.IsExact)

include hne hwidth hexact

theorem plan_of_values (hsrc : Source.ofText statement = .ok src)
    (hkinds : src.tokens.map (·.token) =
      .word "VALUES" :: [.symbol ','].intercalate ((first :: others).map rowTokens)) :
    plan statement = .ok (.literal (columnsOf 0 first) ((first :: others).map .insert)) := by
  obtain ⟨place, ts, hbody, hts⟩ := exists_body_of_tokens hkinds (not_mem_rowsTokens _)
  rw [plan, hsrc]
  dsimp only
  rw [hbody]
  exact planValues_of_tokens hne hwidth hexact hts

/-- **Constants are parsed as a query that is planned as them.** -/
theorem exists_literal_plan (hstatement : statement = valuesStatement (first :: others) ∨
      others = [] ∧ statement = selectStatement first) :
    ∃ query, Statement.parse statement = .ok (some (.query query)) ∧
      plan query = .ok (.literal (columnsOf 0 first) ((first :: others).map .insert)) := by
  rcases hstatement with rfl | ⟨rfl, rfl⟩
  · have hfront : ("VALUES " : Text) = "VALUES" ++ [' '] := by decide
    have hword : (ofToken (.word "VALUES")).WellFormed :=
      Value.wellFormed_word (by decide) (by decide)
    have hrows : ReadsAs (Text.join ", " ((first :: others).map rowText))
        ([.symbol ','].intercalate ((first :: others).map rowTokens)) :=
      readsAs_join fun values hvalues => readsAs_row (hexact values hvalues)
    obtain ⟨query, src, hparse, hsrc, hkinds⟩ :=
      exists_query_of_readsAs hfront hword rfl hrows (not_mem_rowsTokens _)
    exact ⟨query, hparse, plan_of_values hne hwidth hexact hsrc hkinds⟩
  · have hfront : ("SELECT " : Text) = "SELECT" ++ [' '] := by decide
    have hword : (ofToken (.word "SELECT")).WellFormed :=
      Value.wellFormed_word (by decide) (by decide)
    have hvalues := hexact first List.mem_cons_self
    obtain ⟨query, src, hparse, hsrc, hkinds⟩ :=
      exists_query_of_readsAs hfront hword rfl (readsAs_list hvalues)
        fun hmem => (plain_listTokens hmem).1 rfl
    exact ⟨query, hparse, plan_of_select hne hvalues hsrc hkinds⟩

end

end Query

namespace Local

open Query in
/-- **Constants come back.**  Rows of one width, with no doubles in them, are written as a list of
`VALUES`, or a single row as a projection.  That is parsed as a query, and every gateway answers it
with these rows and no others, in their order, under columns that are numbered and have the types of
the first row.  Whether the rows arrive one by one makes no difference to what is collected. -/
theorem constants_round_trip (first : List Value) (others : List (List Value)) (hne : first ≠ [])
    (hwidth : ∀ values ∈ others, values.length = first.length)
    (hexact : ∀ values ∈ first :: others, ∀ v ∈ values, v.IsExact) (statement : Text)
    (hstatement : statement = valuesStatement (first :: others) ∨
      others = [] ∧ statement = selectStatement first) :
    ∃ query, Statement.parse statement = .ok (some (.query query)) ∧
      ∀ (g : Local) (token : CancelToken) (i : Interrupts), i.isCancelled token = false →
        ∃ d : Descriptor,
          handle (.query query) token g i = (.ok d, { g with queries := g.queries + 1 }, i) ∧
          d.schema = first.mapIdx (fun n v => ⟨"EXPR$" ++ Text.ofNat n, v.typeName⟩) ∧
          d.streaming = decide (Setting.runtimeMode.get g.properties = .streaming) ∧
          ∀ (later : CancelToken) (j : Interrupts), j.isCancelled later = false →
            (d.source.collect later j).1 = .ok ((first :: others).map .insert) := by
  obtain ⟨query, hparse, hplan⟩ := exists_literal_plan hne hwidth hexact hstatement
  refine ⟨query, hparse, fun g token i hi => ?_⟩
  obtain ⟨d, hd, hschema, hstreaming, hsource⟩ :=
    exists_handle_of_answer hi (answerQuery_of_literal hplan g)
  refine ⟨d, hd, ?_, hstreaming, fun later j hj => ?_⟩
  · rw [hschema, columnsOf_eq_mapIdx]
    simp only [Nat.zero_add]
    rfl
  · rw [hsource, RowSource.collect_of_plain rfl rfl hj, flatten_batches_sourceOf]

/-- The smallest number, and a text that looks like the end of its literal and of the statement. -/
def awkwardRow : List Value := [.int Int64.minValue, .string "it's), (1); -- '/*"]

def otherRow : List Value := [.bool true, .null]

theorem constants_round_trip_awkwardRow :
    ∃ query, Statement.parse (Query.valuesStatement [awkwardRow, otherRow]) =
        .ok (some (.query query)) ∧
      ∃ d : Descriptor, (handle (.query query) 0 (ofDefaults ∅ defaultSavepointDir {}) {}).1 = .ok d ∧
        d.schema = [⟨"EXPR$0", "BIGINT"⟩, ⟨"EXPR$1", "STRING"⟩] ∧
        (d.source.collect 0 {}).1 = .ok [.insert awkwardRow, .insert otherRow] := by
  obtain ⟨query, hparse, hanswer⟩ := constants_round_trip awkwardRow [otherRow] (by decide)
    (by decide) (by decide) _ (.inl rfl)
  obtain ⟨d, hd, hschema, -, hrows⟩ := hanswer (ofDefaults ∅ defaultSavepointDir {}) 0 {} rfl
  exact ⟨query, hparse, d, congrArg (·.1) hd, hschema.trans (by decide), hrows 0 {} rfl⟩

end Local

end SqlConsole
