import SqlConsole.Proofs.Catalog.Quoted
import SqlConsole.Proofs.Statement.Canonical
import SqlConsole.Query
/-!
# Statements about a name

A table is named in statements of several kinds, and its name takes a way of its own through each of
them (`Route`).  Most statements are read token by token: whatever stands in the values of its
identifiers, a spelled name is a token for each value with points between them
(`cut_spelled_append`), and what is read is the values (`expectName_apply`, `nameParts?_apply`).
The `DESCRIBE` statement is kept as text, and in that the name stands as it is spelled
(`parse_describe`).
-/

namespace SqlConsole.Statement

open Piece StatementParser

variable {values : List Text} {src : Source} {ts : List Located} {ks : List Token}

/-! ## Tokens of names -/

/-- The pieces of a spelled name. -/
def namePieces : List Text → List Piece
  | [] => []
  | value :: values => .token (.quoted value) (quote '`' value) :: values.flatMap fun value =>
      [.token (.symbol '.') ['.'], .token (.quoted value) (quote '`' value)]

def nameTokens : List Text → List Token
  | [] => []
  | value :: values => .quoted value :: values.flatMap fun value => [.symbol '.', .quoted value]

theorem filterMap_namePieces (values : List Text) :
    (namePieces values).filterMap token? = nameTokens values := by
  cases values with
  | nil => rfl
  | cons value values =>
    rw [namePieces, nameTokens, List.filterMap_cons, List.filterMap_flatMap]
    rfl

theorem not_mem_nameTokens (values : List Text) : .symbol ';' ∉ nameTokens values := by
  cases values with
  | nil => exact List.not_mem_nil
  | cons value values => simp [nameTokens]

theorem spelled_cons (value : Text) (values : List Text) :
    spelled (value :: values) =
      quote '`' value ++ values.flatMap fun value => '.' :: quote '`' value := by
  induction values generalizing value with
  | nil => simp [spelled, dotted, Text.join]
  | cons next values ih =>
    have htail := ih next
    rw [spelled, List.map_cons] at htail ⊢
    rw [List.map_cons, dotted_cons_cons, htail, List.flatMap_cons]
    rfl

/-- A spelled name holds the characters of its values, points and backquotes. -/
theorem mem_spelled {c : Char} (h : c ∈ spelled values) :
    c = '.' ∨ c = '`' ∨ ∃ value ∈ values, c ∈ value := by
  have hquote {value : Text} (hc : c ∈ quote '`' value) : c = '`' ∨ c ∈ value := by
    rcases List.mem_cons.1 hc with hc | hc
    · exact .inl hc
    · rcases List.mem_append.1 hc with hc | hc
      · exact .inr (Text.mem_double hc)
      · exact .inl (List.mem_singleton.1 hc)
  cases values with
  | nil => cases h
  | cons value values =>
    rw [spelled_cons] at h
    rcases List.mem_append.1 h with h | h
    · exact .inr ((hquote h).imp_right fun hc => ⟨value, List.mem_cons_self, hc⟩)
    · obtain ⟨next, hnext, hc⟩ := List.mem_flatMap.1 h
      rcases List.mem_cons.1 hc with hc | hc
      · exact .inl hc
      · exact .inr ((hquote hc).imp_right fun hc => ⟨next, List.mem_cons_of_mem value hnext, hc⟩)

theorem flatMap_namePieces (values : List Text) :
    (namePieces values).flatMap text = spelled values := by
  cases values with
  | nil => rfl
  | cons value values =>
    rw [spelled_cons, namePieces, List.flatMap_cons, List.flatMap_assoc]
    simp [text]

theorem cut_quote_append (value : Text) {rest : Text} (hrest : rest.head? ≠ some '`') :
    cut (quote '`' value ++ rest) =
      ⟨.token (.quoted value) (quote '`' value) :: (cut rest).pieces, (cut rest).openEnd⟩ := by
  have hquote : IsQuote '`' := .inr (.inl rfl)
  have hread : read '`' (Text.double '`' value ++ '`' :: rest) =
      .ok (.token (.quoted value) (quote '`' value), rest) := by
    rw [read_of_isQuote hquote, readQuoted, closeQuote?_double value hrest]
    rfl
  have hcut := cut_of_read hread
  rw [quote, List.cons_append, List.append_assoc]
  exact hcut

theorem head?_points_append (values : List Text) {rest : Text} (hrest : rest.head? ≠ some '`') :
    ((values.flatMap fun value => '.' :: quote '`' value) ++ rest).head? ≠ some '`' := by
  cases values with
  | nil => exact hrest
  | cons value values =>
    intro h
    exact absurd (Option.some.inj h) (by decide)

theorem cut_points_append (values : List Text) {rest : Text} (hrest : rest.head? ≠ some '`') :
    cut ((values.flatMap fun value => '.' :: quote '`' value) ++ rest) =
      ⟨(values.flatMap fun value => [Piece.token (.symbol '.') ['.'],
        .token (.quoted value) (quote '`' value)]) ++ (cut rest).pieces, (cut rest).openEnd⟩ := by
  induction values with
  | nil => rfl
  | cons value values ih =>
    have hquote := cut_quote_append value (head?_points_append values hrest)
    have hread (r : Text) : read '.' r = .ok (.token (.symbol '.') ['.'], r) := rfl
    rw [List.flatMap_cons, List.append_assoc, List.cons_append, cut_of_read (hread _), hquote, ih,
      List.flatMap_cons]
    rfl

/-- **The lexer reads the values back**, whatever stands in them. -/
theorem cut_spelled_append (values : List Text) {rest : Text} (hrest : rest.head? ≠ some '`') :
    cut (spelled values ++ rest) =
      ⟨namePieces values ++ (cut rest).pieces, (cut rest).openEnd⟩ := by
  cases values with
  | nil => rfl
  | cons value values =>
    rw [spelled_cons, List.append_assoc, cut_quote_append value (head?_points_append values hrest),
      cut_points_append values hrest]
    rfl

/-- A spelled name begins and ends with a backquote. -/
theorem ends_spelled (hne : values ≠ []) :
    (spelled values).head? = some '`' ∧ (spelled values).getLast? = some '`' := by
  obtain ⟨value, values, rfl⟩ := List.exists_cons_of_ne_nil hne
  refine ⟨by rw [spelled_cons]; rfl, ?_⟩
  rcases List.eq_nil_or_concat values with rfl | ⟨init, last, rfl⟩
  · rw [spelled_cons, List.flatMap_nil, List.append_nil, quote, ← List.cons_append,
      List.getLast?_concat]
  · have hlast : '.' :: quote '`' last = ('.' :: '`' :: Text.double '`' last) ++ ['`'] := rfl
    rw [spelled_cons, List.concat_eq_append, List.flatMap_append, List.flatMap_singleton, hlast,
      ← List.append_assoc, ← List.append_assoc, List.getLast?_concat]

/-! ## Reading names -/

/-- The first of some tokens, with its place. -/
theorem exists_cons_of_tokens {k : Token} (h : ts.map (·.token) = k :: ks) :
    ∃ place rest, ts = ⟨k, place⟩ :: rest ∧ rest.map (·.token) = ks := by
  obtain ⟨t, rest, rfl, rfl, hrest⟩ := List.map_eq_cons_iff.1 h
  exact ⟨t.span, rest, rfl, hrest⟩

/-- Values with a point in front of each are read, up to a token that is no point. -/
theorem moreIdentifiers_apply
    (hts : ts.map (·.token) =
      (values.flatMap fun value => [Token.symbol '.', .quoted value]) ++ ks)
    (hks : ks.head? ≠ some (.symbol '.')) :
    ∃ us, moreIdentifiers '.' ts = .ok (values, us) ∧ us.map (·.token) = ks := by
  induction values generalizing ts with
  | nil =>
    refine ⟨ts, ?_, hts⟩
    rw [List.flatMap_nil, List.nil_append] at hts
    match ts with
    | [] => rfl
    | [t] =>
      have ht : t.token ≠ .symbol '.' := fun heq => hks (by rw [← hts, ← heq]; rfl)
      rw [moreIdentifiers, if_neg ht]
    | t :: part :: rest =>
      have ht : t.token ≠ .symbol '.' := fun heq => hks (by rw [← hts, ← heq]; rfl)
      rw [moreIdentifiers, if_neg ht]
  | cons value values ih =>
    rw [List.flatMap_cons, List.append_assoc] at hts
    obtain ⟨_, rest, rfl, hpoint⟩ := exists_cons_of_tokens hts
    obtain ⟨_, rest, rfl, hrest⟩ := exists_cons_of_tokens hpoint
    obtain ⟨us, hmore, hus⟩ := ih hrest
    refine ⟨us, ?_, hus⟩
    rw [moreIdentifiers, if_pos rfl]
    dsimp only [Token.identifier?]
    rw [hmore]
    rfl

theorem expectName_apply (hne : values ≠ []) (hts : ts.map (·.token) = nameTokens values ++ ks)
    (hks : ks.head? ≠ some (.symbol '.')) (src : Source) :
    ∃ us, expectName src ts = .ok (dotted values, us) ∧ us.map (·.token) = ks := by
  obtain ⟨value, values, rfl⟩ := List.exists_cons_of_ne_nil hne
  obtain ⟨place, rest, rfl, hrest⟩ := exists_cons_of_tokens hts
  obtain ⟨us, hmore, hus⟩ := moreIdentifiers_apply hrest hks
  refine ⟨us, ?_, hus⟩
  have hfirst : expectIdentifier src (⟨.quoted value, place⟩ :: rest) = .ok (value, rest) := rfl
  refine run_bind_ok ((run_bind_ok hfirst).trans ?_)
  rw [run_get_bind, hmore]
  rfl

/-- The planner reads the values as well. -/
theorem nameParts?_apply (hne : values ≠ []) (hts : ts.map (·.token) = nameTokens values) :
    Query.nameParts? ts = some values := by
  obtain ⟨value, values, rfl⟩ := List.exists_cons_of_ne_nil hne
  induction values generalizing value ts with
  | nil =>
    obtain ⟨_, rest, rfl, hrest⟩ := exists_cons_of_tokens hts
    obtain rfl := List.map_eq_nil_iff.1 hrest
    rfl
  | cons next values ih =>
    obtain ⟨_, rest, rfl, hpoint⟩ := exists_cons_of_tokens hts
    rw [List.flatMap_cons] at hpoint
    obtain ⟨_, rest, rfl, hrest⟩ := exists_cons_of_tokens hpoint
    have hmore := ih next (List.cons_ne_nil _ _) hrest
    rw [Query.nameParts?, hmore]
    rfl

/-! ## Statements -/

/-- A statement that a table is named in. -/
inductive Route where
  | showCreate
  | query
  | insert
  | drop
  | describe
  deriving DecidableEq, Repr

namespace Route

/-- What stands in front of the name. -/
def front : Route → Text
  | .showCreate => "SHOW CREATE TABLE "
  | .query => "SELECT * FROM "
  | .insert => "INSERT INTO "
  | .drop => "DROP TABLE "
  | .describe => "DESCRIBE "

/-- What stands behind the name. -/
def back : Route → Text
  | .insert => " VALUES (1);"
  | _ => ";"

def statement (r : Route) (name : Text) : Text := r.front ++ (name ++ r.back)

def frontTokens : Route → List Token
  | .showCreate => [.word "SHOW", .word "CREATE", .word "TABLE"]
  | .query => [.word "SELECT", .symbol '*', .word "FROM"]
  | .insert => [.word "INSERT", .word "INTO"]
  | .drop => [.word "DROP", .word "TABLE"]
  | .describe => [.word "DESCRIBE"]

def backTokens : Route → List Token
  | .insert => [.word "VALUES", .symbol '(', .number "1", .symbol ')', .symbol ';']
  | _ => [.symbol ';']

theorem cut_front (r : Route) : (cut r.front).openEnd = none ∧
    (cut r.front).pieces.getLast? = some (.blank ' ') ∧ tokens r.front = r.frontTokens := by
  cases r <;> decide +kernel

theorem cut_back (r : Route) : (cut r.back).openEnd = none ∧ r.back.head? ≠ some '`' ∧
    tokens r.back = r.backTokens := by
  cases r <;> decide +kernel

theorem cut_statement (r : Route) (values : List Text) {back : Text}
    (hback : back.head? ≠ some '`') : cut (r.front ++ (spelled values ++ back)) =
      ⟨(cut r.front).pieces ++ (namePieces values ++ (cut back).pieces), (cut back).openEnd⟩ := by
  have hseam : ∀ p ∈ (cut r.front).pieces.getLast?, Seam p (spelled values ++ back) := by
    intro p hp
    rw [r.cut_front.2.1] at hp
    obtain rfl := Option.some.inj hp
    exact fun d _ => rfl
  rw [cut_append r.cut_front.1 hseam, cut_spelled_append values hback]

/-- Only the last token of a statement is a terminator. -/
theorem exists_backTokens (r : Route) :
    ∃ ks, r.backTokens = ks ++ [.symbol ';'] ∧ .symbol ';' ∉ ks := by
  cases r with
  | insert => exact ⟨[.word "VALUES", .symbol '(', .number "1", .symbol ')'], rfl, by decide⟩
  | showCreate | query | drop | describe => exact ⟨[], rfl, List.not_mem_nil⟩

theorem not_mem_frontTokens (r : Route) : .symbol ';' ∉ r.frontTokens := by
  cases r <;> decide

theorem source_statement (r : Route) (values : List Text) :
    ∃ src, Source.ofText (r.statement (spelled values)) = .ok src ∧
      src.tokens.map (·.token) = r.frontTokens ++ (nameTokens values ++ r.backTokens) := by
  have hcut := r.cut_statement values r.cut_back.2.1
  have hclosed : Closed (r.statement (spelled values)) := by
    rw [Closed, statement, hcut]
    exact r.cut_back.1
  obtain ⟨src, hsrc⟩ := exists_source hclosed
  refine ⟨src, hsrc, ?_⟩
  rw [(map_token_of_ofText hsrc).2, tokens, statement, hcut, List.filterMap_append,
    List.filterMap_append, filterMap_namePieces, ← r.cut_front.2.2, ← r.cut_back.2.2]
  rfl

theorem rejectInnerTerminators_statement (r : Route)
    (hkinds : src.tokens.map (·.token) = r.frontTokens ++ (nameTokens values ++ r.backTokens))
    (ts : List Located) : rejectInnerTerminators src ts = .ok ((), ts) := by
  obtain ⟨behind, hback, hbehind⟩ := r.exists_backTokens
  refine rejectInnerTerminators_of (.inr fun t ht hterminator => ?_) ts
  have hmem : t.token ∈ src.tokens.dropLast.map (·.token) := List.mem_map_of_mem ht
  rw [List.map_dropLast, hkinds, hback, ← List.append_assoc, ← List.append_assoc,
    List.dropLast_concat, hterminator] at hmem
  rcases List.mem_append.1 hmem with hmem | hmem
  · rcases List.mem_append.1 hmem with hmem | hmem
    · exact r.not_mem_frontTokens hmem
    · exact not_mem_nameTokens values hmem
  · exact hbehind hmem

/-- The first word of a statement decides how the rest of it is read. -/
theorem exists_first (r : Route) (hne : values ≠ []) {w : Text} {opening : Opening}
    (hfront : r.frontTokens = .word w :: ks)
    (hopening : Opening.ofWord? w = some opening) :
    ∃ src place ts, Source.ofText (r.statement (spelled values)) = .ok src ∧
      ts.map (·.token) = ks ++ (nameTokens values ++ r.backTokens) ∧
      ∀ op left, ofOpening (inside (r.statement (spelled values))) opening src
          (⟨.word w, place⟩ :: ts) = .ok (op, left) →
        parse (r.statement (spelled values)) = .ok (some op) := by
  obtain ⟨src, hsrc, hkinds⟩ := r.source_statement values
  have hreject := r.rejectInnerTerminators_statement hkinds
  rw [hfront] at hkinds
  obtain ⟨place, ts, htokens, hts⟩ := exists_cons_of_tokens hkinds
  have hend : atEnd (⟨.word w, place⟩ :: ts) = false := by
    obtain ⟨value, values, rfl⟩ := List.exists_cons_of_ne_nil hne
    cases ts with
    | nil =>
      have hlength := congrArg List.length hts
      simp [nameTokens] at hlength
    | cons => rfl
  refine ⟨src, place, ts, hsrc, hts, fun op left hop => ?_⟩
  refine parse_eq_ok_some_iff.2 ⟨src, _, ts, left, hsrc, htokens, hend, hreject _, ?_⟩
  rw [firstWord_of_word rfl hopening]
  exact run_bind_ok hop

end Route

theorem atEnd_of_terminator (hts : ts.map (·.token) = [.symbol ';']) : atEnd ts := by
  obtain ⟨_, rest, rfl, hrest⟩ := exists_cons_of_tokens hts
  obtain rfl := List.map_eq_nil_iff.1 hrest
  rfl

theorem expectEnd_apply (hts : atEnd ts) (src : Source) : expectEnd src ts = .ok ((), ts) := by
  rw [expectEnd, run_get_bind, hts]
  rfl

/-- **The tokens of the name are read.** -/
theorem parse_showCreate (hne : values ≠ []) :
    parse (Route.showCreate.statement (spelled values)) =
      .ok (some (.showCreateTable (dotted values))) := by
  have hopening : Opening.ofWord? "SHOW" = some .showing := rfl
  obtain ⟨src, a, ts, -, hts, hparse⟩ :=
    Route.exists_first .showCreate hne rfl hopening
  obtain ⟨b, ts, rfl, hcreate⟩ := exists_cons_of_tokens hts
  obtain ⟨c, ts, rfl, htable⟩ := exists_cons_of_tokens hcreate
  obtain ⟨us, hname, hus⟩ := expectName_apply hne htable (by decide) src
  have hend : atEnd us := atEnd_of_terminator hus
  have hread : showCreate src
      (⟨.word "SHOW", a⟩ :: ⟨.word "CREATE", b⟩ :: ⟨.word "TABLE", c⟩ :: ts) =
        (expectName >>= fun name => expectEnd >>= fun _ =>
          pure (.showCreateTable name)) src ts := rfl
  refine hparse _ us (hread.trans ((run_bind_ok hname).trans ?_))
  exact run_bind_ok (expectEnd_apply hend src)

theorem parse_drop (hne : values ≠ []) :
    ∃ s, parse (Route.drop.statement (spelled values)) =
      .ok (some (.drop ⟨.table, dotted values, false, s⟩)) := by
  have hopening : Opening.ofWord? "DROP" = some .drop := rfl
  obtain ⟨src, a, ts, -, hts, hparse⟩ := Route.exists_first .drop hne rfl hopening
  obtain ⟨b, ts, rfl, htable⟩ := exists_cons_of_tokens hts
  obtain ⟨us, hname, -⟩ := expectName_apply hne htable (by decide) src
  obtain ⟨value, values, rfl⟩ := List.exists_cons_of_ne_nil hne
  obtain ⟨c, ts, rfl, -⟩ := exists_cons_of_tokens htable
  -- A quoted value is no keyword, so nothing is taken in front of it.
  have hread : definition "DROP" ["IF", "EXISTS"] src
      (⟨.word "DROP", a⟩ :: ⟨.word "TABLE", b⟩ :: ⟨.quoted value, c⟩ :: ts) =
        (expectName >>= fun name => pure ⟨.table, name, false, src.body⟩) src
          (⟨.quoted value, c⟩ :: ts) := rfl
  exact ⟨src.body, hparse _ us (run_bind_ok (hread.trans (run_bind_ok hname)))⟩

theorem parse_insert (hne : values ≠ []) :
    ∃ s, parse (Route.insert.statement (spelled values)) =
      .ok (some (.insert ⟨.insertInto, dotted values, s⟩)) := by
  have hopening : Opening.ofWord? "INSERT" = some .insert := rfl
  obtain ⟨src, a, ts, -, hts, hparse⟩ := Route.exists_first .insert hne rfl hopening
  obtain ⟨b, ts, rfl, hinto⟩ := exists_cons_of_tokens hts
  obtain ⟨us, hname, hus⟩ := expectName_apply hne hinto (by decide) src
  obtain ⟨_, us, rfl, hvalues⟩ := exists_cons_of_tokens hus
  obtain ⟨_, us, rfl, -⟩ := exists_cons_of_tokens hvalues
  obtain ⟨value, values, rfl⟩ := List.exists_cons_of_ne_nil hne
  obtain ⟨c, ts, rfl, -⟩ := exists_cons_of_tokens hinto
  have hread : insert src
      (⟨.word "INSERT", a⟩ :: ⟨.word "INTO", b⟩ :: ⟨.quoted value, c⟩ :: ts) =
        (expectName >>= fun target => do
          if atEnd (← get) then unexpected "query or VALUES"
          let src ← read
          return ⟨.insertInto, target, src.textBetween a.start.offset src.bodyEnd⟩) src
          (⟨.quoted value, c⟩ :: ts) := rfl
  exact ⟨_, hparse _ _ (run_bind_ok (hread.trans (run_bind_ok hname)))⟩

/-- The body of a statement that ends with its name. -/
theorem Route.body_statement {r : Route} (hr : r ≠ .insert) (hne : values ≠ [])
    (hsrc : Source.ofText (r.statement (spelled values)) = .ok src) :
    src.body = r.front ++ spelled values := by
  have hback : r.back = [';'] := by
    cases r with
    | insert => exact (hr rfl).elim
    | showCreate | query | drop | describe => rfl
  have hread : read ';' [] = .ok (.token (.symbol ';') [';'], []) := rfl
  have hcut : cut (r.statement (spelled values)) =
      ⟨((cut r.front).pieces ++ namePieces values) ++ [.token (.symbol ';') [';']], none⟩ := by
    rw [statement, hback, r.cut_statement values (by decide), cut_of_read hread, cut_nil,
      List.append_assoc]
  obtain ⟨src', -, hsrc', -, -, hbody⟩ := exists_source_terminated hcut
  obtain rfl : src' = src := Except.ok.inj (hsrc'.symm.trans hsrc)
  have htext : (cut r.front).pieces.flatMap text = r.front := Closed.flatMap_text r.cut_front.1
  rw [hbody.body_eq, List.flatMap_append, htext, flatMap_namePieces]
  refine Text.trim_of_ends (fun c hc => ?_) fun c hc => ?_
  · cases r <;> exact (Option.some.inj hc) ▸ by decide
  · rw [List.getLast?_append, (ends_spelled hne).2] at hc
    obtain rfl := Option.some.inj hc
    decide

theorem parse_query (hne : values ≠ []) :
    parse (Route.query.statement (spelled values)) =
      .ok (some (.query (Route.query.front ++ spelled values))) := by
  have hopening : Opening.ofWord? "SELECT" = some .query := rfl
  obtain ⟨src, a, ts, hsrc, -, hparse⟩ := Route.exists_first .query hne rfl hopening
  rw [← Route.body_statement (by decide) hne hsrc]
  exact hparse _ (⟨.word "SELECT", a⟩ :: ts) rfl

theorem parse_describe (hne : values ≠ []) :
    parse (Route.describe.statement (spelled values)) =
      .ok (some (.other (Route.describe.front ++ spelled values))) := by
  have hopening : Opening.ofWord? "DESCRIBE" = some .passed := rfl
  obtain ⟨src, a, ts, hsrc, -, hparse⟩ :=
    Route.exists_first .describe hne rfl hopening
  rw [← Route.body_statement (by decide) hne hsrc]
  exact hparse _ (⟨.word "DESCRIBE", a⟩ :: ts) rfl

/-- The plan of the query is a scan of what its values name. -/
theorem plan_query (hne : values ≠ []) :
    Query.plan (Route.query.front ++ spelled values) = .ok (.scan (dotted values)) := by
  have hnil : ([] : Text).head? ≠ some '`' := by decide
  have hcut := Route.query.cut_statement values hnil
  rw [List.append_nil, cut_nil, List.append_nil] at hcut
  have hfront : (cut (Route.front .query)).pieces.filterMap token? =
      [.word "SELECT", .symbol '*', .word "FROM"] := Route.query.cut_front.2.2
  have hclosed : Closed (Route.query.front ++ spelled values) := by
    rw [Closed, hcut]
  obtain ⟨src, hsrc⟩ := exists_source hclosed
  have hkinds : src.tokens.map (·.token) =
      [.word "SELECT", .symbol '*', .word "FROM"] ++ nameTokens values := by
    rw [(map_token_of_ofText hsrc).2, tokens, hcut, List.filterMap_append, hfront,
      filterMap_namePieces]
  have hplain : src.tokens.filter (·.token != .symbol ';') = src.tokens := by
    refine List.filter_eq_self.2 fun t ht => bne_iff_ne.2 fun hterminator => ?_
    have hmem : .symbol ';' ∈ src.tokens.map (·.token) := hterminator ▸ List.mem_map_of_mem ht
    rw [hkinds] at hmem
    rcases List.mem_append.1 hmem with hmem | hmem
    · exact absurd hmem (by decide)
    · exact not_mem_nameTokens values hmem
  obtain ⟨a, ts, hall, hselect⟩ := exists_cons_of_tokens hkinds
  obtain ⟨b, ts, rfl, hstar⟩ := exists_cons_of_tokens hselect
  obtain ⟨c, ts, rfl, hfrom⟩ := exists_cons_of_tokens hstar
  have hbehind : Query.behindKeyword? "FROM" 0
      (⟨.symbol '*', b⟩ :: ⟨.word "FROM", c⟩ :: ts) = some ts := rfl
  rw [Query.plan, hsrc]
  dsimp only
  rw [hplain, hall]
  dsimp only
  rw [hbehind]
  dsimp only
  rw [nameParts?_apply hne hfrom]
  rfl

end SqlConsole.Statement
