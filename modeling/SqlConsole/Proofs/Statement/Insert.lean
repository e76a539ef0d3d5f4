import SqlConsole.Proofs.Script.Blocks
import SqlConsole.Proofs.Statement.Kinds
import SqlConsole.Proofs.Token.Places
/-!
# Insertions

Only a statement whose first word is `INSERT` asks for an insertion (`exists_insert_of_parse`), and
the statement that is handed over is the text from that word to the end (`BodyOf`,
`BodyOf.statement_of_insert`).  So where the statement of an insertion is parsed as the insertion
(`StandsAlone`), it begins with its keyword, has no terminator in it and nothing around it, and a
terminator behind it changes nothing (`StandsAlone.parse_terminated`).
-/

namespace SqlConsole.Statement

open StatementParser Piece

variable {src : Source} {ts us : List Located}

/-- Only two ways to begin lead to an insertion. -/
theorem opening_of_insertion {inner : Text → Except ParseError (Option Operation)}
    {opening : Opening} {m : Modify}
    (h : ofOpening inner opening src ts = .ok (.insert m, us)) :
    opening = .insert ∨ opening = .execute := by
  have hkind : Operation.Kind.insert ∈ opening.kinds := kind_of_ofOpening h
  cases opening <;> simp [Opening.kinds] at hkind ⊢

/-! ## Insertions -/

theorem not_isKeyword_of_isKeyword {keyword other : Text} {k : Token}
    (hne : Text.upper keyword ≠ Text.upper other) (h : k.isKeyword keyword) :
    k.isKeyword other = false := by
  cases k with
  | word w =>
    have hw : Text.upper w = Text.upper keyword := beq_iff_eq.1 h
    refine beq_eq_false_iff_ne.2 fun hother => hne ?_
    rw [← hw, hother]
  | _ => rfl

/-- The keyword of an insertion is a word that statements begin with. -/
theorem opening_of_isKeyword {k : Token} (h : k.isKeyword "INSERT") :
    ∃ w, k = .word w ∧ Opening.ofWord? w = some .insert := by
  cases k with
  | word w =>
    have hupper : Text.upper w = Text.upper "INSERT" := beq_iff_eq.1 h
    refine ⟨w, rfl, ?_⟩
    rw [Opening.ofWord?, hupper]
    rfl
  | quoted | string | number | symbol => cases h

/-- A statement whose first word is the keyword of an insertion is parsed as one. -/
theorem firstWord_of_insert {inner : Text → Except ParseError (Option Operation)} {t : Located}
    {m : Modify} (hkeyword : t.token.isKeyword "INSERT") (h : insert src ts = .ok (m, us)) :
    firstWord inner t src ts = .ok (some (.insert m), us) := by
  obtain ⟨w, hword, hopening⟩ := opening_of_isKeyword hkeyword
  rw [firstWord_of_word hword hopening]
  show ((insert >>= fun m => pure (.insert m)) >>= fun op => pure (some op) :
    StatementParser (Option Operation)) src ts = _
  rw [bind_assoc, run_bind_ok h]
  rfl

/-- What stands in front of the query of an insertion: how a table is written, and its name. -/
def insertHeading : StatementParser (ModifyKind × Text) := do
  expectKeyword "INSERT"
  let kind ← do
    if ← eatKeyword "INTO" then pure .insertInto
    else if ← eatKeyword "OVERWRITE" then pure .insertOverwrite
    else unexpected "INTO or OVERWRITE"
  let _ ← eatKeyword "TABLE"
  let target ← expectName
  if atEnd (← get) then unexpected "query or VALUES"
  return (kind, target)

theorem insert_eq : insert =
    here >>= fun place => insertHeading >>= fun heading => read >>= fun src =>
    pure ⟨heading.1, heading.2, src.textBetween place.start.offset src.bodyEnd⟩ := by
  unfold insert insertHeading
  simp only [bind_assoc]
  refine bind_congr fun place => bind_congr fun _ => bind_congr fun into => ?_
  split
  · simp only [pure_bind, bind_assoc]
    refine bind_congr fun _ => bind_congr fun target => bind_congr fun left => ?_
    split <;> simp
  · simp only [bind_assoc]
    refine bind_congr fun overwrite => ?_
    split
    · simp only [pure_bind, bind_assoc]
      refine bind_congr fun _ => bind_congr fun target => bind_congr fun left => ?_
      split <;> simp
    · simp only [bind_assoc]
      refine bind_congr fun kind => bind_congr fun _ => ?_
      refine bind_congr fun target => bind_congr fun left => ?_
      split <;> simp

theorem keepsTerminator_insertHeading : KeepsTerminator insertHeading := by
  have htarget (kind : ModifyKind) : KeepsTerminator (do
      let _ ← eatKeyword "TABLE"
      let target ← expectName
      if atEnd (← get) then unexpected "query or VALUES"
      return (kind, target)) :=
    .bind (keepsTerminator_eatKeywords ["TABLE"]) fun _ =>
      .bind keepsTerminator_expectName fun target => keepsTerminator_unlessAtEnd _ (kind, target)
  refine .bind (keepsTerminator_expectKeyword "INSERT") fun _ =>
    .bind (keepsTerminator_eatKeywords ["INTO"]) fun _ => .ite ?_ ?_
  · exact .bind (.result _) htarget
  · refine .bind (keepsTerminator_eatKeywords ["OVERWRITE"]) fun _ => .ite ?_ ?_
    · exact .bind (.result _) htarget
    · exact .bind (.unexpected _) htarget

/-- An insertion begins with its keyword, and its statement goes on to the end. -/
theorem exists_of_insert {m : Modify} (h : insert src ts = .ok (m, us)) :
    ∃ t rest, ts = t :: rest ∧ t.token.isKeyword "INSERT" ∧
      m.statement = src.textBetween t.span.start.offset src.bodyEnd := by
  rw [insert_eq] at h
  obtain ⟨place, mid, hplace, hrest⟩ := ok_of_run_bind h
  obtain ⟨heading, left, hheading, hrest⟩ := ok_of_run_bind hrest
  cases hrest
  obtain ⟨u, behind, hkeyword, -⟩ := ok_of_run_bind hheading
  have hmid : mid = ts := by
    cases ts <;> cases hplace <;> rfl
  subst hmid
  obtain ⟨t, rfl, htoken⟩ := eq_cons_of_expectKeyword hkeyword
  cases hplace
  exact ⟨t, behind, rfl, htoken, rfl⟩

/-- An insertion is read in the same way where a terminator follows. -/
theorem insert_concat {m : Modify} {t last : Located} (hlast : last.token = .symbol ';')
    (hts : ∀ k ∈ t :: ts, k.token ≠ .symbol ';') (h : insert src (t :: ts) = .ok (m, us))
    (src' : Source) : insert src' (t :: ts ++ [last]) =
      .ok (⟨m.kind, m.target, src'.textBetween t.span.start.offset src'.bodyEnd⟩,
        us ++ [last]) := by
  rw [insert_eq] at h ⊢
  obtain ⟨place, mid, hplace, hrest⟩ := ok_of_run_bind h
  cases hplace
  obtain ⟨heading, left, hheading, hrest⟩ := ok_of_run_bind hrest
  obtain ⟨-, hheading'⟩ := keepsTerminator_insertHeading src' hlast hts hheading
  have hplace' : here src' (t :: ts ++ [last]) = .ok (t.span, t :: ts ++ [last]) := rfl
  rw [run_bind_ok hplace', run_bind_ok hheading']
  cases hrest
  rfl

/-! ## Where a statement ends -/

/-- The tokens of a source are those of its text. -/
theorem map_token_of_ofText {t : Text} (h : Source.ofText t = .ok src) :
    Closed t ∧ src.tokens.map (·.token) = tokens t := by
  obtain ⟨lexed, hlexed, -, htokens⟩ := source_of_ofText h
  obtain ⟨hclosed, hsame⟩ := Lexed.closed_of_ofText hlexed
  exact ⟨hclosed, by rw [htokens, hsame]⟩

/-- The source of a text, whose pieces are a body and an ending that begins with the terminator. -/
structure BodyOf (t : Text) (src : Source) (body ending : List Piece) : Prop where
  closed : Closed t
  text : src.text = t
  tokens : src.tokens = locate .start (cut t).pieces
  pieces : (cut t).pieces = body ++ ending
  bodyEnd : src.bodyEnd = Text.byteLength (body.flatMap Piece.text)
  terminated : ending = [] ∧ (∀ last ∈ src.tokens.getLast?, last.token ≠ .symbol ';') ∨
    ∃ lexeme behind, ending = .token (.symbol ';') lexeme :: behind ∧ behind.filterMap token? = []

theorem exists_bodyOf {t : Text} {src : Source} (h : Source.ofText t = .ok src) :
    ∃ body ending, BodyOf t src body ending := by
  obtain ⟨lexed, hlexed, -, -⟩ := source_of_ofText h
  obtain ⟨hclosed, -⟩ := Lexed.closed_of_ofText hlexed
  have htext := hclosed.flatMap_text
  unfold Source.ofText at h
  rw [Lexed.ofText_of_closed hclosed] at h
  dsimp only at h
  cases hlast : (locate .start (cut t).pieces).getLast? with
  | none =>
    rw [hlast] at h
    cases h
    refine ⟨(cut t).pieces, [], hclosed, rfl, rfl, by simp, by rw [htext], .inl ⟨rfl, ?_⟩⟩
    simp [hlast]
  | some last =>
    rw [hlast] at h
    by_cases hterminator : last.token = .symbol ';'
    · obtain ⟨init, hinit⟩ := List.getLast?_eq_some_iff.1 hlast
      obtain ⟨before, lexeme, behind, hpieces, -, hplace, hbehind⟩ := exists_of_locate_eq hinit
      rw [hterminator] at hpieces
      simp only [if_pos hterminator] at h
      cases h
      refine ⟨before, .token (.symbol ';') lexeme :: behind, hclosed, rfl, rfl, hpieces, ?_,
        .inr ⟨lexeme, behind, rfl, hbehind⟩⟩
      rw [hplace, Position.offset_after]
      exact Nat.zero_add _
    · simp only [if_neg hterminator] at h
      cases h
      refine ⟨(cut t).pieces, [], hclosed, rfl, rfl, by simp, by rw [htext], .inl ⟨rfl, ?_⟩⟩
      intro found hfound
      rw [hlast] at hfound
      cases hfound
      exact hterminator

namespace BodyOf

variable {t : Text} {body ending : List Piece}

/-- The text between two places of the body is the text of the pieces between them. -/
theorem textBetween (h : BodyOf t src body ending) (before mid behind : List Piece)
    (hbody : body = before ++ mid ++ behind) :
    src.textBetween (Text.byteLength (before.flatMap Piece.text))
      (Text.byteLength (before.flatMap Piece.text) + Text.byteLength (mid.flatMap Piece.text)) =
        Text.trim (mid.flatMap Piece.text) := by
  have hpieces : (cut t).pieces = before ++ mid ++ (behind ++ ending) := by
    rw [h.pieces, hbody, List.append_assoc]
  have hle : Text.byteLength (before.flatMap Piece.text) +
      Text.byteLength (mid.flatMap Piece.text) ≤ src.bodyEnd := by
    rw [h.bodyEnd, hbody]
    simp only [List.flatMap_append, Text.byteLength_append]
    omega
  rw [Source.textBetween, Nat.min_eq_left hle, h.text, slice?_pieces h.closed hpieces]
  rfl

/-- The tokens from one that is no terminator on belong to the body. -/
theorem exists_of_tokens (h : BodyOf t src body ending) {front rest : List Located} {k : Located}
    (hk : k.token ≠ .symbol ';') (htokens : src.tokens = front ++ k :: rest) :
    ∃ before lexeme mid, body = before ++ .token k.token lexeme :: mid ∧
      locate .start before = front ∧
      k.span.start.offset = Text.byteLength (before.flatMap Piece.text) := by
  rw [h.tokens] at htokens
  obtain ⟨before, lexeme, behind, hpieces, hfront, hplace, -⟩ := exists_of_locate_eq htokens
  have hoffset : k.span.start.offset = Text.byteLength (before.flatMap Piece.text) := by
    rw [hplace, Position.offset_after]
    exact Nat.zero_add _
  rw [h.pieces] at hpieces
  rcases List.append_eq_append_iff.1 hpieces with ⟨skipped, rfl, hending⟩ | ⟨mid, hbody, hmid⟩
  · exfalso
    rcases h.terminated with ⟨rfl, -⟩ | ⟨lexeme', behind', rfl, hnone⟩
    · cases skipped <;> cases hending
    · cases skipped with
      | nil =>
        obtain ⟨hsame, -⟩ := List.cons.inj hending
        exact hk (Piece.token.inj hsame).1.symm
      | cons first skipped =>
        obtain ⟨-, rfl⟩ := List.cons.inj hending
        simp [token?] at hnone
  · cases mid with
    | nil =>
      exfalso
      rcases h.terminated with ⟨rfl, -⟩ | ⟨lexeme', behind', rfl, -⟩
      · cases hmid
      · obtain ⟨hsame, -⟩ := List.cons.inj hmid
        exact hk (Piece.token.inj hsame).1
    | cons first mid =>
      obtain ⟨rfl, -⟩ := List.cons.inj hmid
      exact ⟨before, lexeme, mid, hbody, hfront, hoffset⟩

/-- The statement of an insertion is the body from its keyword on. -/
theorem statement_of_insert (h : BodyOf t src body ending) {front : List Located} {m : Modify}
    (htokens : src.tokens = front ++ ts) (hinsert : insert src ts = .ok (m, us)) :
    ∃ before k lexeme mid, body = before ++ .token k lexeme :: mid ∧ locate .start before = front ∧
      k.isKeyword "INSERT" ∧
      m.statement = Text.trim ((.token k lexeme :: mid : List Piece).flatMap Piece.text) := by
  obtain ⟨first, rest, rfl, hkeyword, hstatement⟩ := exists_of_insert hinsert
  have hk : first.token ≠ .symbol ';' := by
    intro hk
    rw [hk] at hkeyword
    cases hkeyword
  obtain ⟨before, lexeme, mid, hbody, hfront, hoffset⟩ := h.exists_of_tokens hk htokens
  refine ⟨before, first.token, lexeme, mid, hbody, hfront, hkeyword, ?_⟩
  have hbetween := h.textBetween before (.token first.token lexeme :: mid) []
    (by rw [hbody, List.append_nil])
  rw [hstatement, hoffset, h.bodyEnd, hbody, List.flatMap_append, Text.byteLength_append]
  exact hbetween

end BodyOf

/-- A closed text has a source. -/
theorem exists_source {t : Text} (h : Closed t) : ∃ src, Source.ofText t = .ok src := by
  unfold Source.ofText
  rw [Lexed.ofText_of_closed h]
  exact ⟨_, rfl⟩

/-- The source of a text that ends with a terminator. -/
theorem exists_source_terminated {t : Text} {init : List Piece}
    (h : cut t = ⟨init ++ [.token (.symbol ';') [';']], none⟩) :
    ∃ src last, Source.ofText t = .ok src ∧ src.tokens = locate .start init ++ [last] ∧
      last.token = .symbol ';' ∧ BodyOf t src init [.token (.symbol ';') [';']] := by
  have hclosed : Closed t := by
    rw [Closed, h]
  obtain ⟨src, hsrc⟩ := exists_source hclosed
  obtain ⟨body, ending, hbody⟩ := exists_bodyOf hsrc
  obtain ⟨last, hlast, htokens⟩ : ∃ last : Located, last.token = .symbol ';' ∧
      src.tokens = locate .start init ++ [last] := by
    rw [hbody.tokens, h, locate_append]
    exact ⟨_, rfl, rfl⟩
  have hpieces : init ++ [.token (.symbol ';') [';']] = body ++ ending := by
    rw [← hbody.pieces, h]
  have hending : ending = [.token (.symbol ';') [';']] := by
    rcases hbody.terminated with ⟨-, hother⟩ | ⟨lexeme, behind, rfl, hbehind⟩
    · rw [htokens, List.getLast?_concat] at hother
      exact (hother last rfl hlast).elim
    · rcases List.eq_nil_or_concat behind with rfl | ⟨others, p, rfl⟩
      · exact (List.append_inj_right' hpieces rfl).symm
      · rw [List.concat_eq_append] at hpieces hbehind
        rw [← List.cons_append, ← List.append_assoc] at hpieces
        have hp := List.append_inj_right' hpieces rfl
        rw [← hp, List.filterMap_append] at hbehind
        exact absurd (List.append_eq_nil_iff.1 hbehind).2 (by simp [token?])
  subst hending
  obtain rfl := List.append_inj_left' hpieces rfl
  exact ⟨src, last, hsrc, htokens, hlast, hbody⟩

/-! ## Texts that are parsed as insertions -/

/-- Behind `EXECUTE` an insertion follows. -/
theorem insert_of_execute {inner : Text → Except ParseError (Option Operation)} {t : Located}
    {m : Modify} (h : execute inner src (t :: ts) = .ok (.insert m, us)) :
    insert src ts = .ok (m, us) := by
  obtain ⟨_, mid, hadvance, hbehind⟩ := ok_of_run_bind h
  cases hadvance
  obtain ⟨found, mid, hfound, hrest⟩ := ok_of_run_bind hbehind
  rw [eatKeywords_apply, List.tail_cons] at hfound
  cases found with
  | true =>
    have hkind : Operation.Kind.insert ∈ [Operation.Kind.statementSet] :=
      yields_block inner mid _ us hrest
    cases List.mem_singleton.1 hkind
  | false =>
    have hmid : mid = ts := by
      split at hfound <;> cases hfound
      rfl
    subst hmid
    rw [if_neg Bool.false_ne_true, run_get_bind] at hrest
    split at hrest
    · obtain ⟨found, left, hinsert, hreturn⟩ := ok_of_run_bind hrest
      cases hreturn
      exact hinsert
    · exact (eq_of_unexpected hrest).elim

/-- A text that is parsed as an insertion is one, alone or behind `EXECUTE`. -/
theorem exists_insert_of_parse {t : Text} {m : Modify} (h : parse t = .ok (some (.insert m))) :
    ∃ src front ts us, Source.ofText t = .ok src ∧ src.tokens = front ++ ts ∧
      insert src ts = .ok (m, us) ∧ (front = [] ∨ ∃ k, front = [k]) ∧
      ∀ k ∈ src.tokens.dropLast, k.token ≠ .symbol ';' := by
  obtain ⟨src, t, ts, left, hsrc, htokens, -, hreject, hword⟩ := parse_eq_ok_some_iff.1 h
  rcases cases_of_firstWord hword with ⟨w, opening, op, hw, hopening, hfound, hof⟩ | ⟨-, hfound⟩
  · obtain rfl := Option.some.inj hfound
    obtain ⟨-, hnone⟩ := eq_of_rejectInnerTerminators hreject
    rcases opening_of_insertion hof with rfl | rfl
    · obtain ⟨found, mid, hinsert, hreturn⟩ := ok_of_run_bind hof
      cases hreturn
      refine ⟨src, [], t :: ts, left, hsrc, htokens, hinsert, .inl rfl, hnone ?_⟩
      obtain ⟨first, rest, hfirst, hkeyword, -⟩ := exists_of_insert hinsert
      obtain ⟨rfl, rfl⟩ := List.cons.inj hfirst
      rw [htokens, startsWith, not_isKeyword_of_isKeyword (by decide) hkeyword]
      rfl
    · have hinsert := insert_of_execute hof
      refine ⟨src, [t], ts, left, hsrc, htokens, hinsert, .inr ⟨t, rfl⟩, hnone ?_⟩
      obtain ⟨first, rest, rfl, hkeyword, -⟩ := exists_of_insert hinsert
      rw [htokens, startsWith, startsWith, not_isKeyword_of_isKeyword (by decide) hkeyword,
        Bool.false_and, Bool.and_false]
  · cases hfound

/-- The statement of an insertion has its tokens from the text that is parsed. -/
theorem substance_sublist_of_parse {t : Text} {m : Modify}
    (h : parse t = .ok (some (.insert m))) :
    (Script.substance m.statement).Sublist (Script.substance t) := by
  obtain ⟨src, front, ts, us, hsrc, htokens, hinsert, -⟩ := exists_insert_of_parse h
  obtain ⟨body, ending, hbody⟩ := exists_bodyOf hsrc
  obtain ⟨before, k, lexeme, mid, rfl, -, -, hstatement⟩ :=
    hbody.statement_of_insert htokens hinsert
  have hcut := cut_of_pieces_eq_infix hbody.pieces
  have hsublist : (tokens m.statement).Sublist (tokens t) := by
    rw [hstatement, tokens_trim, tokens, tokens, hcut, hbody.pieces]
    exact ((List.sublist_append_right _ _).trans (List.sublist_append_left _ _)).filterMap _
  exact hsublist.filter _

/-- The statement of an insertion is parsed as the insertion. -/
def StandsAlone (m : Modify) : Prop := parse m.statement = .ok (some (.insert m))

namespace StandsAlone

variable {m : Modify}

/-- The keyword is at the beginning, and nothing is cut off at the end. -/
theorem exists_source (h : StandsAlone m) :
    ∃ src us k lexeme mid, Source.ofText m.statement = .ok src ∧
      insert src src.tokens = .ok (m, us) ∧
      BodyOf m.statement src (.token k lexeme :: mid) [] ∧ k.isKeyword "INSERT" ∧
      Text.trim m.statement = m.statement ∧
      ∀ k ∈ src.tokens, k.token ≠ .symbol ';' := by
  obtain ⟨src, front, ts, us, hsrc, htokens, hinsert, -, hinit⟩ := exists_insert_of_parse h
  obtain ⟨body, ending, hbody⟩ := exists_bodyOf hsrc
  obtain ⟨before, k, lexeme, mid, rfl, hfront, hkeyword, hstatement⟩ :=
    hbody.statement_of_insert htokens hinsert
  have hwf : ∀ p ∈ (cut m.statement).pieces, p.WellFormed := (glued_of_cut m.statement).wellFormed
  have hlength :
      m.statement.length ≤ ((.token k lexeme :: mid : List Piece).flatMap text).length := by
    conv => lhs; rw [hstatement]
    exact Text.length_trim_le _
  have htext := congrArg List.length hbody.closed.flatMap_text
  rw [hbody.pieces, List.flatMap_append, List.flatMap_append, List.length_append,
    List.length_append] at htext
  obtain rfl : before = [] := by
    refine eq_nil_of_flatMap_text (fun p hp => hwf p ?_) (List.eq_nil_of_length_eq_zero (by omega))
    rw [hbody.pieces]
    exact List.mem_append_left _ (List.mem_append_left _ hp)
  obtain rfl : ending = [] := by
    refine eq_nil_of_flatMap_text (fun p hp => hwf p ?_) (List.eq_nil_of_length_eq_zero (by omega))
    rw [hbody.pieces]
    exact List.mem_append_right _ hp
  obtain rfl : front = [] := hfront.symm
  refine ⟨src, us, k, lexeme, mid, hsrc, htokens ▸ hinsert, hbody, hkeyword, ?_, ?_⟩
  · conv => lhs; rw [hstatement]
    rw [Text.trim_trim]
    exact hstatement.symm
  · rcases hbody.terminated with ⟨-, hlast⟩ | ⟨_, _, hending, -⟩
    · intro found hfound
      rcases List.eq_nil_or_concat src.tokens with hnil | ⟨init, last, htokens⟩
      · rw [hnil] at hfound
        cases hfound
      · rw [List.concat_eq_append] at htokens
        rw [htokens] at hfound hlast hinit
        rw [List.dropLast_concat] at hinit
        rcases List.mem_append.1 hfound with hfound | hfound
        · exact hinit found hfound
        · obtain rfl := List.mem_singleton.1 hfound
          exact hlast found (by simp)
    · cases hending

theorem closed (h : StandsAlone m) : Closed m.statement := by
  obtain ⟨_, _, _, _, _, _, _, hbody, -⟩ := h.exists_source
  exact hbody.closed

/-- No terminator is in it. -/
theorem not_mem_tokens (h : StandsAlone m) : .symbol ';' ∉ tokens m.statement := by
  obtain ⟨src, _, _, _, _, _, _, hbody, _, -, hnone⟩ := h.exists_source
  intro hmem
  rw [tokens, ← map_token_locate .start, ← hbody.tokens] at hmem
  obtain ⟨k, hk, htoken⟩ := List.mem_map.1 hmem
  exact hnone k hk htoken

/-- It begins with its keyword, in any letter case. -/
theorem exists_keyword (h : StandsAlone m) :
    ∃ w rest, m.statement = w ++ rest ∧ Text.upper w = "INSERT" := by
  obtain ⟨_, _, k, lexeme, mid, _, _, hbody, hkeyword, -⟩ := h.exists_source
  have htext := hbody.closed.flatMap_text
  rw [hbody.pieces, List.append_nil, List.flatMap_cons] at htext
  have hwf : (Piece.token k lexeme).WellFormed :=
    (glued_of_cut m.statement).wellFormed _ (by rw [hbody.pieces]; exact List.mem_cons_self)
  refine ⟨lexeme, mid.flatMap text, htext.symm, ?_⟩
  cases hwf with
  | word => exact beq_iff_eq.1 hkeyword
  | @quoted q hq value =>
    unfold quotedToken at hkeyword
    split at hkeyword <;> cases hkeyword
  | number | symbol => cases hkeyword

/-- Its first token is its keyword. -/
theorem tokens_eq (h : StandsAlone m) :
    ∃ w ks, tokens m.statement = .word w :: ks ∧ Text.upper w = "INSERT" := by
  obtain ⟨_, _, k, lexeme, mid, _, _, hbody, hkeyword, -⟩ := h.exists_source
  cases k with
  | word w =>
    refine ⟨w, mid.filterMap token?, ?_, beq_iff_eq.1 hkeyword⟩
    rw [tokens, hbody.pieces, List.append_nil]
    rfl
  | _ => cases hkeyword

theorem tokens_terminated (h : StandsAlone m) :
    tokens (Script.terminated m.statement) = tokens m.statement ++ [.symbol ';'] := by
  rw [tokens, Script.cut_terminated h.closed, List.filterMap_append]
  rfl

theorem isSegment (h : StandsAlone m) : Script.IsSegment (Script.terminated m.statement) :=
  Script.isSegment_terminated h.closed h.not_mem_tokens

/-- It begins no block. -/
theorem opensBlock (h : StandsAlone m) {t : Text}
    (ht : tokens t = tokens (Script.terminated m.statement)) : Script.opensBlock t = false := by
  cases hopens : Script.opensBlock t with
  | false => rfl
  | true =>
    obtain ⟨w, _, _, hw, hupper, -⟩ := Script.tokens_of_opensBlock hopens
    obtain ⟨w', ks', hw', hupper'⟩ := h.tokens_eq
    rw [ht, h.tokens_terminated, hw'] at hw
    obtain ⟨hword, -⟩ := List.cons.inj hw
    rw [← Token.word.inj hword, hupper'] at hupper
    exact absurd hupper (by decide)

/-- It begins with letters, and an `S` is among them. -/
theorem exists_letters (h : StandsAlone m) :
    ∃ d w rest, m.statement = d :: w ++ rest ∧ w.length = 5 ∧
      (∀ c ∈ d :: w, beginsWord c ∧ isBlank c = false ∧ c.isDigit = false) ∧
      ∃ c ∈ d :: w, c.toUpper = 'S' := by
  obtain ⟨w, rest, hrest, hupper⟩ := h.exists_keyword
  have hletters := Script.beginsWord_of_upper (by decide) hupper
  have hlength : w.length = 6 := by
    have hcount := congrArg List.length hupper
    simpa [Text.upper] using hcount
  have hmem : 'S' ∈ Text.upper w := by
    rw [hupper]
    decide
  obtain ⟨c, hc, hcupper⟩ := List.mem_map.1 hmem
  cases w with
  | nil => cases hlength
  | cons d w => exact ⟨d, w, rest, hrest, Nat.succ.inj hlength, hletters, c, hc, hcupper⟩

/-- There is no blank in front of it, whatever follows it. -/
theorem isBlank_head (h : StandsAlone m) (behind : Text) :
    ∀ c ∈ (m.statement ++ behind).head?, isBlank c = false := by
  obtain ⟨d, w, rest, hrest, -, hletters, -⟩ := h.exists_letters
  intro c hc
  rw [hrest] at hc
  obtain rfl := Option.some.inj hc
  exact (hletters d List.mem_cons_self).2.1

/-- Its terminator is behind more than two letters. -/
theorem length_bare (h : StandsAlone m) :
    3 ≤ (Script.bare (Script.terminated m.statement)).length := by
  obtain ⟨d, w, rest, hrest, hlength, hletters, -⟩ := h.exists_letters
  rcases List.eq_nil_or_concat w with rfl | ⟨x, c, rfl⟩
  · cases hlength
  · rw [List.concat_eq_append] at hrest hletters hlength
    obtain ⟨hbegins, hblank, -⟩ := hletters c (by simp)
    have hterminator : c ≠ ';' := by
      rintro rfl
      exact absurd hbegins (by decide)
    have hinitial : (d :: x) ++ [c] <+: Script.terminated m.statement := by
      rw [Script.terminated, hrest, List.append_assoc]
      exact List.prefix_append _ _
    have hbare := Script.length_bare hblank hterminator hinitial
    simp only [List.length_append, List.length_cons, List.length_nil] at hlength hbare
    omega

theorem trim_terminated (h : StandsAlone m) :
    Text.trim (Script.terminated m.statement) = Script.terminated m.statement :=
  h.isSegment.terminated.trim_eq (h.isBlank_head _)

/-- It is parsed in the same way with a terminator on a line of its own. -/
theorem parse_terminated (h : StandsAlone m) :
    parse (Script.terminated m.statement) = .ok (some (.insert m)) := by
  obtain ⟨src, us, k, lexeme, mid, -, hinsert, hbody, hkeyword, htrim, hnone⟩ := h.exists_source
  have hcut : cut (Script.terminated m.statement) =
      ⟨(cut m.statement).pieces ++ [.blank '\n'] ++ [.token (.symbol ';') [';']], none⟩ := by
    simp [Script.cut_terminated hbody.closed]
  obtain ⟨src', last, hsrc', htokens', hlast, hbody'⟩ := exists_source_terminated hcut
  have hplace : ∃ span rest, src.tokens = ⟨k, span⟩ :: rest ∧ span.start.offset = 0 := by
    rw [hbody.tokens, hbody.pieces]
    exact ⟨_, _, rfl, rfl⟩
  obtain ⟨span, rest, htokens, hzero⟩ := hplace
  have hblank : locate .start ((cut m.statement).pieces ++ [.blank '\n']) = src.tokens := by
    rw [locate_append, hbody.tokens]
    exact List.append_nil _
  rw [hblank, htokens] at htokens'
  rw [htokens] at hinsert hnone
  have hstatement : src'.textBetween span.start.offset src'.bodyEnd = m.statement := by
    have hbetween := hbody'.textBetween [] ((cut m.statement).pieces ++ [.blank '\n']) [] (by simp)
    rw [← hbody'.bodyEnd, List.flatMap_append, hbody.closed.flatMap_text, List.flatMap_nil,
      Text.byteLength_nil, Nat.zero_add] at hbetween
    rw [hzero, hbetween]
    exact (Text.trim_concat isBlank_newline _).trans htrim
  have hinsert' := insert_concat hlast hnone hinsert src'
  rw [hstatement] at hinsert'
  have hinner : ∀ t ∈ src'.tokens.dropLast, t.token ≠ .symbol ';' := by
    rw [htokens', List.dropLast_concat]
    exact hnone
  refine parse_eq_ok_iff.2 ⟨src', us ++ [last], hsrc', ?_⟩
  have hend : atEnd (⟨k, span⟩ :: (rest ++ [last])) = false := atEnd_concat _ last rest
  rw [htokens', List.cons_append,
    operation_eq_firstWord hend (rejectInnerTerminators_of (.inr hinner) _)]
  exact firstWord_of_insert hkeyword hinsert'

end StandsAlone

end SqlConsole.Statement
