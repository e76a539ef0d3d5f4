import SqlConsole.Proofs.Statement.Block
import SqlConsole.Proofs.Statement.Survival
/-!
# The text that is kept of a statement

Many operations keep text of their statement as it stands (`Operation.kept?`): its whole body, or
the part of it from the word `INSERT` on.  That text has no blanks around it and no terminator in
it, its tokens are those of the statement from there to its end (`BodyOf.exists_source_of_part`),
and every step that reads the statement survives the change.  So the kept text is parsed as the very
same operation (`parse_kept`), and so are the statements of the insertions of a block.
-/

namespace SqlConsole

/-- The text of its statement that an operation keeps. -/
def Operation.kept? : Operation → Option Text
  | .insert m | .createTableAs m => some m.statement
  | .query s | .use _ s | .other s => some s
  | .create d | .drop d | .alter d => some d.statement
  | _ => none

namespace Statement

open StatementParser Piece

variable {src src' : Source} {ts us : List Located} {t : Text}
  {inner inner' : Text → Except ParseError (Option Operation)}

/-! ## The source of the kept text -/

/-- Besides the last one, no token of the statement is a terminator; so none is in its body. -/
theorem BodyOf.not_mem_body {body ending : List Piece} (h : BodyOf t src body ending)
    (hinit : ∀ k ∈ src.tokens.dropLast, k.token ≠ .symbol ';') :
    .symbol ';' ∉ body.filterMap token? := by
  have htokens : src.tokens.map (·.token) = body.filterMap token? ++ ending.filterMap token? := by
    rw [h.tokens, map_token_locate, h.pieces, List.filterMap_append]
  intro hmem
  rcases h.terminated with ⟨rfl, hlast⟩ | ⟨lexeme, behind, rfl, hbehind⟩
  · rw [List.filterMap_nil, List.append_nil] at htokens
    rw [← htokens] at hmem
    obtain ⟨k, hk, htoken⟩ := List.mem_map.1 hmem
    rcases List.eq_nil_or_concat src.tokens with hnil | ⟨init, last, hsplit⟩
    · rw [hnil] at hk
      cases hk
    · rw [List.concat_eq_append] at hsplit
      rw [hsplit, List.dropLast_concat] at hinit
      rw [hsplit] at hk hlast
      rcases List.mem_append.1 hk with hk | hk
      · exact hinit k hk htoken
      · obtain rfl := List.mem_singleton.1 hk
        exact hlast k (by simp) htoken
  · have hbody : src.tokens.dropLast.map (·.token) = body.filterMap token? := by
      rw [List.map_dropLast, htokens]
      simp [token?, hbehind]
    rw [← hbody] at hmem
    obtain ⟨k, hk, htoken⟩ := List.mem_map.1 hmem
    exact hinit k hk htoken

/-- The body of a statement is the text of its pieces in front of the terminator. -/
theorem BodyOf.body_eq {body ending : List Piece} (h : BodyOf t src body ending) :
    src.body = Text.trim (body.flatMap Piece.text) := by
  have hbetween := h.textBetween [] body [] (by simp)
  rwa [List.flatMap_nil, Text.byteLength_nil, Nat.zero_add, ← h.bodyEnd] at hbetween

/-- The body of a statement as a text of its own. -/
theorem exists_source_of_body {body ending : List Piece} (h : BodyOf t src body ending) :
    ∃ src', Source.ofText src.body = .ok src' ∧
      src'.tokens.map (·.token) = body.filterMap token? := by
  have hinfix : (cut t).pieces = [] ++ body ++ ending := h.pieces
  have hclosed : Closed src.body := by
    rw [h.body_eq, closed_iff, fault?_trim, fault?, cut_of_pieces_eq_infix hinfix]
    rfl
  obtain ⟨src', hsrc'⟩ := exists_source hclosed
  refine ⟨src', hsrc', ?_⟩
  rw [(map_token_of_ofText hsrc').2, h.body_eq, tokens_trim, tokens, cut_of_pieces_eq_infix hinfix]

/-- A trimmed text without terminators is its own body. -/
theorem body_of_trimmed {s : Text} (hsrc : Source.ofText s = .ok src)
    (hnone : .symbol ';' ∉ tokens s) (htrim : Text.trim s = s) : src.body = s := by
  obtain ⟨body, ending, hbody⟩ := exists_bodyOf hsrc
  have hending : ending = [] := by
    rcases hbody.terminated with ⟨rfl, -⟩ | ⟨lexeme, behind, rfl, -⟩
    · rfl
    · refine (hnone ?_).elim
      rw [tokens, hbody.pieces, List.filterMap_append]
      exact List.mem_append_right _ List.mem_cons_self
  have hpieces := hbody.pieces
  rw [hending, List.append_nil] at hpieces
  rw [hbody.body_eq, ← hpieces, hbody.closed.flatMap_text, htrim]

/-- The part of a body behind some of its tokens, as a text of its own. -/
theorem exists_source_of_part {before part ending : List Piece} {front : List Located}
    (h : BodyOf t src (before ++ part) ending)
    (hinit : ∀ k ∈ src.tokens.dropLast, k.token ≠ .symbol ';')
    (htokens : src.tokens = front ++ ts) (hfront : locate .start before = front) :
    .symbol ';' ∉ tokens (Text.trim (part.flatMap text)) ∧
      ∃ src', Source.ofText (Text.trim (part.flatMap text)) = .ok src' ∧
        src'.body = Text.trim (part.flatMap text) ∧ UpToTerminator ts src'.tokens := by
  have hinfix : (cut t).pieces = before ++ part ++ ending := h.pieces
  have hpart : tokens (Text.trim (part.flatMap text)) = part.filterMap token? := by
    rw [tokens_trim, tokens, cut_of_pieces_eq_infix hinfix]
  have hclosed : Closed (Text.trim (part.flatMap text)) := by
    rw [closed_iff, fault?_trim, fault?, cut_of_pieces_eq_infix hinfix]
    rfl
  have hnone : .symbol ';' ∉ tokens (Text.trim (part.flatMap text)) := by
    have hbody := h.not_mem_body hinit
    rw [List.filterMap_append] at hbody
    rw [hpart]
    exact fun hmem => hbody (List.mem_append_right _ hmem)
  obtain ⟨src', hsrc'⟩ := exists_source hclosed
  refine ⟨hnone, src', hsrc', body_of_trimmed hsrc' hnone (Text.trim_trim _), ?_⟩
  refine upToTerminator_of_map (fun k hk heq => hnone (heq ▸ hk)) (map_token_of_ofText hsrc').2 ?_
  have hmap : ts.map (·.token) = part.filterMap token? ++ ending.filterMap token? := by
    have hall : src.tokens.map (·.token) = (cut t).pieces.filterMap token? := by
      rw [h.tokens, map_token_locate]
    rw [htokens, hinfix, ← hfront, List.map_append, map_token_locate, List.append_assoc,
      List.filterMap_append, List.filterMap_append] at hall
    exact List.append_cancel_left hall
  rw [hmap, hpart]
  rcases h.terminated with ⟨rfl, -⟩ | ⟨lexeme, behind, rfl, hbehind⟩
  · exact .inl (List.append_nil _)
  · right
    simp [token?, hbehind]

/-- A text without terminators is parsed as its first token says. -/
theorem parse_of_firstWord {s : Text} {u : Located} {op : Operation} {left : List Located}
    (hsrc : Source.ofText s = .ok src) (hnone : .symbol ';' ∉ tokens s)
    (htokens : src.tokens = u :: us)
    (hword : firstWord (inside s) u src (u :: us) = .ok (some op, left)) :
    parse s = .ok (some op) := by
  have hplain : ∀ k ∈ src.tokens, k.token ≠ .symbol ';' := by
    intro k hk heq
    rw [← (map_token_of_ofText hsrc).2, ← heq] at hnone
    exact hnone (List.mem_map_of_mem hk)
  have hreject := rejectInnerTerminators_of
    (.inr fun k hk => hplain k ((List.dropLast_sublist _).mem hk)) (u :: us)
  have hend : atEnd (u :: us) = false := by
    cases us with
    | nil => exact beq_eq_false_iff_ne.2 (hplain u (by rw [htokens]; exact List.mem_cons_self))
    | cons => rfl
  exact parse_eq_ok_some_iff.2 ⟨src, u, us, left, hsrc, htokens, hend, hreject, hword⟩

/-- A text is canonical for an operation if it is trimmed, has no terminator and is parsed as the
operation. -/
structure Canonical (s : Text) (op : Operation) : Prop where
  trimmed : Text.trim s = s
  unterminated : ∃ lexed, Lexed.ofText s = .ok lexed ∧ ∀ k ∈ lexed.tokens, k.token ≠ .symbol ';'
  parsed : parse s = .ok (some op)

theorem canonical_of_parse_eq {s : Text} {op : Operation} (htrim : Text.trim s = s)
    (hnone : .symbol ';' ∉ tokens s) (hparse : parse s = .ok (some op)) : Canonical s op := by
  obtain ⟨src, left, hsrc, -⟩ := parse_eq_ok_iff.1 hparse
  obtain ⟨lexed, hlexed, -, -⟩ := source_of_ofText hsrc
  refine ⟨htrim, ⟨lexed, hlexed, fun k hk heq => hnone ?_⟩, hparse⟩
  rw [← (Lexed.closed_of_ofText hlexed).2, ← heq]
  exact List.mem_map_of_mem hk

/-! ## Insertions -/

/-- In a text that begins with a letter, the first token stands at the front. -/
theorem exists_first_of_begins {s : Text} {c : Char} (hsrc : Source.ofText s = .ok src)
    (hs : s.head? = some c) (hc : beginsWord c) (hblank : isBlank c = false) :
    ∃ k ks, src.tokens = k :: ks ∧ k.span.start.offset = 0 := by
  obtain ⟨body, ending, hbody⟩ := exists_bodyOf hsrc
  obtain ⟨r, rfl⟩ := List.head?_eq_some_iff.1 hs
  have hline : ¬ (c = '-' ∧ r.head? = some '-') := by
    rintro ⟨rfl, -⟩
    exact absurd hc (by decide)
  have hblock : ¬ (c = '/' ∧ r.head? = some '*') := by
    rintro ⟨rfl, -⟩
    exact absurd hc (by decide)
  cases hread : read c r with
  | error fault =>
    have hclosed := hbody.closed
    rw [Closed, cut_of_fault hread] at hclosed
    cases hclosed
  | ok found =>
    obtain ⟨p, rest⟩ := found
    obtain ⟨k, hk⟩ := exists_token?_of_read hblank hline hblock hread
    rw [hbody.tokens, cut_of_read hread]
    cases p with
    | token => exact ⟨_, _, rfl, rfl⟩
    | _ => cases hk

/-- An insertion is read in the same way from a text that is its statement. -/
theorem insert_of_body {m : Modify} {left ks : List Located} {k : Located}
    (h : UpToTerminator ts (k :: ks)) (hinsert : insert src ts = .ok (m, left))
    (hbody : src'.body = m.statement) (hplace : k.span.start.offset = 0) :
    ∃ left', insert src' (k :: ks) = .ok (m, left') := by
  rw [insert_eq] at hinsert
  obtain ⟨place, mid, hhere, hrest⟩ := ok_of_run_bind hinsert
  obtain ⟨heading, mid', hheading, hreturn⟩ := ok_of_run_bind hrest
  have hmid : mid = ts := by
    cases ts <;> cases hhere <;> rfl
  subst hmid
  cases hreturn
  have hsurvives : Survives src src' insertHeading insertHeading := survives_insertHeading
  obtain ⟨left', hheading', -⟩ := hsurvives h hheading
  have hhere' : here src' (k :: ks) = .ok (k.span, k :: ks) := rfl
  refine ⟨left', ?_⟩
  rw [insert_eq, run_bind_ok hhere', run_bind_ok hheading']
  change src'.body = src.textBetween place.start.offset src.bodyEnd at hbody
  rw [← hbody, Source.body, ← hplace]
  rfl

/-- The first character of a keyword stays where blanks are cut off. -/
theorem head?_trim_of_not_isBlank {c : Char} (hc : isBlank c = false) (r : Text) :
    (Text.trim (c :: r)).head? = some c := by
  have hinitial : [] ++ [c] <+: c :: r := ⟨r, rfl⟩
  obtain ⟨rest, hrest⟩ := Text.prefix_dropEndWhile hc hinitial
  rw [Text.trim, Text.dropAround, Text.dropWhile_eq_self (by simpa using hc), ← hrest]
  rfl

/-- The statement of an insertion is canonical. -/
theorem canonical_insertion {m : Modify} (h : parse t = .ok (some (.insert m))) :
    Canonical m.statement (.insert m) := by
  obtain ⟨src, front, ts, us, hsrc, htokens, hinsert, -, hinit⟩ := exists_insert_of_parse h
  obtain ⟨body, ending, hbody⟩ := exists_bodyOf hsrc
  obtain ⟨before, k, lexeme, mid, rfl, hfront, hkeyword, hstatement⟩ :=
    hbody.statement_of_insert htokens hinsert
  obtain ⟨hnone, src', hsrc', hbody', hts⟩ := exists_source_of_part hbody hinit htokens hfront
  have hwf : (Piece.token k lexeme).WellFormed := by
    refine (glued_of_cut t).wellFormed _ ?_
    rw [hbody.pieces]
    simp
  obtain ⟨c, w, rfl, hc, hblank⟩ : ∃ c w, lexeme = c :: w ∧ beginsWord c ∧ isBlank c = false := by
    cases hwf with
    | @word c w hblank _ hc _ => exact ⟨c, w, rfl, hc, hblank⟩
    | @quoted q hq value =>
      unfold quotedToken at hkeyword
      split at hkeyword <;> cases hkeyword
    | number | symbol => cases hkeyword
  have hhead : (Text.trim ((.token k (c :: w) :: mid : List Piece).flatMap text)).head? = some c :=
    head?_trim_of_not_isBlank hblank _
  rw [← hstatement] at hnone hsrc' hbody' hhead
  obtain ⟨u, us', htokens', hplace⟩ := exists_first_of_begins hsrc' hhead hc hblank
  rw [htokens'] at hts
  obtain ⟨left', hinsert'⟩ := insert_of_body hts hinsert hbody' hplace
  obtain ⟨first, rest, hfirst, hkeyword', -⟩ := exists_of_insert hinsert'
  obtain ⟨rfl, rfl⟩ := List.cons.inj hfirst
  refine canonical_of_parse_eq ?_ hnone
    (parse_of_firstWord hsrc' hnone htokens' (firstWord_of_insert hkeyword' hinsert'))
  conv => lhs; rw [hstatement]
  rw [Text.trim_trim, hstatement]

/-! ## Statements that are kept whole -/

/-- The kinds of operation that keep text of their statement. -/
def keepingKinds : List Operation.Kind :=
  [.insert, .createTableAs, .query, .create, .drop, .alter, .use, .other]

theorem kind_of_kept {op : Operation} {s : Text} (h : op.kept? = some s) :
    op.kind ∈ keepingKinds := by
  cases op with
  | insert | createTableAs | query | create | drop | alter | use | other =>
    simp [Operation.kind, keepingKinds]
  | _ => cases h

/-- Besides insertions, what is kept of a statement is its body. -/
theorem Opening.keepsBody_of_kind (opening : Opening) : ∀ kind ∈ opening.kinds,
    kind ∈ keepingKinds → kind ≠ .insert → opening.keepsBody := by
  cases opening <;> decide

/-- What an operation keeps is a certain text, if it keeps any. -/
def KeepsText (s : Text) (op : Operation) : Prop := ∀ kept, op.kept? = some kept → kept = s

theorem yields_definition (verb : Text) (guard : List Text) :
    Yields src (fun d => d.statement = src.body) (definition verb guard) :=
  .bind fun _ => .bind fun _ => .bind fun _ => .bind fun _ => .bind fun _ => .bind fun _ =>
    .bind fun _ => .read_bind (.result rfl)

theorem keepsText_ofOpening {opening : Opening} (h : opening.keepsBody) :
    Yields src (KeepsText src.body) (ofOpening inner opening) := by
  have hkept {op : Operation} (hop : op.kept? = some src.body) : KeepsText src.body op :=
    fun kept hkept => Option.some.inj (hkept.symm.trans hop)
  have hbody {f : Definition → Operation} (hf : ∀ d, (f d).kept? = some d.statement)
      {d : Definition} (hd : d.statement = src.body) : KeepsText src.body (f d) :=
    hkept ((hf d).trans (congrArg some hd))
  cases opening with
  | query | passed => exact .read_bind (.result (hkept rfl))
  | showing =>
    refine .bind fun ts => .ite ?_ (.read_bind (.result (hkept rfl)))
    refine yields_showCreate.imp fun op hop kept hkept => ?_
    have hnone : ∀ kind ∈ [Operation.Kind.showCreateTable, .showCreateView],
        kind ∉ keepingKinds := by decide
    exact (hnone op.kind hop (kind_of_kept hkept)).elim
  | create =>
    refine (yields_definition _ _).seq fun d hd => .bind fun _ => .ite (.result ?_) (.result ?_)
    · exact hkept (congrArg some hd)
    · exact hbody (f := .create) (fun _ => rfl) hd
  | drop => exact (yields_definition _ _).seq fun d hd => .result (hbody (fun _ => rfl) hd)
  | alter => exact (yields_definition _ _).seq fun d hd => .result (hbody (fun _ => rfl) hd)
  | use =>
    have hend (target : UseTarget) : Yields src (KeepsText src.body) (do
        expectEnd
        return .use target (← read).body) :=
      .bind fun _ => .read_bind (.result (hkept rfl))
    refine .bind fun _ => .bind fun _ => .ite (.bind fun _ => .bind hend) (.bind fun _ => ?_)
    exact .ite (.bind fun _ => .bind hend) (.bind fun _ => .bind hend)
  | _ => cases h

theorem firstWord_of_paren {k : Located} (hk : k.token = .symbol '(') (src : Source)
    (ts : List Located) : firstWord inner k src ts = .ok (some (.query src.body), ts) := by
  unfold firstWord
  rw [hk]
  rfl

theorem not_isKeyword_execute {w : Text} {opening : Opening}
    (hopening : Opening.ofWord? w = some opening) (h : opening ≠ .execute) :
    (Token.word w).isKeyword "EXECUTE" = false := by
  refine beq_eq_false_iff_ne.2 fun hupper => h ?_
  rw [Opening.ofWord?, hupper] at hopening
  exact (Option.some.inj hopening).symm

/-- Besides insertions, what is kept of a statement is its body, and the statement is read from it
in the same way. -/
theorem survives_firstWord {k : Located} {left : List Located} {op : Operation} {s : Text}
    (h : firstWord inner k src (k :: ts) = .ok (some op, left)) (hs : op.kept? = some s)
    (hinsert : op.kind ≠ .insert) :
    s = src.body ∧ k.token.isKeyword "EXECUTE" = false ∧
      ∀ src' us, src.body = src'.body → UpToTerminator (k :: ts) us →
        ∃ u rest left', us = u :: rest ∧ firstWord inner' u src' us = .ok (some op, left') := by
  rcases cases_of_firstWord h with ⟨w, opening, op, hword, hopening, hfound, hop⟩ | ⟨hparen, hfound⟩
  · obtain rfl := Option.some.inj hfound
    have hkeeps :=
      opening.keepsBody_of_kind op.kind (kind_of_ofOpening hop) (kind_of_kept hs) hinsert
    have hexecute : opening ≠ .execute := by
      rintro rfl
      cases hkeeps
    refine ⟨keepsText_ofOpening hkeeps _ _ _ hop s hs, ?_, fun src' us hbody hts => ?_⟩
    · rw [hword]
      exact not_isKeyword_execute hopening hexecute
    · have hplain : k.token ≠ .symbol ';' := by
        rw [hword]
        exact fun heq => by cases heq
      obtain ⟨u, rest, rfl, htoken, -, -⟩ := hts.exists_cons hplain
      have hsurvives : Survives src src' (ofOpening inner opening) (ofOpening inner' opening) :=
        survives_ofOpening hkeeps hbody
      obtain ⟨left', hop', -⟩ := hsurvives hts hop
      refine ⟨u, rest, left', rfl, ?_⟩
      rw [firstWord_of_word (htoken ▸ hword) hopening]
      exact run_bind_ok hop'
  · obtain rfl := Option.some.inj hfound
    refine ⟨(Option.some.inj hs).symm, by rw [hparen]; rfl, fun src' us hbody hts => ?_⟩
    have hplain : k.token ≠ .symbol ';' := by
      rw [hparen]
      decide
    obtain ⟨u, rest, rfl, htoken, -, -⟩ := hts.exists_cons hplain
    refine ⟨u, rest, u :: rest, rfl, ?_⟩
    rw [firstWord_of_paren (htoken ▸ hparen), hbody]

/-- A statement that is kept whole has the same operation as its body. -/
theorem canonical_body {op : Operation} {s : Text} (h : parse t = .ok (some op))
    (hs : op.kept? = some s) (hinsert : op.kind ≠ .insert) : Canonical s op := by
  obtain ⟨src, k, ts, left, hsrc, htokens, -, hreject, hword⟩ := parse_eq_ok_some_iff.1 h
  obtain ⟨rfl, hexecute, hsurvives⟩ := survives_firstWord hword hs hinsert
  have hinit : ∀ k ∈ src.tokens.dropLast, k.token ≠ .symbol ';' := by
    refine (eq_of_rejectInnerTerminators hreject).2 ?_
    rw [htokens, startsWith, hexecute]
    rfl
  obtain ⟨body, ending, hbody⟩ := exists_bodyOf hsrc
  have hwhole : BodyOf t src ([] ++ body) ending := hbody
  obtain ⟨hnone, src', hsrc', hbody', hts⟩ := exists_source_of_part hwhole hinit htokens rfl
  rw [← hbody.body_eq] at hnone hsrc' hbody'
  obtain ⟨u, rest, left', htokens', hword'⟩ := hsurvives src' src'.tokens hbody'.symm hts
  have htrim : Text.trim src.body = src.body := by
    rw [hbody.body_eq, Text.trim_trim]
  rw [htokens'] at hword'
  exact canonical_of_parse_eq htrim hnone (parse_of_firstWord hsrc' hnone htokens' hword')

/-! ## Blocks -/

/-- A block is what follows its first words. -/
theorem block_of_execute {k : Located} {ms : List Modify} {left : List Located}
    (h : execute inner src (k :: ts) = .ok (.statementSet ms, left)) :
    ∃ us, block inner src us = .ok (.statementSet ms, left) := by
  obtain ⟨_, mid, -, hbehind⟩ := ok_of_run_bind h
  obtain ⟨found, mid', -, hrest⟩ := ok_of_run_bind hbehind
  cases found with
  | true => exact ⟨mid', hrest⟩
  | false =>
    rw [if_neg Bool.false_ne_true, run_get_bind] at hrest
    split at hrest
    · obtain ⟨m, _, -, hreturn⟩ := ok_of_run_bind hrest
      cases hreturn
    · exact (eq_of_unexpected hrest).elim

/-- Each insertion of a block was parsed by itself. -/
theorem exists_of_mem_insertsOf {place : Span} {ss : List Text} {ms : List Modify} {m : Modify}
    (h : insertsOf inner place ss = .ok ms) (hm : m ∈ ms) :
    ∃ s, inner s = .ok (some (.insert m)) := by
  induction ss generalizing ms with
  | nil =>
    cases h
    cases hm
  | cons s ss ih =>
    rcases cases_of_insertsOf h with ⟨-, hrest⟩ | ⟨n, ns, hs, hrest, rfl⟩
    · exact ih hrest hm
    · rcases List.mem_cons.1 hm with rfl | hm
      · exact ⟨s, hs⟩
      · exact ih hrest hm

theorem exists_parse_of_mem_block {ms : List Modify} (h : parse t = .ok (some (.statementSet ms)))
    {m : Modify} (hm : m ∈ ms) : ∃ s, parse s = .ok (some (.insert m)) := by
  obtain ⟨src, k, ts, left, -, -, -, -, hword⟩ := parse_eq_ok_some_iff.1 h
  rcases cases_of_firstWord hword with ⟨w, opening, op, -, -, hfound, hop⟩ | ⟨-, hfound⟩
  · obtain rfl := Option.some.inj hfound
    have hkind : Operation.Kind.statementSet ∈ opening.kinds := kind_of_ofOpening hop
    obtain rfl : opening = .execute := by
      cases opening <;> simp [Opening.kinds] at hkind ⊢
    obtain ⟨us, hblock⟩ := block_of_execute hop
    obtain ⟨place, hplace⟩ := exists_here src us
    obtain ⟨stop, ms', -, hinserts, heq⟩ := exists_of_block hplace hblock
    obtain rfl := Operation.statementSet.inj heq
    obtain ⟨s, hs⟩ := exists_of_mem_insertsOf hinserts hm
    refine ⟨s, ?_⟩
    unfold inside at hs
    split at hs
    · exact hs
    · cases hs
  · cases hfound

/-- **The text that an operation keeps is canonical.**  It is trimmed, holds no terminator, and is
parsed as the very same operation; and so is the statement of each insertion of a block. -/
theorem canonical_of_parse {op : Operation} (h : parse t = .ok (some op)) :
    (∀ s, op.kept? = some s → Canonical s op) ∧
      ∀ ms, op = .statementSet ms → ∀ m ∈ ms, Canonical m.statement (.insert m) := by
  refine ⟨fun s hs => ?_, fun ms hms m hm => ?_⟩
  · by_cases hinsert : ∃ m, op = .insert m
    · obtain ⟨m, rfl⟩ := hinsert
      obtain rfl := Option.some.inj hs
      exact canonical_insertion h
    · refine canonical_body h hs fun hkind => hinsert ?_
      cases op with
      | insert m => exact ⟨m, rfl⟩
      | _ => cases hkind
  · subst hms
    obtain ⟨s, hparse⟩ := exists_parse_of_mem_block h hm
    exact canonical_insertion hparse

/-- A table that is written as it is created, with comments around it and a terminator in quotes. -/
def commentedTable : Text := "-- one;\n CREATE TABLE /* a */ b.c AS (SELECT ';' FROM d) ; -- END"

/-- A block of two insertions, one of them behind the word `EXECUTE`. -/
def nestedExecute : Text :=
  "EXECUTE STATEMENT SET BEGIN INSERT INTO a SELECT 1;; /**/ EXECUTE INSERT INTO b SELECT 2 ;END"

theorem canonical_of_parse_commented :
    ∃ m n o : Modify, parse commentedTable = .ok (some (.createTableAs m)) ∧
      m.statement = ("-- one;\n CREATE TABLE /* a */ b.c AS (SELECT ';' FROM d)" : Text) ∧
      Canonical m.statement (.createTableAs m) ∧
      parse nestedExecute = .ok (some (.statementSet [n, o])) ∧
      o.statement = ("INSERT INTO b SELECT 2" : Text) ∧ Canonical o.statement (.insert o) := by
  have htable : parse commentedTable = .ok (some (.createTableAs
      ⟨.createTableAs, "b.c", "-- one;\n CREATE TABLE /* a */ b.c AS (SELECT ';' FROM d)"⟩)) := by
    decide +kernel
  have hblock : parse nestedExecute = .ok (some (.statementSet
      [⟨.insertInto, "a", "INSERT INTO a SELECT 1"⟩,
        ⟨.insertInto, "b", "INSERT INTO b SELECT 2"⟩])) := by
    decide +kernel
  refine ⟨_, _, _, htable, rfl, (canonical_of_parse htable).1 _ rfl, hblock, rfl, ?_⟩
  exact (canonical_of_parse hblock).2 _ rfl _ (by simp)

end Statement

end SqlConsole
