import Mathlib.Data.List.Forall2
import SqlConsole.Proofs.Statement.Insert
/-!
# Blocks of insertions

The parser takes the last word `END` of a block for its end, and parses what stands in front of it
one by one.  Where `END;` stands behind insertions, the block asks for them in their order
(`parse_block`), and where nothing stands in front of it, for none.  Where they end the text, the
last word `END` is one of theirs, and what the block asks for has fewer tokens than they have
(`truncated_of_parse`).
-/

namespace SqlConsole.Statement

open StatementParser Piece

variable {src : Source} {ts us : List Located} {inner : Text → Except ParseError (Option Operation)}

/-! ## The words in front -/

/-- The pieces of the line that begins a block. -/
def openingPieces : List Piece := (cut Script.opening).pieces ++ [.blank '\n']

/-- Where the statements inside of a block begin. -/
def inward : Position := Position.start.after (openingPieces.flatMap text)

theorem offset_inward : inward.offset = Text.byteLength (openingPieces.flatMap text) := by
  rw [inward, Position.offset_after]
  exact Nat.zero_add _

/-- The source of a text that ends with a terminator, behind the words that begin a block. -/
theorem exists_source_block {r : Text} {ps : List Piece}
    (h : cut r = ⟨ps ++ [.token (.symbol ';') [';']], none⟩) :
    ∃ src heads last, Source.ofText (Script.opening ++ '\n' :: r) = .ok src ∧
      src.tokens = heads ++ (locate inward ps ++ [last]) ∧
      heads.map (·.token) = tokens Script.opening ∧ last.token = .symbol ';' ∧
      BodyOf (Script.opening ++ '\n' :: r) src (openingPieces ++ ps)
        [.token (.symbol ';') [';']] := by
  have hcut : cut (Script.opening ++ '\n' :: r) =
      ⟨openingPieces ++ ps ++ [.token (.symbol ';') [';']], none⟩ := by
    rw [Script.cut_line_append Script.closed_opening, h, openingPieces]
    simp
  obtain ⟨src, last, hsrc, htokens, hlast, hbody⟩ := exists_source_terminated hcut
  refine ⟨src, locate .start openingPieces, last, hsrc, ?_, ?_, hlast, hbody⟩
  · rw [htokens, locate_append, List.append_assoc]
    rfl
  · rw [map_token_locate, openingPieces, List.filterMap_append, tokens]
    exact List.append_nil _

/-- Behind its first words a block is parsed. -/
theorem operation_block {heads : List Located}
    (hheads : heads.map (·.token) = tokens Script.opening) (htokens : src.tokens = heads ++ ts) :
    operation inner src src.tokens = (block inner >>= fun op => pure (some op)) src ts := by
  rw [Script.tokens_opening] at hheads
  obtain ⟨a, heads, rfl, ha, hheads⟩ := List.map_eq_cons_iff.1 hheads
  obtain ⟨b, heads, rfl, hb, hheads⟩ := List.map_eq_cons_iff.1 hheads
  obtain ⟨c, heads, rfl, hc, hheads⟩ := List.map_eq_cons_iff.1 hheads
  obtain ⟨d, heads, rfl, hd, hheads⟩ := List.map_eq_cons_iff.1 hheads
  obtain rfl := List.map_eq_nil_iff.1 hheads
  have hkeywords : startsWith ["STATEMENT", "SET", "BEGIN"] (b :: c :: d :: ts) := by
    simp only [startsWith, hb, hc, hd]
    decide
  have hstarts : startsWith ["EXECUTE", "STATEMENT"] src.tokens := by
    rw [htokens]
    simp only [List.cons_append, startsWith, ha, hb]
    decide
  have heat :
      eatKeywords ["STATEMENT", "SET", "BEGIN"] src (b :: c :: d :: ts) = .ok (true, ts) := by
    rw [eatKeywords_apply, if_pos hkeywords]
    rfl
  have hexecute : execute inner src (a :: b :: c :: d :: ts) = block inner src ts := by
    have hadvance : advance src (a :: b :: c :: d :: ts) = .ok ((), b :: c :: d :: ts) := rfl
    unfold execute
    rw [run_bind_ok hadvance, run_bind_ok heat]
    rfl
  have hopening : Opening.ofWord? ("EXECUTE" : Text) = some .execute := by decide
  rw [htokens]
  show operation inner src (a :: b :: c :: d :: ts) = _
  rw [operation_eq_firstWord rfl (rejectInnerTerminators_of (.inl hstarts) _),
    firstWord_of_word ha hopening, run_bind, run_bind, ← hexecute]
  rfl

/-! ## The end of a block -/

/-- The last word `END` is looked for, but not in front of the block. -/
theorem lastEnd?_append {before behind : List Located} {e : Located} {start : Nat}
    (he : e.token.isKeyword "END") (hbehind : ∀ t ∈ behind, t.token.isKeyword "END" = false)
    (hstart : start ≤ e.span.start.offset) :
    lastEnd? start (before ++ e :: behind) = some e.span.start.offset := by
  have hnone : behind.reverse.find? (·.token.isKeyword "END") = none := by
    rw [List.find?_eq_none]
    intro t ht
    exact Bool.eq_false_iff.1 (hbehind t (List.mem_reverse.1 ht))
  have hfind : (before ++ e :: behind).reverse.find? (·.token.isKeyword "END") = some e := by
    rw [List.reverse_append, List.reverse_cons, List.append_assoc, List.find?_append, hnone,
      Option.none_or, List.singleton_append, List.find?_cons, he]
  rw [lastEnd?, hfind]
  simp [hstart]

theorem dropWhile_to_end {before : List Located} {e : Located} (he : e.token.isKeyword "END")
    (hbefore : ∀ t ∈ before, t.span.start.offset < e.span.start.offset)
    (behind : List Located) : (before ++ e :: behind).dropWhile
      (fun t => !(t.token.isKeyword "END" && t.span.start.offset == e.span.start.offset)) =
        e :: behind := by
  have hskip : ∀ t ∈ before,
      (!(t.token.isKeyword "END" && t.span.start.offset == e.span.start.offset)) = true := by
    intro t ht
    have hne : t.span.start.offset ≠ e.span.start.offset := Nat.ne_of_lt (hbefore t ht)
    simp [hne]
  rw [List.dropWhile_append_of_pos hskip, List.dropWhile_cons_of_neg]
  rw [he]
  simp

theorem exists_of_lastEnd? {start stop : Nat} (h : lastEnd? start ts = some stop) :
    ∃ before e behind, ts = before ++ e :: behind ∧ e.token.isKeyword "END" ∧
      e.span.start.offset = stop ∧ start ≤ stop := by
  unfold lastEnd? at h
  rw [Option.filter_eq_some_iff, Option.map_eq_some_iff] at h
  obtain ⟨⟨e, hfind, rfl⟩, hstart⟩ := h
  have he := List.find?_some hfind
  obtain ⟨before, behind, hmem⟩ :=
    List.append_of_mem (List.mem_reverse.1 (List.mem_of_find?_eq_some hfind))
  exact ⟨before, e, behind, hmem, he, rfl, by simpa using hstart⟩

/-- The operation of a block, behind its end: the insertions in front of it, and at most the
terminator behind it. -/
def closeBlock (found : Except ParseError (List Modify)) : StatementParser Operation := do
  let modifies ← found
  expectEnd
  return .statementSet modifies

theorem closeBlock_ok (ms : List Modify) :
    closeBlock (.ok ms) = do
      expectEnd
      return .statementSet ms := rfl

/-- A block has an end, and its insertions are those in front of it. -/
theorem block_apply {place : Span} (hplace : here src ts = .ok (place, ts)) :
    block inner src ts =
      match lastEnd? place.start.offset src.tokens with
      | none => .error ⟨.endOfStatement "END", src.finish.span⟩
      | some stop =>
        closeBlock
          (insertsOf inner place (Script.split (src.textBetween place.start.offset stop))) src
          (ts.dropWhile fun t =>
            !(t.token.isKeyword "END" && t.span.start.offset == stop)).tail := by
  have hread : (read : StatementParser Source) src ts = .ok (src, ts) := rfl
  unfold block
  rw [run_bind_ok hread, run_bind_ok hplace]
  cases lastEnd? place.start.offset src.tokens with
  | none => rfl
  | some stop =>
    dsimp only
    generalize
      insertsOf inner place (Script.split (src.textBetween place.start.offset stop)) = found
    cases found with
    | error => rfl
    | ok => rfl

/-- What is needed for a block. -/
theorem exists_of_block {place : Span} (hplace : here src ts = .ok (place, ts)) {op : Operation}
    (h : block inner src ts = .ok (op, us)) :
    ∃ stop ms, lastEnd? place.start.offset src.tokens = some stop ∧
      insertsOf inner place (Script.split (src.textBetween place.start.offset stop)) = .ok ms ∧
      op = .statementSet ms := by
  rw [block_apply hplace] at h
  cases hend : lastEnd? place.start.offset src.tokens with
  | none =>
    rw [hend] at h
    cases h
  | some stop =>
    rw [hend] at h
    dsimp only at h
    cases hinserts : insertsOf inner place
        (Script.split (src.textBetween place.start.offset stop)) with
    | error e =>
      rw [hinserts] at h
      cases h
    | ok ms =>
      rw [hinserts, closeBlock_ok] at h
      obtain ⟨_, mid, -, hreturn⟩ := ok_of_run_bind h
      cases hreturn
      exact ⟨stop, ms, rfl, hinserts, rfl⟩

/-- A block whose last word `END` is followed by the terminator alone. -/
theorem block_of_end {first e last : Located} {stop : Nat} {ms : List Modify}
    (hend : lastEnd? first.span.start.offset src.tokens = some stop)
    (hinserts : insertsOf inner first.span
      (Script.split (src.textBetween first.span.start.offset stop)) = .ok ms)
    (hleft : (first :: ts).dropWhile
      (fun t => !(t.token.isKeyword "END" && t.span.start.offset == stop)) = [e, last])
    (hlast : last.token = .symbol ';') :
    block inner src (first :: ts) = .ok (.statementSet ms, [last]) := by
  have hplace : here src (first :: ts) = .ok (first.span, first :: ts) := rfl
  have hexpect : expectEnd src [last] = .ok ((), [last]) := by
    have hatEnd : atEnd [last] := beq_iff_eq.2 hlast
    show (if !atEnd [last] then unexpected "end of statement" else pure () :
      StatementParser Unit) src [last] = _
    rw [hatEnd]
    rfl
  simp only [block_apply hplace, hend, hinserts, hleft, List.tail_cons, closeBlock_ok]
  rw [run_bind_ok hexpect]
  rfl

/-- The first statement of a block is empty, or the first of its insertions. -/
theorem cases_of_insertsOf {place : Span} {s : Text} {ss : List Text} {ms : List Modify}
    (h : insertsOf inner place (s :: ss) = .ok ms) :
    inner s = .ok none ∧ insertsOf inner place ss = .ok ms ∨
      ∃ m ns, inner s = .ok (some (.insert m)) ∧ insertsOf inner place ss = .ok ns ∧
        ms = m :: ns := by
  rw [insertsOf] at h
  cases hs : inner s with
  | error e =>
    rw [hs] at h
    cases h
  | ok found =>
    rw [hs] at h
    cases found with
    | none => exact .inl ⟨rfl, h⟩
    | some op =>
      cases op with
      | insert m =>
        change (insertsOf inner place ss).map (m :: ·) = _ at h
        cases hrest : insertsOf inner place ss with
        | error e =>
          rw [hrest] at h
          cases h
        | ok ns =>
          rw [hrest] at h
          cases h
          exact .inr ⟨m, ns, rfl, rfl, rfl⟩
      | _ => cases h

/-! ## Insertions behind each other -/

/-- The statements of insertions, each with a terminator on a line of its own. -/
def bodies (ms : List Modify) : List Text := ms.map fun m => Script.terminated m.statement

theorem insertsOf_bodies {ms : List Modify} {parse : Text → Except ParseError (Option Operation)}
    (h : ∀ m ∈ ms, parse (Script.terminated m.statement) = .ok (some (.insert m))) (place : Span) :
    insertsOf parse place (bodies ms) = .ok ms := by
  induction ms with
  | nil => rfl
  | cons m ms ih =>
    have hm := h m List.mem_cons_self
    have hrest := ih fun n hn => h n (List.mem_cons_of_mem m hn)
    rw [bodies, List.map_cons, insertsOf, hm]
    change (insertsOf parse place (bodies ms)).map (m :: ·) = _
    rw [hrest]
    rfl

section

variable {ms : List Modify} {m : Modify}

theorem bodies_ne_nil (hne : ms ≠ []) : bodies ms ≠ [] := by
  simpa [bodies] using hne

theorem isSegment_of_mem_bodies (h : ∀ m ∈ ms, StandsAlone m) :
    ∀ y ∈ bodies ms, Script.IsSegment y := by
  intro y hy
  obtain ⟨m, hm, rfl⟩ := List.mem_map.1 hy
  exact (h m hm).isSegment

/-- Insertions behind each other begin with the first of them. -/
theorem exists_join_bodies (hne : ms ≠ []) (h : ∀ m ∈ ms, StandsAlone m) :
    ∃ m rest, StandsAlone m ∧
      Text.join ['\n'] (bodies ms) = Script.terminated m.statement ++ rest := by
  cases ms with
  | nil => exact (hne rfl).elim
  | cons m ms =>
    refine ⟨m, (bodies ms).flatMap ('\n' :: ·), h m List.mem_cons_self, ?_⟩
    rw [bodies, List.map_cons, Script.join_cons]
    rfl

/-- Insertions behind each other begin with a keyword and end with a terminator. -/
theorem exists_cut_bodies (hne : ms ≠ []) (h : ∀ m ∈ ms, StandsAlone m) :
    ∃ k lexeme ps, k ≠ .symbol ';' ∧ cut (Text.join ['\n'] (bodies ms)) =
      ⟨.token k lexeme :: ps ++ [.token (.symbol ';') [';']], none⟩ := by
  obtain ⟨init, hinit⟩ := Script.terminated_join (bodies_ne_nil hne) (isSegment_of_mem_bodies h)
  obtain ⟨m, rest, hm, hjoin⟩ := exists_join_bodies hne h
  obtain ⟨_, _, k, lexeme, mid, _, _, hbody, hkeyword, -⟩ := hm.exists_source
  have hpieces := congrArg Cut.pieces (hm.isSegment.terminated.cut_append rest)
  rw [← hjoin, hinit, Script.cut_terminated hbody.closed, hbody.pieces] at hpieces
  have hk : k ≠ .symbol ';' := by
    rintro rfl
    cases hkeyword
  cases init with
  | nil =>
    have hlength := congrArg List.length hpieces
    simp at hlength
  | cons first init =>
    obtain ⟨rfl, -⟩ := List.cons.inj hpieces
    exact ⟨k, lexeme, init, hk, hinit⟩

theorem trim_bodies (hne : ms ≠ []) (h : ∀ m ∈ ms, StandsAlone m) :
    Text.trim (Text.join ['\n'] (bodies ms)) = Text.join ['\n'] (bodies ms) := by
  obtain ⟨m, rest, hm, hjoin⟩ := exists_join_bodies hne h
  refine (Script.terminated_join (bodies_ne_nil hne) (isSegment_of_mem_bodies h)).trim_eq ?_
  rw [hjoin, Script.terminated, List.append_assoc]
  exact hm.isBlank_head _

/-- Insertions behind each other are taken apart again. -/
theorem split_bodies (hne : ms ≠ []) (h : ∀ m ∈ ms, StandsAlone m) :
    Script.split (Text.join ['\n'] (bodies ms)) = bodies ms := by
  refine Script.split_lines (bodies_ne_nil hne) (isSegment_of_mem_bodies h) ?_ ?_ ?_
  · intro y hy
    obtain ⟨m, hm, rfl⟩ := List.mem_map.1 hy
    exact (h m hm).trim_terminated
  · cases ms with
    | nil => exact (hne rfl).elim
    | cons m ms =>
      intro s hs
      rcases List.mem_cons.1 hs with rfl | hs
      · exact (h m List.mem_cons_self).opensBlock rfl
      · obtain ⟨y, hy, rfl⟩ := List.mem_map.1 hs
        obtain ⟨n, hn, rfl⟩ := List.mem_map.1 hy
        have hn' := h n (List.mem_cons_of_mem m hn)
        exact hn'.opensBlock (tokens_cons_of_isBlank isBlank_newline _)
  · obtain ⟨m, rest, hm, hjoin⟩ := exists_join_bodies hne h
    obtain ⟨d, w, behind, hw, -, -, c, hc, hupper⟩ := hm.exists_letters
    refine Script.isBareCommand_eq_false (c := c) ?_ hupper
    rw [hjoin, Script.terminated, hw]
    exact List.mem_append_left _ (List.mem_append_left _ (List.mem_append_left _ hc))

theorem length_terminated_lt (h : m ∈ ms) (behind : Text) :
    (Script.terminated m.statement).length <
      (Script.opening ++ '\n' :: (Text.join ['\n'] (bodies ms) ++ behind)).length := by
  have hmem : Script.terminated m.statement ∈ bodies ms := List.mem_map_of_mem h
  have hle := (Script.sublist_join hmem).length_le
  simp only [List.length_append, List.length_cons]
  omega

/-- What is parsed inside of a block are the insertions. -/
theorem insertsOf_inside (hne : ms ≠ []) (h : ∀ m ∈ ms, StandsAlone m) (behind : Text)
    (place : Span) :
    insertsOf (inside (Script.opening ++ '\n' :: (Text.join ['\n'] (bodies ms) ++ behind))) place
      (Script.split (Text.trim (Text.join ['\n'] (bodies ms)))) = .ok ms := by
  rw [trim_bodies hne h, split_bodies hne h]
  refine insertsOf_bodies (fun m hm => ?_) place
  rw [inside, if_pos (length_terminated_lt hm behind)]
  exact (h m hm).parse_terminated

theorem cut_closing : cut Script.closing =
    ⟨[.token (.word "END") "END", .token (.symbol ';') [';']], none⟩ := by decide +kernel

/-- The source of a block: behind its first words stand the tokens of the insertions, then the word
`END` and a terminator. -/
theorem exists_source_closed {joined : Text} {k : Token} {lexeme : Text} {ps : List Piece}
    (hcut : cut joined = ⟨.token k lexeme :: ps, none⟩) :
    ∃ src heads first rest e last,
      Source.ofText (Script.opening ++ '\n' :: (joined ++ '\n' :: Script.closing)) = .ok src ∧
      src.tokens = heads ++ first :: (rest ++ [e, last]) ∧
      heads.map (·.token) = tokens Script.opening ∧ e.token = .word "END" ∧
      last.token = .symbol ';' ∧
      (∀ t ∈ first :: rest, t.span.start.offset < e.span.start.offset) ∧
      src.textBetween first.span.start.offset e.span.start.offset = Text.trim joined := by
  have hclosed : Closed joined := by
    rw [Closed, hcut]
  have hcut' : cut (joined ++ '\n' :: Script.closing) =
      ⟨(cut joined).pieces ++ [.blank '\n', .token (.word "END") "END"] ++
        [.token (.symbol ';') [';']], none⟩ := by
    rw [Script.cut_line_append hclosed, cut_closing]
    simp
  obtain ⟨src, heads, last, hsrc, htokens, hheads, hlast, hbody⟩ := exists_source_block hcut'
  obtain ⟨first, rest, hfirst, hplace⟩ : ∃ first rest,
      locate inward (cut joined).pieces = first :: rest ∧ first.span.start = inward := by
    rw [hcut]
    exact ⟨_, _, rfl, rfl⟩
  obtain ⟨e, hword, hstop, hlocate⟩ : ∃ e : Located, e.token = .word "END" ∧
      e.span.start.offset = inward.offset + Text.byteLength (joined ++ ['\n']) ∧
      locate inward ((cut joined).pieces ++ [.blank '\n', .token (.word "END") "END"]) =
        first :: rest ++ [e] := by
    rw [locate_append, hclosed.flatMap_text, hfirst]
    refine ⟨_, rfl, ?_, rfl⟩
    simp [Nat.add_assoc, text]
  rw [hlocate] at htokens
  refine ⟨src, heads, first, rest, e, last, hsrc, by simp [htokens], hheads, hword, hlast, ?_, ?_⟩
  · intro t ht
    rw [← hfirst] at ht
    obtain ⟨-, hlt⟩ := offset_of_mem_locate (glued_of_cut joined).wellFormed ht
    rw [hclosed.flatMap_text] at hlt
    rw [hstop, Text.byteLength_append]
    omega
  · have hslice := hbody.textBetween openingPieces ((cut joined).pieces ++ [.blank '\n'])
      [.token (.word "END") "END"] (by simp)
    rw [List.flatMap_append, hclosed.flatMap_text, ← offset_inward] at hslice
    rw [hplace, hstop]
    exact hslice.trans (Text.trim_concat isBlank_newline joined)

/-- **A block of insertions asks for them**, in their order, where `END` stands behind them. -/
theorem parse_block (hne : ms ≠ []) (h : ∀ m ∈ ms, StandsAlone m) :
    parse (Script.blockOf (bodies ms ++ [Script.closing])) = .ok (some (.statementSet ms)) := by
  rw [Script.blockOf, Script.join_concat (bodies_ne_nil hne)]
  obtain ⟨k, lexeme, ps, -, hcut⟩ := exists_cut_bodies hne h
  obtain ⟨src, heads, first, rest, e, last, hsrc, htokens, hheads, hword, hlast, hplaces,
    hbetween⟩ := exists_source_closed hcut
  have hends : e.token.isKeyword "END" := by
    rw [hword]
    decide
  have hend : lastEnd? first.span.start.offset src.tokens = some e.span.start.offset := by
    have hshape : src.tokens = (heads ++ first :: rest) ++ e :: [last] := by
      rw [htokens]
      simp
    rw [hshape]
    refine lastEnd?_append hends ?_ (Nat.le_of_lt (hplaces first List.mem_cons_self))
    intro t ht
    rw [List.mem_singleton.1 ht, hlast]
    rfl
  have hinserts := insertsOf_inside hne h ('\n' :: Script.closing) first.span
  rw [← hbetween] at hinserts
  have hblock :=
    block_of_end hend hinserts (dropWhile_to_end hends hplaces [last]) hlast
  refine parse_eq_ok_iff.2 ⟨src, [last], hsrc, ?_⟩
  rw [operation_block hheads htokens]
  exact (run_bind_ok hblock).trans rfl

theorem parse_block_nil :
    parse (Script.blockOf [Script.closing]) = .ok (some (.statementSet [])) := by decide +kernel

/-- Texts that are parsed as the insertions that they spell are the statements of insertions that
stand alone. -/
theorem bodies_of_forall₂ {ss : List Text}
    (h : List.Forall₂ (fun s m => parse s = .ok (some (.insert m)) ∧ m.statement = s) ss ms) :
    bodies ms = ss.map Script.terminated ∧ ∀ m ∈ ms, StandsAlone m := by
  induction h with
  | nil => exact ⟨rfl, fun m hm => by cases hm⟩
  | @cons s m ss ms hm hrest ih =>
    obtain ⟨hparse, rfl⟩ := hm
    obtain ⟨hbodies, halone⟩ := ih
    refine ⟨?_, List.forall_mem_cons.2 ⟨hparse, halone⟩⟩
    rw [bodies, List.map_cons, List.map_cons, ← hbodies]
    rfl

/-- **A block is parsed to exactly its insertions**, any number of them, whatever they hold: the
statements of a block stand on lines of their own, each with its terminator on the next line. -/
theorem parse_blockOf_statements {ss : List Text}
    (h : List.Forall₂ (fun s m => parse s = .ok (some (.insert m)) ∧ m.statement = s) ss ms) :
    parse (Script.blockOf (ss.map Script.terminated ++ [Script.closing])) =
      .ok (some (.statementSet ms)) := by
  obtain ⟨hbodies, halone⟩ := bodies_of_forall₂ h
  rw [← hbodies]
  by_cases hne : ms = []
  · rw [hne]
    exact parse_block_nil
  · exact parse_block hne halone

/-- Insertions with the word `END`, with comments, and with quoted texts over two lines. -/
def manyEnds : List Text :=
  ["INSERT INTO a SELECT CASE b WHEN 1 THEN 2 END FROM c",
    "INSERT OVERWRITE d -- END;\nSELECT 'END;'",
    "INSERT INTO TABLE e.f /* ; */ VALUES ('it''s\n;')"]

theorem parse_blockOf_statements_manyEnds :
    ∃ ms : List Modify, ms.map (·.target) = ["a", "d", "e.f"] ∧
      List.Forall₂ (fun s m => parse s = .ok (some (.insert m)) ∧ m.statement = s) manyEnds ms ∧
      parse (Script.blockOf (manyEnds.map Script.terminated ++ [Script.closing])) =
        .ok (some (.statementSet ms)) := by
  have hforall : List.Forall₂ (fun s m => parse s = .ok (some (.insert m)) ∧ m.statement = s)
      manyEnds [⟨.insertInto, "a", manyEnds[0]⟩, ⟨.insertOverwrite, "d", manyEnds[1]⟩,
        ⟨.insertInto, "e.f", manyEnds[2]⟩] := by
    refine .cons ⟨?_, rfl⟩ (.cons ⟨?_, rfl⟩ (.cons ⟨?_, rfl⟩ .nil)) <;> decide +kernel
  exact ⟨_, rfl, hforall, parse_blockOf_statements hforall⟩

/-! ## Truncated blocks -/

/-- The number of tokens of the statements of insertions. -/
def weight (ms : List Modify) : Nat := (ms.flatMap fun m => Script.substance m.statement).length

theorem weight_append (ms ns : List Modify) : weight (ms ++ ns) = weight ms + weight ns := by
  rw [weight, List.flatMap_append, List.length_append]
  rfl

theorem weight_singleton_le (h : m ∈ ms) : weight [m] ≤ weight ms := by
  obtain ⟨pre, post, rfl⟩ := List.append_of_mem h
  have hparts := weight_append pre ([m] ++ post)
  rw [weight_append [m] post, List.singleton_append] at hparts
  omega

/-- An insertion has at least its keyword. -/
theorem weight_pos (h : StandsAlone m) : 0 < weight [m] := by
  obtain ⟨w, ks, htokens, -⟩ := h.tokens_eq
  have hword : Token.word w ∈ Script.substance m.statement :=
    List.mem_filter.2 ⟨by rw [htokens]; exact List.mem_cons_self, by simp⟩
  rw [weight, List.flatMap_singleton]
  exact List.length_pos_of_mem hword

/-- The statements of the insertions inside of a block have their tokens from the inner texts. -/
theorem weight_le_of_insertsOf {t : Text} {place : Span} {segments : List Text}
    (h : insertsOf (inside t) place segments = .ok ms) :
    weight ms ≤ (segments.flatMap Script.substance).length := by
  induction segments generalizing ms with
  | nil =>
    cases h
    exact Nat.zero_le _
  | cons s segments ih =>
    rw [List.flatMap_cons, List.length_append]
    rcases cases_of_insertsOf h with ⟨-, hrest⟩ | ⟨m, ns, hs, hrest, rfl⟩
    · have hfound := ih hrest
      omega
    · have hfound := ih hrest
      have hm : parse s = .ok (some (.insert m)) := by
        unfold inside at hs
        split at hs
        · exact hs
        · cases hs
      have hlength := (substance_sublist_of_parse hm).length_le
      rw [weight, List.flatMap_cons, List.length_append]
      rw [weight] at hfound
      omega

theorem flatMap_substance_split (t : Text) :
    (Script.split t).flatMap Script.substance = Script.substance t := by
  rw [Script.substance, ← Script.flatMap_tokens_split, List.filter_flatMap]
  rfl

theorem weight_eq (h : ∀ m ∈ ms, StandsAlone m) :
    weight ms = (Script.substance (Text.join ['\n'] (bodies ms))).length := by
  have hterminated : ∀ m ∈ ms, Script.substance m.statement =
      (tokens (Script.terminated m.statement)).filter (· ≠ .symbol ';') := by
    intro m hm
    rw [(h m hm).tokens_terminated, List.filter_append, Script.substance]
    simp
  rw [weight, Script.substance, Script.tokens_join_segments (isSegment_of_mem_bodies h), bodies,
    List.flatMap_map, List.filter_flatMap, List.flatMap_def, List.flatMap_def,
    List.map_congr_left hterminated]

/-- The pieces in front of a token of a text have fewer tokens than the text. -/
theorem length_substance_lt {t : Text} {before behind : List Piece} {k : Token} {lexeme : Text}
    (hcut : (cut t).pieces = before ++ .token k lexeme :: behind) (hk : k ≠ .symbol ';') :
    (Script.substance (before.flatMap text)).length < (Script.substance t).length := by
  have hinfix : (cut t).pieces = [] ++ before ++ .token k lexeme :: behind := hcut
  have hbefore : cut (before.flatMap text) = ⟨before, none⟩ := cut_of_pieces_eq_infix hinfix
  have htokens : tokens t = before.filterMap token? ++ k :: behind.filterMap token? := by
    rw [tokens, hcut]
    simp [token?]
  have hkeep : decide (k ≠ .symbol ';') = true := decide_eq_true hk
  rw [Script.substance, Script.substance, htokens, tokens, hbefore, List.filter_append,
    List.filter_cons, if_pos hkeep, List.length_append, List.length_cons]
  dsimp only
  omega

/-- **A block that ends without a word `END` of its own is truncated.**  If it is parsed at all, the
last word `END` of the insertions is taken for its end. -/
theorem truncated_of_parse (hne : ms ≠ []) (h : ∀ m ∈ ms, StandsAlone m) {found : Option Operation}
    (hparse : parse (Script.blockOf (bodies ms)) = .ok found) :
    ∃ ms', found = some (.statementSet ms') ∧ weight ms' < weight ms := by
  obtain ⟨k, lexeme, ps, -, hcut⟩ := exists_cut_bodies hne h
  have hweight := weight_eq h
  rw [Script.blockOf] at hparse
  generalize Text.join ['\n'] (bodies ms) = joined at hcut hparse hweight
  obtain ⟨src, heads, last, hsrc, htokens, hheads, hlast, hbody⟩ := exists_source_block hcut
  obtain ⟨first, rest, hfirst, hplace⟩ : ∃ first rest,
      locate inward (.token k lexeme :: ps) = first :: rest ∧ first.span.start = inward :=
    ⟨_, _, rfl, rfl⟩
  obtain ⟨src', left, hsrc', hop⟩ := parse_eq_ok_iff.1 hparse
  obtain rfl : src = src' := Except.ok.inj (hsrc.symm.trans hsrc')
  rw [operation_block hheads htokens, hfirst, List.cons_append] at hop
  obtain ⟨op, mid, hblock, hreturn⟩ := ok_of_run_bind hop
  cases hreturn
  obtain ⟨stop, ms', hend, hinserts, rfl⟩ := exists_of_block rfl hblock
  refine ⟨ms', rfl, ?_⟩
  -- the word that was taken for the end of the block belongs to an insertion
  obtain ⟨before, e, behind, hshape, hends, rfl, hle⟩ := exists_of_lastEnd? hend
  have he : e.token ≠ .symbol ';' := by
    intro heq
    rw [heq] at hends
    cases hends
  obtain ⟨front, lexeme', after, hpieces, -, hstop⟩ := hbody.exists_of_tokens he hshape
  rw [hplace, hstop, offset_inward] at hle
  have hwf : ∀ p ∈ openingPieces, p.WellFormed := by
    intro p hp
    refine (glued_of_cut (Script.opening ++ '\n' :: joined)).wellFormed p ?_
    rw [hbody.pieces]
    exact List.mem_append_left _ (List.mem_append_left _ hp)
  obtain ⟨skipped, rfl⟩ := exists_append_of_byteLength_le hpieces hwf hle
  have hinside : .token k lexeme :: ps = skipped ++ .token e.token lexeme' :: after := by
    rw [List.append_assoc] at hpieces
    exact List.append_cancel_left hpieces
  have hslice := hbody.textBetween openingPieces skipped (.token e.token lexeme' :: after)
    (by rw [hinside, List.append_assoc])
  rw [List.flatMap_append, Text.byteLength_append, ← offset_inward] at hstop
  rw [← offset_inward, ← hstop, ← hplace] at hslice
  have hpieces' : (cut joined).pieces =
      skipped ++ .token e.token lexeme' :: (after ++ [.token (.symbol ';') [';']]) := by
    rw [hcut, hinside]
    simp
  calc weight ms'
      ≤ (Script.substance (skipped.flatMap text)).length := by
        have hcount := weight_le_of_insertsOf hinserts
        rwa [hslice, flatMap_substance_split, Script.substance, tokens_trim] at hcount
    _ < weight ms := by
        rw [hweight]
        exact length_substance_lt hpieces' he

end

end SqlConsole.Statement
