import SqlConsole.Proofs.Script.Chunks
import SqlConsole.Proofs.Statement.Block
import SqlConsole.Proofs.Statement.Outline
/-!
# Layout does not matter

Texts with the same tokens ask for the same operation, whatever blanks and comments stand between the
tokens (`outline_parse_eq`): both are faults, or both are empty, or both spell operations that differ
at most in texts taken as they stand.

The one place where the parser goes back from tokens to text is a block.  What stands in front of its
last word `END` is split as a script is, by tests on characters, and each statement is parsed anew.
Either all of these statements are insertions; then none of the tests fires, and any other layout is
split alike (`Script.map_tokens_split_eq`).  Or one of them is not, and the block is a fault, in every
layout.  The induction is on the length of the text.
-/

namespace SqlConsole.Statement

open StatementParser Piece

variable {src src' : Source} {ts us : List Located}

/-! ## Statements of a block -/

/-- What may stand in a block: nothing, or an insertion. -/
def IsInsertion : Option Operation → Prop
  | none | some (.insert _) => True
  | _ => False

/-- A statement that may stand in a block is not foreign to it. -/
theorem not_foreign_of_parse {s : Text} {found : Option Operation} (h : parse s = .ok found)
    (hfound : IsInsertion found) : ¬ Script.Foreign (tokens s) := by
  intro hforeign
  obtain ⟨w, rest, hword, hupper, hsecond⟩ := hforeign
  cases found with
  | none =>
    obtain ⟨lexed, hlexed, hend⟩ := atEnd_of_parse_eq_none h
    obtain ⟨-, hsame⟩ := Lexed.closed_of_ofText hlexed
    rw [← hsame] at hword
    obtain ⟨first, others, heq, htoken, -⟩ := List.map_eq_cons_iff.1 hword
    rw [heq] at hend
    cases others with
    | nil =>
      have hterminator : first.token = .symbol ';' := beq_iff_eq.1 hend
      rw [htoken] at hterminator
      cases hterminator
    | cons => cases hend
  | some op =>
    cases op with
    | insert m =>
      obtain ⟨src, front, ts, us, hsrc, htokens, hinsert, hfront, -⟩ := exists_insert_of_parse h
      obtain ⟨t, behind, rfl, hkeyword, -⟩ := exists_of_insert hinsert
      rw [← (map_token_of_ofText hsrc).2, htokens] at hword
      rcases hfront with rfl | ⟨k, rfl⟩
      · obtain ⟨hfirst, -⟩ := List.cons.inj hword
        change t.token = _ at hfirst
        rw [hfirst] at hkeyword
        exact hupper (beq_iff_eq.1 hkeyword)
      · obtain ⟨-, rfl⟩ := List.cons.inj hword
        have hnot := hsecond t.token rfl
        rw [hkeyword] at hnot
        cases hnot
    | _ => exact hfound

section

variable {inner inner' : Text → Except ParseError (Option Operation)}

/-- Where a block asks for insertions, each of its statements is one or is empty. -/
theorem forall_of_insertsOf {place : Span} {ss : List Text} {ms : List Modify}
    (h : insertsOf inner place ss = .ok ms) :
    ∀ s ∈ ss, ∃ found, inner s = .ok found ∧ IsInsertion found := by
  induction ss generalizing ms with
  | nil => simp
  | cons s ss ih =>
    intro u hu
    rcases cases_of_insertsOf h with ⟨hs, hrest⟩ | ⟨m, ns, hs, hrest, -⟩
    · rcases List.mem_cons.1 hu with rfl | hu
      · exact ⟨none, hs, trivial⟩
      · exact ih hrest u hu
    · rcases List.mem_cons.1 hu with rfl | hu
      · exact ⟨some (.insert m), hs, trivial⟩
      · exact ih hrest u hu

/-- Anything else than an insertion is a fault in a block. -/
theorem exists_fault_of_insertsOf {s : Text} {op : Operation} (hs : inner s = .ok (some op))
    (hop : ∀ m, op ≠ .insert m) (place : Span) (ss : List Text) :
    ∃ e, insertsOf inner place (s :: ss) = .error e := by
  rw [insertsOf, hs]
  cases op with
  | insert m => exact (hop m rfl).elim
  | _ => exact ⟨_, rfl⟩

/-- An operation that is like an insertion is one. -/
theorem exists_of_alike_insert {ks : List Token} {m : Modify} {op : Operation}
    (h : Operation.Alike ks (.insert m) op) : ∃ n, op = .insert n ∧ m.outline = n.outline := by
  cases op with
  | insert n => exact ⟨n, rfl, Operation.insert.inj h⟩
  | _ => cases h

/-- Statements that come to the same one by one come to the same insertions. -/
theorem both_insertsOf {ss ss' : List Text} (place place' : Span)
    (h : List.Forall₂ (fun s s' => ∃ ks, Both (Found ks) (inner s) (inner' s')) ss ss') :
    Both (fun ms ms' => ms.map Modify.outline = ms'.map Modify.outline)
      (insertsOf inner place ss) (insertsOf inner' place' ss') := by
  induction h with
  | nil => exact .answers rfl
  | @cons s s' ss ss' hs _ ih =>
    obtain ⟨ks, hs⟩ := hs
    generalize hx : inner s = x at hs
    generalize hy : inner' s' = y at hs
    cases hs with
    | faults e e' =>
      rw [insertsOf, insertsOf, hx, hy]
      exact .faults e e'
    | answers hs =>
      cases hs with
      | none =>
        rw [insertsOf, insertsOf, hx, hy]
        exact ih
      | @some op op' halike =>
        by_cases hop : ∃ m, op = .insert m
        · obtain ⟨m, rfl⟩ := hop
          obtain ⟨n, rfl, hmn⟩ := exists_of_alike_insert halike
          rw [insertsOf, insertsOf, hx, hy]
          change Both _ ((insertsOf inner place ss).map (m :: ·))
            ((insertsOf inner' place' ss').map (n :: ·))
          generalize insertsOf inner place ss = found at ih
          generalize insertsOf inner' place' ss' = found' at ih
          cases ih with
          | answers hmore => exact .answers (congrArg₂ List.cons hmn hmore)
          | faults e e' => exact .faults e e'
        · -- being an insertion does not depend on the layout
          have hop' : ¬ ∃ m, op' = .insert m := by
            intro hinsert
            obtain ⟨n, rfl⟩ := hinsert
            obtain ⟨m, rfl, -⟩ := exists_of_alike_insert halike.symm
            exact hop ⟨m, rfl⟩
          obtain ⟨e, he⟩ := exists_fault_of_insertsOf hx (fun m h => hop ⟨m, h⟩) place ss
          obtain ⟨e', he'⟩ := exists_fault_of_insertsOf hy (fun m h => hop' ⟨m, h⟩) place' ss'
          rw [he, he']
          exact .faults e e'

end

theorem length_of_mem_split {t s : Text} (h : s ∈ Script.split t) : s.length ≤ t.length := by
  obtain ⟨u, rfl, hu⟩ := Script.exists_of_mem_split h
  have hpart : u.Sublist t := by
    rcases hu with rfl | hu | rfl
    · exact .refl _
    · conv => rhs; rw [← Script.text_eq_scan t]
      exact (List.sublist_flatten_of_mem hu).trans (List.sublist_append_left _ _)
    · conv => rhs; rw [← Script.text_eq_scan t]
      exact List.sublist_append_right _ _
  exact Nat.le_trans (Text.length_trim_le u) hpart.length_le

theorem homely_of_insertsOf {t b : Text} {place : Span} {ms : List Modify}
    (hlength : b.length < t.length)
    (h : insertsOf (inside t) place (Script.split b) = .ok ms) : Script.Homely b := by
  intro s hs
  obtain ⟨found, hfound, hinsertion⟩ := forall_of_insertsOf h s hs
  rw [inside, if_pos (Nat.lt_of_le_of_lt (length_of_mem_split hs) hlength)] at hfound
  exact not_foreign_of_parse hfound hinsertion

/-! ## Blocks -/

/-- Without a word `END` a block is a fault. -/
theorem block_of_forall (inner : Text → Except ParseError (Option Operation))
    {heads : List Located} (htokens : src.tokens = heads ++ ts)
    (hheads : ∀ k ∈ heads, k.token.isKeyword "END" = false)
    (h : ∀ k ∈ ts, k.token.isKeyword "END" = false) : ∃ e, block inner src ts = .error e := by
  obtain ⟨place, hplace⟩ := exists_here src ts
  have hend : lastEnd? place.start.offset src.tokens = none := by
    have hfind : src.tokens.reverse.find? (·.token.isKeyword "END") = none := by
      rw [List.find?_eq_none]
      intro k hk
      rw [List.mem_reverse, htokens] at hk
      rcases List.mem_append.1 hk with hk | hk
      · exact Bool.eq_false_iff.1 (hheads k hk)
      · exact Bool.eq_false_iff.1 (h k hk)
    rw [lastEnd?, hfind]
    rfl
  exact ⟨_, by rw [block_apply hplace, hend]⟩

/-- The place of the next token divides what stands in front of a later one. -/
theorem exists_here_of_locate {front : List Piece} {heads before : List Located} {e : Located}
    (hfront : locate .start front = heads ++ before)
    (hstop : e.span.start.offset = Text.byteLength (front.flatMap text)) (src : Source)
    (behind : List Located) :
    ∃ place skipped mid, here src (before ++ e :: behind) = .ok (place, before ++ e :: behind) ∧
      front = skipped ++ mid ∧ place.start.offset = Text.byteLength (skipped.flatMap text) ∧
      mid.filterMap token? = before.map (·.token) := by
  cases before with
  | nil => exact ⟨e.span, front, [], rfl, by simp, hstop, rfl⟩
  | cons first before =>
    obtain ⟨skipped, lexeme, rest, heq, -, hspan, hrest⟩ := exists_of_locate_eq hfront
    refine ⟨first.span, skipped, .token first.token lexeme :: rest, rfl, heq, ?_, ?_⟩
    · rw [hspan, Position.offset_after]
      exact Nat.zero_add _
    · rw [List.filterMap_cons, hrest]
      rfl

/-- What stands in front of a token of a text is shorter than the text. -/
theorem length_lt_of_pieces {t : Text} (ht : Closed t) {before mid behind : List Piece} {k : Token}
    {lexeme : Text} (hpieces : (cut t).pieces = before ++ mid ++ .token k lexeme :: behind) :
    (mid.flatMap text).length < t.length := by
  have hwf : (Piece.token k lexeme).WellFormed :=
    (glued_of_cut t).wellFormed _ (by rw [hpieces]; exact List.mem_append_right _ List.mem_cons_self)
  have hlexeme : 0 < lexeme.length := List.length_pos_iff.2 hwf.text_ne_nil
  have hlength : (mid.flatMap text ++ lexeme).length ≤ t.length := by
    conv => rhs; rw [← ht.flatMap_text, hpieces]
    simp only [List.flatMap_append, List.flatMap_cons, List.length_append]
    change _ ≤ _ + (lexeme.length + _)
    omega
  rw [List.length_append] at hlength
  omega

/-- What stands in front of the last word `END` is the text that is split. -/
theorem block_of_last {t : Text} (hsrc : Source.ofText t = .ok src) {heads before behind : List Located}
    {e : Located} (htokens : src.tokens = heads ++ (before ++ e :: behind))
    (he : e.token.isKeyword "END") (hbehind : ∀ k ∈ behind, k.token.isKeyword "END" = false)
    (inner : Text → Except ParseError (Option Operation)) :
    ∃ b place, Closed b ∧ tokens b = before.map (·.token) ∧ b.length < t.length ∧
      block inner src (before ++ e :: behind) =
        closeBlock (insertsOf inner place (Script.split b)) src behind := by
  obtain ⟨body, ending, hbody⟩ := exists_bodyOf hsrc
  have he' : e.token ≠ .symbol ';' := by
    intro heq
    rw [heq] at he
    cases he
  have hsplit : src.tokens = (heads ++ before) ++ e :: behind := by
    rw [htokens, List.append_assoc]
  obtain ⟨front, lexeme, after, rfl, hfront, hstop⟩ := hbody.exists_of_tokens he' hsplit
  obtain ⟨place, skipped, mid, hplace, rfl, hstart, hmid⟩ :=
    exists_here_of_locate hfront hstop src behind
  have hpieces : (cut t).pieces =
      skipped ++ mid ++ .token e.token lexeme :: (after ++ ending) := by
    rw [hbody.pieces, List.append_assoc _ _ ending, List.cons_append]
  have hcut : cut (mid.flatMap text) = ⟨mid, none⟩ := cut_of_pieces_eq_infix hpieces
  have hbefore : ∀ k ∈ before, k.span.start.offset < e.span.start.offset := by
    intro k hk
    have hmem : k ∈ locate .start (skipped ++ mid) := by
      rw [hfront]
      exact List.mem_append_right _ hk
    have hwf : ∀ p ∈ skipped ++ mid, p.WellFormed := by
      intro p hp
      refine (glued_of_cut t).wellFormed p ?_
      rw [hpieces]
      exact List.mem_append_left _ hp
    obtain ⟨-, hlt⟩ := offset_of_mem_locate hwf hmem
    rw [hstop]
    exact Nat.lt_of_lt_of_eq hlt (Nat.zero_add _)
  rw [List.flatMap_append, Text.byteLength_append] at hstop
  have hslice : src.textBetween place.start.offset e.span.start.offset =
      Text.trim (mid.flatMap text) := by
    rw [hstart, hstop]
    exact hbody.textBetween skipped mid (.token e.token lexeme :: after) rfl
  have hend : lastEnd? place.start.offset src.tokens = some e.span.start.offset := by
    rw [hsplit]
    exact lastEnd?_append he hbehind (by omega)
  refine ⟨Text.trim (mid.flatMap text), place, ?_, ?_, ?_, ?_⟩
  · rw [closed_iff, fault?_trim, ← closed_iff, Closed, hcut]
  · rw [tokens_trim, tokens, hcut]
    exact hmid
  · exact Nat.lt_of_le_of_lt (Text.length_trim_le _) (length_lt_of_pieces hbody.closed hpieces)
  · rw [block_apply hplace, hend]
    dsimp only
    rw [hslice, dropWhile_to_end he hbefore]
    rfl

theorem parallel_closeBlock {found found' : Except ParseError (List Modify)}
    (h : Both (fun ms ms' => ms.map Modify.outline = ms'.map Modify.outline) found found')
    (ks : List Token) : Parallel (Operation.Alike ks) (closeBlock found) (closeBlock found') := by
  cases h with
  | faults e e' => exact .fault e e'
  | @answers ms ms' h =>
    have halike : Operation.Alike ks (.statementSet ms) (.statementSet ms') :=
      congrArg Operation.statementSet h
    exact parallel_expectEnd.bind_eq fun _ => .result halike

/-- Either no token is a certain keyword, or one of them is the last that is. -/
theorem exists_last_keyword (keyword : Text) (ts : List Located) :
    (∀ k ∈ ts, k.token.isKeyword keyword = false) ∨
      ∃ before e behind, ts = before ++ e :: behind ∧ e.token.isKeyword keyword ∧
        ∀ k ∈ behind, k.token.isKeyword keyword = false := by
  cases hfind : ts.reverse.find? (·.token.isKeyword keyword) with
  | none =>
    refine .inl fun k hk => Bool.eq_false_iff.2 ?_
    exact List.find?_eq_none.1 hfind k (List.mem_reverse.2 hk)
  | some e =>
    obtain ⟨he, behind, before, hreverse, hbehind⟩ := List.find?_eq_some_iff_append.1 hfind
    refine .inr ⟨before.reverse, e, behind.reverse, ?_, he, fun k hk => ?_⟩
    · rw [← List.reverse_reverse ts, hreverse]
      simp
    · simpa using hbehind k (List.mem_reverse.1 hk)

/-- Tokens of another layout come apart in the same way. -/
theorem SameTokens.exists_of_append {before behind : List Located} {e : Located}
    (h : SameTokens (before ++ e :: behind) us) :
    ∃ before' e' behind', us = before' ++ e' :: behind' ∧ SameTokens before before' ∧
      e.token = e'.token ∧ SameTokens behind behind' := by
  rw [sameTokens_iff, List.map_append, List.map_cons] at h
  obtain ⟨before', rest, rfl, hbefore, hrest⟩ := List.map_eq_append_iff.1 h.symm
  obtain ⟨e', behind', rfl, he, hbehind⟩ := List.map_eq_cons_iff.1 hrest
  exact ⟨before', e', behind', rfl, sameTokens_iff.2 hbefore.symm, he.symm,
    sameTokens_iff.2 hbehind.symm⟩

section

variable {t t' : Text}

/-- Texts shorter than `t` come to the same in any layout. -/
def Shorter (t : Text) : Prop :=
  ∀ s s' : Text, s.length < t.length → Closed s → Closed s' → tokens s = tokens s' →
    Both (Found (tokens s)) (parse s) (parse s')

/-- What stands in front of the end of a block asks for the same insertions in any layout. -/
theorem both_insertsOf_split {b b' : Text} (ih : Shorter t) (hb : Closed b) (hb' : Closed b')
    (htokens : tokens b = tokens b') (hlength : b.length < t.length)
    (hlength' : b'.length < t'.length) (place place' : Span) :
    Both (fun ms ms' => ms.map Modify.outline = ms'.map Modify.outline)
      (insertsOf (inside t) place (Script.split b))
      (insertsOf (inside t') place' (Script.split b')) := by
  have hsplit (hsame : (Script.split b).map tokens = (Script.split b').map tokens) :
      Both (fun ms ms' => ms.map Modify.outline = ms'.map Modify.outline)
        (insertsOf (inside t) place (Script.split b))
        (insertsOf (inside t') place' (Script.split b')) := by
    have hforall := (forall₂_iff_map_eq tokens).2 hsame
    obtain ⟨hcount, hpairs⟩ := List.forall₂_iff_zip.1 hforall
    refine both_insertsOf place place' (List.forall₂_iff_zip.2 ⟨hcount, ?_⟩)
    intro s s' hzip
    obtain ⟨hs, hs'⟩ := List.of_mem_zip hzip
    have hshort := Nat.lt_of_le_of_lt (length_of_mem_split hs) hlength
    have hshort' := Nat.lt_of_le_of_lt (length_of_mem_split hs') hlength'
    refine ⟨tokens s, ?_⟩
    rw [inside, inside, if_pos hshort, if_pos hshort']
    exact ih s s' hshort (Script.closed_of_mem_split hb hs) (Script.closed_of_mem_split hb' hs')
      (hpairs hzip)
  -- That texts are split alike is known only where one of them holds insertions and nothing else; it
  -- may be either.  If neither does, both blocks are faults, however they are split.
  cases hfound : insertsOf (inside t) place (Script.split b) with
  | ok ms =>
    rw [← hfound]
    have hhomely := homely_of_insertsOf hlength hfound
    exact hsplit (Script.map_tokens_split_eq hb hb' htokens.symm hhomely).symm
  | error e =>
    cases hfound' : insertsOf (inside t') place' (Script.split b') with
    | error e' => exact .faults e e'
    | ok ms' =>
      have hhomely := homely_of_insertsOf hlength' hfound'
      rw [← hfound, ← hfound']
      exact hsplit (Script.map_tokens_split_eq hb' hb htokens hhomely)

theorem agree_block {heads heads' : List Located} (ih : Shorter t) (hsrc : Source.ofText t = .ok src)
    (hsrc' : Source.ofText t' = .ok src') (htokens : src.tokens = heads ++ ts)
    (htokens' : src'.tokens = heads' ++ us) (hheads : SameTokens heads heads')
    (hts : SameTokens ts us) (hend : ∀ k ∈ heads, k.token.isKeyword "END" = false)
    (ks : List Token) :
    Agree (Operation.Alike ks) (block (inside t) src ts) (block (inside t') src' us) := by
  have hnone {ts us : List Located} (hsame : SameTokens ts us) :=
    hsame.forall_token (p := fun k => k.isKeyword "END" = false)
  rcases exists_last_keyword "END" ts with hall | ⟨before, e, behind, rfl, he, hbehind⟩
  · obtain ⟨f, hf⟩ := block_of_forall (inside t) htokens hend hall
    obtain ⟨f', hf'⟩ :=
      block_of_forall (inside t') htokens' (hnone hheads hend) (hnone hts hall)
    rw [hf, hf']
    exact .faults f f'
  · obtain ⟨before', e', behind', rfl, hbefore, hee', hbehind'⟩ := hts.exists_of_append
    obtain ⟨b, place, hb, hbtokens, hlength, hblock⟩ :=
      block_of_last hsrc htokens he hbehind (inside t)
    obtain ⟨b', place', hb', hbtokens', hlength', hblock'⟩ :=
      block_of_last hsrc' htokens' (hee' ▸ he) (hnone hbehind' hbehind) (inside t')
    have hsame : tokens b = tokens b' := by
      rw [hbtokens, hbtokens', sameTokens_iff.1 hbefore]
    have hboth := both_insertsOf_split ih hb hb' hsame hlength hlength' place place'
    rw [hblock, hblock']
    exact parallel_closeBlock hboth ks hbehind'

/-- None of the keywords that stand at the front is another one. -/
theorem forall_of_startsWith {keyword : Text} {keywords : List Text}
    (hne : ∀ other ∈ keywords, Text.upper other ≠ Text.upper keyword) (h : startsWith keywords ts) :
    ∀ k ∈ ts.take keywords.length, k.token.isKeyword keyword = false := by
  induction keywords generalizing ts with
  | nil => simp
  | cons first keywords ih =>
    cases ts with
    | nil => cases h
    | cons k ts =>
      rw [startsWith, Bool.and_eq_true] at h
      intro found hfound
      rcases List.mem_cons.1 hfound with rfl | hfound
      · exact not_isKeyword_of_isKeyword (hne first List.mem_cons_self) h.1
      · exact ih (fun other hother => hne other (List.mem_cons_of_mem first hother)) h.2 found hfound

theorem agree_execute {k : Located} {w : Text} (ih : Shorter t) (hsrc : Source.ofText t = .ok src)
    (hsrc' : Source.ofText t' = .ok src') (h : SameTokens src.tokens src'.tokens)
    (htokens : src.tokens = k :: ts) (hword : k.token = .word w)
    (hopening : Opening.ofWord? w = some .execute) (ks : List Token) :
    Agree (Operation.Alike ks) (execute (inside t) src src.tokens)
      (execute (inside t') src' src'.tokens) := by
  refine (parallel_advance h).bind fun _ _ mid mid' hmid hmid' _ hsame => ?_
  cases hmid
  cases hmid'
  refine (parallel_eatKeywords _ hsame).bind fun found found' left left' hfound hfound' heq hleft => ?_
  subst heq
  cases found with
  | false =>
    have hinsert : Parallel (Operation.Alike ks)
        (do
          if startsWith ["INSERT"] (← get) then return .insert (← insert)
          else unexpected "STATEMENT SET or INSERT")
        (do
          if startsWith ["INSERT"] (← get) then return .insert (← insert)
          else unexpected "STATEMENT SET or INSERT") := by
      refine .get_bind fun ts us hleft => ?_
      rw [hleft.startsWith]
      exact .ite (parallel_insert.bind fun _ _ hmn => .result (congrArg Operation.insert hmn))
        (.unexpected _ _)
    exact hinsert hleft
  | true =>
    obtain ⟨hstarts, rfl⟩ := eq_of_eatKeywords hfound
    obtain ⟨-, rfl⟩ := eq_of_eatKeywords hfound'
    have hparts (ts : List Located) : ts = ts.take 4 ++ ts.tail.drop 3 := by
      rw [← List.drop_one, List.drop_drop, List.take_append_drop]
    refine agree_block ih hsrc hsrc' (hparts _) (hparts _) (List.forall₂_take 4 h) hleft ?_ ks
    rw [htokens] at hstarts ⊢
    intro found hmem
    rcases List.mem_cons.1 hmem with rfl | hmem
    · rw [hword]
      refine beq_eq_false_iff_ne.2 fun hupper => ?_
      rw [Opening.ofWord?, hupper] at hopening
      exact absurd hopening (by decide)
    · exact forall_of_startsWith (by decide) hstarts found hmem

/-! ## Statements -/

/-- Closed texts with the same tokens come to the same, whatever their layout. -/
theorem both_parse (ht : Closed t) (ht' : Closed t') (h : tokens t = tokens t') :
    Both (Found (tokens t)) (parse t) (parse t') := by
  induction hlength : t.length using Nat.strongRecOn generalizing t t' with
  | ind length ih =>
    -- what is parsed inside of a block is shorter than the block
    have hshorter : Shorter t := fun s s' hs hclosed hclosed' hsame =>
      ih s.length (hlength ▸ hs) hclosed hclosed' hsame rfl
    obtain ⟨src, hsrc⟩ := exists_source ht
    obtain ⟨src', hsrc'⟩ := exists_source ht'
    have htokens := (map_token_of_ofText hsrc).2
    have hsame : SameTokens src.tokens src'.tokens := by
      rw [sameTokens_iff, htokens, (map_token_of_ofText hsrc').2, h]
    have hagree := agree_operation hsame fun k ts w hts hword hopening =>
      agree_execute hshorter hsrc hsrc' hsame hts hword hopening (src.tokens.map (·.token))
    rw [htokens] at hagree
    rw [parse_eq, parse_eq, hsrc, hsrc']
    change Both _ ((operation (inside t) src src.tokens).bind _)
      ((operation (inside t') src' src'.tokens).bind _)
    generalize operation (inside t) src src.tokens = found at hagree
    generalize operation (inside t') src' src'.tokens = found' at hagree
    cases hagree with
    | answers hmade => exact .answers hmade.1
    | faults e e' => exact .faults e e'

/-- **Layout and comments never change what a statement is.**  Of two texts with the same tokens
both are faults, or both are empty, or both ask for operations that are the same but for texts taken
as they stand. -/
theorem outline_parse_eq {ks : List Token} (ht : Lexed.kinds? t = some ks)
    (ht' : Lexed.kinds? t' = some ks) :
    (parse t).toOption.map (fun found => found.map (Operation.outline ks)) =
      (parse t').toOption.map (fun found => found.map (Operation.outline ks)) := by
  obtain ⟨hclosed, rfl⟩ := Lexed.kinds?_eq_some_iff.1 ht
  obtain ⟨hclosed', hsame⟩ := Lexed.kinds?_eq_some_iff.1 ht'
  have hboth := both_parse hclosed hclosed' hsame.symm
  generalize parse t = found at hboth
  generalize parse t' = found' at hboth
  cases hboth with
  | faults => rfl
  | answers hfound =>
    cases hfound with
    | none => rfl
    | some halike => exact congrArg (fun op => some (some op)) halike

end

/-- Two layouts of a block; a comment in one of them holds an end of its own. -/
theorem outline_parse_eq_comment :
    ∃ ks, Lexed.kinds? "EXECUTE STATEMENT SET BEGIN INSERT INTO t SELECT 1; END" = some ks ∧
      Lexed.kinds? "EXECUTE STATEMENT SET BEGIN-- END;\nINSERT INTO t/*;*/SELECT 1;END\n" = some ks ∧
      (parse "EXECUTE STATEMENT SET BEGIN INSERT INTO t SELECT 1; END").toOption.map
          (fun found => found.map (Operation.outline ks)) =
        (parse "EXECUTE STATEMENT SET BEGIN-- END;\nINSERT INTO t/*;*/SELECT 1;END\n").toOption.map
          (fun found => found.map (Operation.outline ks)) := by
  have hone : Lexed.kinds? "EXECUTE STATEMENT SET BEGIN INSERT INTO t SELECT 1; END" =
      some [.word "EXECUTE", .word "STATEMENT", .word "SET", .word "BEGIN", .word "INSERT",
        .word "INTO", .word "t", .word "SELECT", .number "1", .symbol ';', .word "END"] := by
    decide +kernel
  have hother : Lexed.kinds?
      "EXECUTE STATEMENT SET BEGIN-- END;\nINSERT INTO t/*;*/SELECT 1;END\n" =
        some [.word "EXECUTE", .word "STATEMENT", .word "SET", .word "BEGIN", .word "INSERT",
          .word "INTO", .word "t", .word "SELECT", .number "1", .symbol ';', .word "END"] := by
    decide +kernel
  exact ⟨_, hone, hother, outline_parse_eq hone hother⟩

end SqlConsole.Statement
