import SqlConsole.Proofs.Script.Chunks
import SqlConsole.Proofs.Script.Partition
import SqlConsole.Proofs.Statement.Faults
/-!
# One statement at a time

A text of complete statements is split at every terminator outside of blocks.  So what is handed on
is one segment (`IsSegment`), or a block, which begins with the words `EXECUTE STATEMENT`
(`cases_of_mem_statements`).  A segment ends with its only terminator, and it is not refused for
holding several statements.

The commands of the client are not split: all the terminators behind a command are handed on with
it.  So a statement of a complete text is a single one unless the text is such a command with two
terminators at its end (`singleStatement_iff`).
-/

namespace SqlConsole

namespace Piece

theorem cut_trimStart (t : Text) : ∃ ps,
    cut t = ⟨ps ++ (cut (Text.trimStart t)).pieces, (cut (Text.trimStart t)).openEnd⟩ := by
  induction t with
  | nil => exact ⟨[], rfl⟩
  | cons c t ih =>
    by_cases hc : isBlank c
    · obtain ⟨ps, hps⟩ := ih
      have htrim : Text.trimStart (c :: t) = Text.trimStart t := List.dropWhile_cons_of_pos hc
      exact ⟨.blank c :: ps, by rw [cut_of_read (read_of_isBlank hc t), hps, htrim]; rfl⟩
    · rw [Text.trimStart, List.dropWhile_cons_of_neg hc]
      exact ⟨[], rfl⟩

end Piece

namespace Script

open Piece

/-! ## Segments -/

/-- What stands behind the leading comments of a text is a part of its pieces. -/
theorem cut_skipComments {t : Text} (h : skipComments t ≠ []) : ∃ ps,
    cut t = ⟨ps ++ (cut (skipComments t)).pieces, (cut (skipComments t)).openEnd⟩ := by
  have hbehind {t u r : Text} {c : Char} {p : Piece} (htrim : Text.trimStart t = c :: r)
      (hread : read c r = .ok (p, u))
      (hrest : ∃ ps, cut u =
        ⟨ps ++ (cut (skipComments u)).pieces, (cut (skipComments u)).openEnd⟩) :
      ∃ ps, cut t = ⟨ps ++ (cut (skipComments u)).pieces, (cut (skipComments u)).openEnd⟩ := by
    obtain ⟨front, hfront⟩ := cut_trimStart t
    obtain ⟨ps, hps⟩ := hrest
    rw [htrim, cut_of_read hread, hps] at hfront
    exact ⟨front ++ p :: ps, by rw [hfront, List.append_assoc, List.cons_append]⟩
  fun_induction skipComments t with
  | case1 t r htrim ih =>
    refine hbehind htrim (p := .comment ('-' :: '-' :: r.takeWhile (· != '\n'))) ?_ (ih h)
    simp [Piece.read, isBlank_signs '-' (by decide)]
  | case2 t r htrim body rest hclose ih =>
    refine hbehind htrim (p := .comment ('/' :: '*' :: body)) ?_ (ih h)
    simp [Piece.read, hclose, isBlank_signs '/' (by decide)]
  | case3 => exact (h rfl).elim
  | case4 t => exact cut_trimStart t

/-- A segment has no terminator in front of its last token. -/
theorem IsSegment.tokens_eq {t : Text} (h : IsSegment t) :
    ∃ ks, tokens t = ks ++ [.symbol ';'] ∧ .symbol ';' ∉ ks := by
  obtain ⟨init, hcut, hinit⟩ := h
  refine ⟨init.filterMap token?, ?_, fun hmem => ?_⟩
  · rw [tokens, hcut, List.filterMap_append]
    rfl
  · obtain ⟨p, hp, htoken⟩ := List.mem_filterMap.1 hmem
    rw [← isTerminator_iff, hinit p hp] at htoken
    cases htoken

theorem IsSegment.skipComments {t : Text} (h : IsSegment t) : IsSegment (skipComments t) := by
  have htokens := (skipComments_spec t).1
  obtain ⟨ks, hks, -⟩ := h.tokens_eq
  have hne : Script.skipComments t ≠ [] := by
    intro hnil
    rw [hnil, tokens_nil, hks] at htokens
    exact List.cons_ne_nil _ _ (List.append_eq_nil_iff.1 htokens.symm).2
  obtain ⟨init, hcut, hinit⟩ := h
  obtain ⟨ps, hps⟩ := cut_skipComments hne
  rw [hcut] at hps
  obtain ⟨hpieces, hopen⟩ := Cut.mk.inj hps
  rcases List.eq_nil_or_concat (cut (Script.skipComments t)).pieces with hnil | ⟨qs, q, hqs⟩
  · rw [tokens, hnil, hks] at htokens
    exact (List.cons_ne_nil _ _ (List.append_eq_nil_iff.1 htokens.symm).2).elim
  · rw [hqs, List.concat_eq_append, ← List.append_assoc] at hpieces
    obtain ⟨rfl, hlast⟩ := List.append_inj' hpieces rfl
    obtain rfl := (List.cons.inj hlast).1
    refine ⟨qs, ?_, fun p hp => hinit p (List.mem_append_right ps hp)⟩
    have hpiecesEq := hqs
    rw [List.concat_eq_append] at hpiecesEq
    rw [← hpiecesEq, hopen]

/-- A segment that opens a block begins with the words `EXECUTE STATEMENT`. -/
theorem IsSegment.tokens_of_opensBlock {t : Text} (h : IsSegment t) (hopens : opensBlock t) :
    ∃ w v ks, tokens t = .word w :: .word v :: ks ∧ Text.upper w = "EXECUTE" ∧
      Text.upper v = "STATEMENT" := by
  obtain ⟨w, hw, ⟨v, ks, htokens, hv⟩ | ⟨rest, htext, htwo, htokens⟩⟩ := cases_of_opensBlock hopens
  · exact ⟨w, v, ks, htokens, hw, hv⟩
  · exfalso
    obtain ⟨init, hcut, hinit⟩ := h.skipComments
    have hclosed : Closed (Script.skipComments t) := by
      rw [Closed, hcut]
    have hwhole : init.flatMap text ++ [';'] = w ++ ';' :: rest := by
      have hflat := hclosed.flatMap_text
      rw [hcut, List.flatMap_append, htext] at hflat
      exact hflat
    rcases List.eq_nil_or_concat rest with rfl | ⟨r, c, rfl⟩
    · -- Nothing follows the terminator, so the text is a single word.
      have hletter := beginsWord_of_upper (by decide) hw
      have hword : Text.words (w ++ [';']) = [w ++ [';']] := by
        refine Text.words_of_forall (by simp) fun d hd => ?_
        rcases List.mem_append.1 hd with hd | hd
        · exact (hletter d hd).2.1
        · rw [List.mem_singleton.1 hd]
          decide
      rw [htext, hword] at htwo
      exact absurd htwo (Nat.not_succ_le_self 1)
    · -- The terminator would stand in front of the last piece.
      rw [List.concat_eq_append, ← List.cons_append, ← List.append_assoc] at hwhole
      have hfront : init.flatMap text = w ++ ';' :: r := (List.append_inj' hwhole rfl).1
      have hpieces : (cut (Script.skipComments t)).pieces =
          [] ++ init ++ [.token (.symbol ';') [';']] := by
        rw [hcut, List.nil_append]
      have hinitTokens : tokens (init.flatMap text) = init.filterMap token? := by
        rw [tokens, cut_of_pieces_eq_infix hpieces]
      have hends : ∀ d ∈ (';' :: r : Text).head?, inWord d = false := by
        intro d hd
        obtain rfl := Option.some.inj hd
        exact inWord_signs ';' (by decide)
      have hread : read ';' r = .ok (.token (.symbol ';') [';'], r) := rfl
      rw [hfront, tokens_keyword_append (by decide) (by decide) hw hends,
        tokens_of_read hread] at hinitTokens
      have hmem : .symbol ';' ∈ init.filterMap token? := by
        rw [← hinitTokens]
        exact List.mem_cons_of_mem _ List.mem_cons_self
      obtain ⟨p, hp, htoken⟩ := List.mem_filterMap.1 hmem
      rw [← isTerminator_iff, hinit p hp] at htoken
      cases htoken

/-! ## Statements of a text -/

/-- A statement of a text is a segment, or it begins with a segment that opens a block. -/
theorem cases_of_mem_statements {t x : Text} (h : x ∈ (Scan.ofText t).statements) :
    IsSegment x ∨ ∃ first, IsSegment first ∧ opensBlock first ∧ first <+: x := by
  have hpart : ⟨[x], none⟩ ∈ (group none (segments .plain t).ended).parts :=
    List.mem_append_left _ (List.mem_map_of_mem h)
  obtain ⟨us, hus, hgroup⟩ := exists_segments_of_mem_parts hpart
  cases us with
  | nil => cases hgroup
  | cons s us =>
    have hs := hus s List.mem_cons_self
    rw [group] at hgroup
    split at hgroup
    · next hbegins =>
      rw [Bool.and_eq_true] at hbegins
      obtain ⟨y, hy, hprefix⟩ := exists_of_group_some s us
      rw [hgroup] at hy
      rcases hy with hy | hy
      · obtain rfl := List.mem_singleton.1 hy
        exact .inr ⟨s, hs, hbegins.1, hprefix⟩
      · cases hy
    · have hstatements := congrArg Grouped.statements hgroup
      obtain ⟨rfl, -⟩ := List.cons.inj hstatements
      exact .inl hs

/-- A single statement: it is read to its end, there is no terminator in front of its last token, so
there is one at most, and it is not refused for holding several statements. -/
structure SingleStatement (s : Text) : Prop where
  read : ∃ lexed, Lexed.ofText s = .ok lexed ∧ (terminators lexed.tokens).length ≤ 1 ∧
    ∀ k ∈ lexed.tokens.dropLast, k.token ≠ .symbol ';'
  accepted : ∀ e, Statement.parse s = .error e → e.cause ≠ .severalStatements

theorem length_terminators_le {ts : List Located}
    (h : ∀ k ∈ ts.dropLast, k.token ≠ .symbol ';') : (terminators ts).length ≤ 1 := by
  rcases List.eq_nil_or_concat ts with rfl | ⟨us, k, rfl⟩
  · exact Nat.zero_le 1
  · rw [List.concat_eq_append, List.dropLast_concat] at h
    have hnone : terminators us = [] :=
      List.filter_eq_nil_iff.2 fun k hk => by simpa using h k hk
    rw [terminators, List.concat_eq_append, List.filter_append]
    change (terminators us ++ _).length ≤ 1
    rw [hnone, List.nil_append]
    exact List.length_filter_le _ [k]

theorem not_mem_dropLast_iff {s : Text} {lexed : Lexed} (hs : Lexed.ofText s = .ok lexed) :
    (∀ k ∈ lexed.tokens.dropLast, k.token ≠ .symbol ';') ↔ .symbol ';' ∉ (tokens s).dropLast := by
  rw [← (Lexed.closed_of_ofText hs).2, ← List.map_dropLast, List.mem_map]
  exact ⟨fun h ⟨k, hk, hterminator⟩ => h k hk hterminator,
    fun h k hk hterminator => h ⟨k, hk, hterminator⟩⟩

theorem startsWith_of_append {front : List Text} (behind : List Text) {ts : List Located}
    (h : startsWith (front ++ behind) ts) : startsWith front ts := by
  induction front generalizing ts with
  | nil => cases ts <;> rfl
  | cons keyword front ih =>
    cases ts with
    | nil => cases h
    | cons k ts =>
      rw [List.cons_append, startsWith, Bool.and_eq_true] at h
      rw [startsWith, h.1, ih h.2]
      rfl

theorem startsWith_of_tokens {ts : List Located} {w v : Text} {ks : List Token}
    (h : ts.map (·.token) = .word w :: .word v :: ks) (hw : Text.upper w = "EXECUTE")
    (hv : Text.upper v = "STATEMENT") : startsWith ["EXECUTE", "STATEMENT"] ts := by
  obtain ⟨k, us, rfl, hk, hus⟩ := List.map_eq_cons_iff.1 h
  obtain ⟨l, vs, rfl, hl, -⟩ := List.map_eq_cons_iff.1 hus
  have hfirst : k.token.isKeyword "EXECUTE" := by
    rw [hk]
    exact beq_iff_eq.2 hw
  have hsecond : l.token.isKeyword "STATEMENT" := by
    rw [hl]
    exact beq_iff_eq.2 hv
  rw [startsWith, startsWith, hfirst, hsecond]
  cases vs <;> rfl

open Statement in
/-- A statement that is no block is a single one if it has no terminator in front of its last token:
no other fault says that it holds several. -/
theorem singleStatement_of_dropLast {s : Text} {lexed : Lexed} (hs : Lexed.ofText s = .ok lexed)
    (hfirst : startsWith ["EXECUTE", "STATEMENT"] lexed.tokens = false)
    (hnone : .symbol ';' ∉ (tokens s).dropLast) : SingleStatement s := by
  rw [← not_mem_dropLast_iff hs] at hnone
  refine ⟨⟨lexed, hs, length_terminators_le hnone, hnone⟩, fun e he hcause => ?_⟩
  rcases cases_of_parse_error he with ⟨what, span, hopen, rfl⟩ | ⟨src, hsrc, hfault⟩
  · cases hcause
  · obtain ⟨lexed', hs', -, htokens⟩ := source_of_ofText hsrc
    rw [hs] at hs'
    cases hs'
    rcases hfault with hraised | ⟨u, hu, -, -⟩
    · cases hraised with
      | severalStatements hk hterminator _ => exact hnone _ (htokens ▸ hk) hterminator
      | _ => cases hcause
    · have hblock : startsWith ["EXECUTE", "STATEMENT", "SET", "BEGIN"] src.tokens := by
        unfold Source.innerStatements at hu
        split at hu
        · assumption
        · cases hu
      have hwords : startsWith ["EXECUTE", "STATEMENT"] src.tokens :=
        startsWith_of_append ["SET", "BEGIN"] hblock
      rw [htokens, hfirst] at hwords
      cases hwords

/-- A command of the client is a single statement unless there are two terminators at its end. -/
theorem singleStatement_iff_of_isBareCommand {b : Text} {lexed : Lexed} (hb : isBareCommand b)
    (hs : Lexed.ofText (Text.trim b) = .ok lexed)
    (hfirst : startsWith ["EXECUTE", "STATEMENT"] lexed.tokens = false) :
    SingleStatement (Text.trim b) ↔ ¬ [';', ';'] <:+ Text.trim b := by
  obtain ⟨-, -, w, front, n, -, htrim, hfront, htokens⟩ := tokens_of_isBareCommand hb
  rw [← tokens_trim] at htokens
  constructor
  · rintro ⟨⟨lexed', hs', -, hnone⟩, -⟩ hsuffix
    rw [not_mem_dropLast_iff hs', htokens] at hnone
    have hcount : 2 ≤ n := by
      have hle := hsuffix.sublist.count_le ';'
      rw [htrim, List.count_append, List.count_eq_zero.2 hfront, List.count_replicate_self] at hle
      simpa using hle
    obtain ⟨m, rfl⟩ := Nat.exists_eq_add_of_le' hcount
    refine hnone ?_
    rw [List.replicate_succ, List.dropLast_cons_of_ne_nil (by simp), List.replicate_succ,
      List.dropLast_cons_of_ne_nil (by simp)]
    exact List.mem_cons_of_mem _ List.mem_cons_self
  · intro hsuffix
    refine singleStatement_of_dropLast hs hfirst ?_
    rw [htokens]
    match n with
    | 0 => simp
    | 1 => simp
    | m + 2 =>
      refine (hsuffix ⟨front ++ List.replicate m ';', ?_⟩).elim
      rw [htrim, List.replicate_add, List.append_assoc]
      rfl

/-- Nothing follows the statements of a complete text. -/
theorem isBlankText_tail {b : Text} (hb : isComplete b) (hbare : ¬ isBareCommand b) :
    isBlankText (Scan.ofText b).tail := by
  rw [isComplete, Bool.or_eq_true] at hb
  have hscan := hb.resolve_left hbare
  simp only [Bool.and_eq_true] at hscan
  obtain ⟨⟨⟨-, hopen⟩, -⟩, hblank⟩ := hscan
  rw [Scan.tail, Option.isNone_iff_eq_none.1 hopen]
  exact hblank

/-- **What is split is handed on one statement at a time**: a statement of a complete text, a block
apart, is a single one, unless the text is a command of the client with two terminators at its
end. -/
theorem singleStatement_iff {b s : Text} (hb : isComplete b) (hs : s ∈ split b) :
    ∃ lexed, Lexed.ofText s = .ok lexed ∧
      (startsWith ["EXECUTE", "STATEMENT"] lexed.tokens = false →
        (SingleStatement s ↔ ¬ (isBareCommand b ∧ [';', ';'] <:+ Text.trim b))) := by
  have hclosed := closed_of_mem_split (closed_of_isComplete hb) hs
  have hlexed := Lexed.ofText_of_closed hclosed
  refine ⟨_, hlexed, fun hfirst => ?_⟩
  rw [split_eq] at hs
  by_cases hbare : isBareCommand b
  · rw [if_pos hbare] at hs
    obtain rfl := List.mem_singleton.1 hs
    rw [singleStatement_iff_of_isBareCommand hbare hlexed hfirst]
    exact not_congr (and_iff_right hbare).symm
  · refine iff_of_true ?_ fun h => hbare h.1
    rw [if_neg hbare, if_pos (isBlankText_tail hb hbare), List.append_nil] at hs
    obtain ⟨x, hx, rfl⟩ := List.mem_map.1 hs
    rcases cases_of_mem_statements hx with hsegment | ⟨first, hsegment, hopens, rest, rfl⟩
    · obtain ⟨ks, hks, hnone⟩ := hsegment.tokens_eq
      refine singleStatement_of_dropLast hlexed hfirst ?_
      rwa [tokens_trim, hks, List.dropLast_concat]
    · obtain ⟨w, v, ks, htokens, hw, hv⟩ := hsegment.tokens_of_opensBlock hopens
      have hmap := (Lexed.closed_of_ofText hlexed).2
      rw [tokens_trim, hsegment.terminated.tokens_append, htokens] at hmap
      rw [startsWith_of_tokens hmap hw hv] at hfirst
      cases hfirst

theorem singleStatement_iff_comments :
    isComplete "-- a;\nSELECT ';';/* b; */; \nquit;" ∧ SingleStatement "-- a;\nSELECT ';';" := by
  have hcomplete : isComplete "-- a;\nSELECT ';';/* b; */; \nquit;" := by decide +kernel
  obtain ⟨lexed, hlexed, hone⟩ :=
    singleStatement_iff hcomplete (s := "-- a;\nSELECT ';';") (by decide +kernel)
  have hfirst : (Lexed.ofText "-- a;\nSELECT ';';").toOption.all
      (fun lexed => !startsWith ["EXECUTE", "STATEMENT"] lexed.tokens) := by decide +kernel
  rw [hlexed] at hfirst
  exact ⟨hcomplete, (hone (Bool.not_eq_eq_eq_not.1 hfirst)).2 (by decide +kernel)⟩

/-- Both terminators are handed on with the command. -/
theorem command_with_two_terminators :
    isComplete "quit;;" ∧ split "quit;;" = ["quit;;"] ∧ ¬ SingleStatement "quit;;" ∧
      split "SELECT 1;;" = ["SELECT 1;", ";"] := by
  have hparse : Statement.parse "quit;;" = .error ⟨.severalStatements, ⟨⟨4, 1, 5⟩, 5⟩⟩ := by
    decide +kernel
  exact ⟨by decide +kernel, by decide +kernel, fun hone => hone.accepted _ hparse rfl,
    by decide +kernel⟩

end Script

end SqlConsole
