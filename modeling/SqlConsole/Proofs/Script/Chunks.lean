import SqlConsole.Proofs.Script.Blocks
/-!
# How a text is split, told from its tokens

Whether a text is split at a terminator is decided on characters: by the words of a segment, which
may open a block, and by whether the text is a single command.  Where none of the statements is
foreign to a block of insertions (`Foreign`), neither plays a part: the statements of a text are its
tokens up to each terminator (`map_tokens_split`), and any other text with these tokens is split
alike (`map_tokens_split_eq`).
-/

namespace SqlConsole.Script

open Piece

/-! ## Tokens up to each terminator -/

/-- Tokens put together up to each terminator, and those that follow the last one. -/
def chunks : List Token → List (List Token) × List Token
  | [] => ([], [])
  | k :: ks =>
    if k = .symbol ';' then ([k] :: (chunks ks).1, (chunks ks).2)
    else match chunks ks with
      | ([], rest) => ([], k :: rest)
      | (chunk :: others, rest) => ((k :: chunk) :: others, rest)

/-- The tokens of pieces that are put together up to each terminator. -/
theorem chunks_filterMap (ps : List Piece) : chunks (ps.filterMap token?) =
    ((parts ps).1.map (·.filterMap token?), (parts ps).2.filterMap token?) := by
  induction ps with
  | nil => rfl
  | cons p ps ih =>
    cases hp : p.isTerminator with
    | true =>
      have htoken : p.token? = some (.symbol ';') := isTerminator_iff.1 hp
      rw [parts, if_pos hp, List.filterMap_cons, htoken]
      simp [chunks, ih, htoken]
    | false =>
      rw [parts, if_neg (by simp [hp]), List.filterMap_cons]
      cases htoken : p.token? with
      | none =>
        rcases hfound : parts ps with ⟨_ | ⟨part, others⟩, rest⟩
        · simp [ih, hfound, putFront, htoken]
        · simp [ih, hfound, putFront, htoken]
      | some k =>
        have hk : k ≠ .symbol ';' := by
          intro heq
          rw [heq, ← isTerminator_iff, hp] at htoken
          cases htoken
        rcases hfound : parts ps with ⟨_ | ⟨part, others⟩, rest⟩
        · simp [chunks, hk, ih, hfound, putFront, htoken]
        · simp [chunks, hk, ih, hfound, putFront, htoken]

/-- The segments of a closed text hold its tokens up to each terminator. -/
theorem tokens_segments {t : Text} (h : Closed t) :
    (segments .plain t).ended.map tokens = (chunks (tokens t)).1 ∧
      tokens (segments .plain t).rest = (chunks (tokens t)).2 := by
  obtain ⟨region, -, hsegments⟩ := segments_eq t
  have hopen : (cut t).openText = [] := by rw [Cut.openText, h]
  have hinfix (before : List Piece) {part : List Piece} (behind : List Piece)
      (hparts : before ++ part ++ behind = (cut t).pieces) :
      tokens (part.flatMap text) = part.filterMap token? := by
    rw [tokens, cut_of_pieces_eq_infix hparts.symm]
  have hrest : tokens ((parts (cut t).pieces).2.flatMap text) =
      (parts (cut t).pieces).2.filterMap token? :=
    hinfix _ [] (by rw [List.append_nil, parts_flatten])
  have hended : ∀ part ∈ (parts (cut t).pieces).1,
      tokens (part.flatMap text) = part.filterMap token? := by
    intro part hpart
    obtain ⟨before, behind, hparts⟩ := List.append_of_mem hpart
    refine hinfix before.flatten (behind.flatten ++ (parts (cut t).pieces).2) ?_
    conv => rhs; rw [← parts_flatten (cut t).pieces, hparts]
    simp
  have hchunks : chunks (tokens t) = _ := chunks_filterMap (cut t).pieces
  rw [hsegments, assemble, hopen, List.append_nil, hchunks]
  refine ⟨?_, hrest⟩
  rw [List.map_map]
  exact List.map_congr_left hended

/-! ## Statements that are foreign to a block -/

/-- Tokens that no insertion begins with, alone or behind `EXECUTE`: a word other than `INSERT`,
which does not follow it either. -/
def Foreign (ks : List Token) : Prop :=
  ∃ w rest, ks = .word w :: rest ∧ Text.upper w ≠ "INSERT" ∧
    ∀ k ∈ rest.head?, k.isKeyword "INSERT" = false

/-- Where texts behind each other begin in a foreign way, one of them does. -/
theorem exists_foreign_of_flatMap {ss : List Text} (h : Foreign (ss.flatMap tokens)) :
    ∃ s ∈ ss, Foreign (tokens s) := by
  induction ss with
  | nil =>
    obtain ⟨w, rest, heq, -⟩ := h
    cases heq
  | cons s ss ih =>
    rw [List.flatMap_cons] at h
    cases hs : tokens s with
    | nil =>
      rw [hs, List.nil_append] at h
      obtain ⟨u, hu, hforeign⟩ := ih h
      exact ⟨u, List.mem_cons_of_mem s hu, hforeign⟩
    | cons k ks =>
      rw [hs, List.cons_append] at h
      obtain ⟨w, rest, heq, hw, hsecond⟩ := h
      obtain ⟨rfl, rfl⟩ := List.cons.inj heq
      refine ⟨s, List.mem_cons_self, w, ks, hs, hw, fun k hk => hsecond k ?_⟩
      rw [List.head?_append, Option.mem_def.1 hk]
      rfl

/-- A segment that opens a block is foreign, whatever follows it. -/
theorem foreign_of_opensBlock {s : Text} (h : opensBlock s) (ks : List Token) :
    Foreign (tokens s ++ ks) := by
  obtain ⟨w, k, rest, htokens, hupper, hk⟩ := tokens_of_opensBlock h
  refine ⟨w, k :: rest ++ ks, by rw [htokens]; rfl, ?_, ?_⟩
  · rw [hupper]
    decide
  · intro second hsecond
    obtain rfl : k = second := Option.some.inj hsecond
    exact hk

/-- A single command of the client is a word, with blanks and then terminators behind it. -/
theorem exists_word_of_isBareCommand {t : Text} (h : isBareCommand t) :
    ∃ cmd ∈ bareCommands, ∃ w blanks n, Text.trim t = w ++ (blanks ++ List.replicate n ';') ∧
      Text.upper w = Text.upper cmd ∧ ∀ c ∈ blanks, isBlank c := by
  obtain ⟨cmd, hcmd, hsame⟩ := List.any_eq_true.1 h
  have hstart : ∀ c ∈ (Text.dropTerminators (Text.trim t)).head?, isBlank c = false :=
    fun c hc => Text.head?_trim (Text.head?_dropEndWhile hc)
  have hword : Text.trim (Text.dropTerminators (Text.trim t)) =
      Text.dropEndWhile isBlank (Text.dropTerminators (Text.trim t)) := by
    rw [Text.trim, Text.dropAround, Text.dropWhile_eq_self hstart]
  have hends : ((Text.trim t).reverse.takeWhile (· == ';')).reverse =
      List.replicate ((Text.trim t).reverse.takeWhile (· == ';')).length ';' := by
    refine List.eq_replicate_iff.2 ⟨List.length_reverse, fun c hc => ?_⟩
    exact beq_iff_eq.1 (List.all_eq_true.1 List.all_takeWhile c (List.mem_reverse.1 hc))
  refine ⟨cmd, hcmd, Text.trim (Text.dropTerminators (Text.trim t)),
    ((Text.dropTerminators (Text.trim t)).reverse.takeWhile isBlank).reverse,
    ((Text.trim t).reverse.takeWhile (· == ';')).length, ?_, beq_iff_eq.1 hsame, fun c hc => ?_⟩
  · rw [hword, ← hends, ← List.append_assoc, Text.dropEndWhile_append, Text.dropTerminators,
      Text.dropEndWhile_append]
  · exact List.all_eq_true.1 List.all_takeWhile c (List.mem_reverse.1 hc)

/-- The commands of the client are spelled with letters, and none of them is `INSERT`. -/
theorem upper_of_mem_bareCommands : ∀ cmd ∈ bareCommands, Text.upper cmd ≠ [] ∧
    (Text.upper cmd).all Char.isUpper ∧ Text.upper cmd ≠ "INSERT" := by decide

theorem tokens_terminators (n : Nat) :
    tokens (List.replicate n ';') = List.replicate n (.symbol ';') := by
  induction n with
  | zero => rw [List.replicate_zero, tokens_nil, List.replicate_zero]
  | succ n ih =>
    have hread : read ';' (List.replicate n ';') =
        .ok (.token (.symbol ';') [';'], List.replicate n ';') := rfl
    rw [List.replicate_succ, tokens_of_read hread, ih, List.replicate_succ]
    rfl

/-- The tokens of a single command of the client are a word and the terminators at its end. -/
theorem tokens_of_isBareCommand {t : Text} (h : isBareCommand t) :
    ∃ cmd ∈ bareCommands, ∃ w front n, Text.upper w = Text.upper cmd ∧
      Text.trim t = front ++ List.replicate n ';' ∧ ';' ∉ front ∧
      tokens t = .word w :: List.replicate n (.symbol ';') := by
  obtain ⟨cmd, hcmd, w, blanks, n, htrim, hupper, hblanks⟩ := exists_word_of_isBareCommand h
  obtain ⟨hne, hletters, -⟩ := upper_of_mem_bareCommands cmd hcmd
  have hletter := beginsWord_of_upper hletters hupper
  have hends : ∀ d ∈ (blanks ++ List.replicate n ';').head?, inWord d = false := by
    intro d hd
    rcases List.mem_append.1 (List.mem_of_mem_head? hd) with hd | hd
    · exact inWord_of_isBlank (hblanks d hd)
    · rw [List.eq_of_mem_replicate hd]
      exact inWord_signs ';' (by decide)
  have htokens := tokens_keyword_append hne hletters hupper hends
  rw [← htrim, tokens_trim, (blanks_append hblanks _).1, tokens_terminators] at htokens
  refine ⟨cmd, hcmd, w, w ++ blanks, n, hupper, by rw [List.append_assoc, htrim], fun hmem => ?_,
    htokens⟩
  rcases List.mem_append.1 hmem with hmem | hmem
  · have hbegins := (hletter ';' hmem).1
    revert hbegins
    decide
  · have hblank := hblanks ';' hmem
    revert hblank
    decide

theorem foreign_of_isBareCommand {t : Text} (h : isBareCommand t) : Foreign (tokens t) := by
  obtain ⟨cmd, hcmd, w, -, n, hupper, -, -, htokens⟩ := tokens_of_isBareCommand h
  obtain ⟨-, -, hinsert⟩ := upper_of_mem_bareCommands cmd hcmd
  refine ⟨w, List.replicate n (.symbol ';'), htokens, hupper ▸ hinsert, fun k hk => ?_⟩
  rw [List.eq_of_mem_replicate (List.mem_of_mem_head? hk)]
  rfl

/-! ## Segments that are put together -/

/-- An open block grows at its end, until it is closed or the text is over. -/
theorem exists_of_group_some (block : Text) (ss : List Text) :
    ∃ x, (x ∈ (group (some block) ss).statements ∨ (group (some block) ss).openBlock = some x) ∧
      block <+: x := by
  induction ss generalizing block with
  | nil => exact ⟨block, .inr rfl, List.prefix_rfl⟩
  | cons s ss ih =>
    rw [group]
    dsimp only
    split
    · exact ⟨block ++ s, .inl List.mem_cons_self, List.prefix_append _ _⟩
    · obtain ⟨x, hx, hprefix⟩ := ih (block ++ s)
      exact ⟨x, hx, (List.prefix_append _ _).trans hprefix⟩

/-- Where a segment opens a block, what is put together begins with such a segment. -/
theorem exists_of_group_none {s : Text} {ss : List Text} (hs : s ∈ ss) (hopens : opensBlock s) :
    ∃ x first, (x ∈ (group none ss).statements ∨ (group none ss).openBlock = some x) ∧
      first ∈ ss ∧ opensBlock first ∧ first <+: x := by
  induction ss with
  | nil => cases hs
  | cons u ss ih =>
    rw [group]
    split
    · next hbegins =>
      rw [Bool.and_eq_true] at hbegins
      obtain ⟨x, hx, hprefix⟩ := exists_of_group_some u ss
      exact ⟨x, u, hx, List.mem_cons_self, hbegins.1, hprefix⟩
    · dsimp only
      by_cases hu : opensBlock u
      · exact ⟨u, u, .inl List.mem_cons_self, List.mem_cons_self, hu, List.prefix_rfl⟩
      · have hmem : s ∈ ss := by
          rcases List.mem_cons.1 hs with rfl | hs
          · exact (hu hopens).elim
          · exact hs
        obtain ⟨x, first, hx, hfirst, hbegins, hprefix⟩ := ih hmem
        exact ⟨x, first, hx.imp_left (List.mem_cons_of_mem u), List.mem_cons_of_mem u hfirst,
          hbegins, hprefix⟩

/-! ## Texts without foreign statements -/

/-- None of the statements of a text is foreign. -/
def Homely (t : Text) : Prop := ∀ s ∈ split t, ¬ Foreign (tokens s)

namespace Homely

variable {t u : Text}

theorem isBareCommand_eq_false (h : Homely t) (htokens : tokens u = tokens t) :
    isBareCommand u = false := by
  cases hbare : isBareCommand u with
  | false => rfl
  | true =>
    have hforeign := foreign_of_isBareCommand hbare
    rw [htokens, ← flatMap_tokens_split] at hforeign
    obtain ⟨s, hs, hs'⟩ := exists_foreign_of_flatMap hforeign
    exact (h s hs hs').elim

/-- No segment opens a block: what it would begin is a statement. -/
theorem opensBlock_eq_false (h : Homely t) : ∀ s ∈ (segments .plain t).ended,
    opensBlock s = false := by
  intro s hs
  cases hopens : opensBlock s with
  | false => rfl
  | true =>
    exfalso
    obtain ⟨x, first, hx, hfirst, hbegins, r, rfl⟩ := exists_of_group_none hs hopens
    have htokens (more : Text) : Foreign (tokens (Text.trim (first ++ r ++ more))) := by
      rw [tokens_trim, List.append_assoc, (terminated_of_mem_ended hfirst).tokens_append]
      exact foreign_of_opensBlock hbegins _
    have hsplit := split_eq t
    rw [h.isBareCommand_eq_false rfl, if_neg Bool.false_ne_true] at hsplit
    rcases hx with hx | hx
    · refine h (Text.trim (first ++ r)) ?_ (by simpa using htokens [])
      rw [hsplit]
      exact List.mem_append_left _ (List.mem_map_of_mem hx)
    · have htail : (Scan.ofText t).tail = first ++ r ++ (Scan.ofText t).rest := by
        rw [Scan.tail, show (Scan.ofText t).openBlock = some (first ++ r) from hx]
        rfl
      have hblank : ¬ isBlankText (Scan.ofText t).tail := by
        intro hblank
        obtain ⟨w, rest, hword, -⟩ := htokens (Scan.ofText t).rest
        rw [← htail, tokens_trim, (tokens_of_isBlankText hblank).1] at hword
        cases hword
      refine h (Text.trim (Scan.ofText t).tail) ?_ (htail ▸ htokens _)
      rw [hsplit, if_neg hblank]
      exact List.mem_append_right _ List.mem_cons_self

end Homely

/-- Where no segment opens a block, the statements are the segments. -/
theorem map_tokens_split {t : Text} (h : Closed t) (hbare : isBareCommand t = false)
    (hopens : ∀ s ∈ (segments .plain t).ended, opensBlock s = false) :
    (split t).map tokens = (chunks (tokens t)).1 ++
      if (chunks (tokens t)).2 = [] then [] else [(chunks (tokens t)).2] := by
  obtain ⟨hended, hrest⟩ := tokens_segments h
  have hscan := ofText_eq (group_of_not_opensBlock hopens)
  have hblank : isBlankText (segments .plain t).rest ↔ tokens (segments .plain t).rest = [] := by
    have hclosed : fault? (segments .plain t).rest = none := by
      have hfault := (tokens_scan t).2
      rw [hscan, Scan.tail] at hfault
      exact hfault.trans (closed_iff.1 h)
    rw [isBlankText_iff]
    exact ⟨fun hnone => hnone.1, fun hnone => ⟨hnone, .inl hclosed⟩⟩
  have htrim : tokens ∘ Text.trim = tokens := funext tokens_trim
  rw [split_eq, hbare, if_neg Bool.false_ne_true, hscan, Scan.tail, ← hended, ← hrest]
  dsimp only
  rw [Option.getD_none, List.nil_append, List.map_append, List.map_map, htrim]
  by_cases hnone : tokens (segments .plain t).rest = []
  · rw [if_pos (hblank.2 hnone), if_pos hnone]
    rfl
  · rw [if_neg (fun hblank' => hnone (hblank.1 hblank')), if_neg hnone, List.map_singleton,
      tokens_trim]

/-- **Texts with the same tokens are split alike**, if no statement of one of them is foreign. -/
theorem map_tokens_split_eq {t u : Text} (ht : Closed t) (hu : Closed u)
    (htokens : tokens u = tokens t) (h : Homely t) : (split u).map tokens = (split t).map tokens := by
  -- A segment of `u` that opens a block has the tokens of a segment of `t`, which is a statement there.
  have hopens : ∀ s ∈ (segments .plain u).ended, opensBlock s = false := by
    intro s hs
    cases hopens : opensBlock s with
    | false => rfl
    | true =>
      have hmem : tokens s ∈ (segments .plain t).ended.map tokens := by
        rw [(tokens_segments ht).1, ← htokens, ← (tokens_segments hu).1]
        exact List.mem_map_of_mem hs
      have hstatement : tokens s ∈ (split t).map tokens := by
        rw [map_tokens_split ht (h.isBareCommand_eq_false rfl) h.opensBlock_eq_false,
          ← (tokens_segments ht).1]
        exact List.mem_append_left _ hmem
      obtain ⟨s', hs', hsame⟩ := List.mem_map.1 hstatement
      have hforeign := foreign_of_opensBlock hopens []
      rw [List.append_nil, ← hsame] at hforeign
      exact (h s' hs' hforeign).elim
  rw [map_tokens_split ht (h.isBareCommand_eq_false rfl) h.opensBlock_eq_false,
    map_tokens_split hu (h.isBareCommand_eq_false htokens) hopens, htokens]

end SqlConsole.Script
