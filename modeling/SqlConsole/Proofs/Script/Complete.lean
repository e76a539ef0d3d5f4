import SqlConsole.Proofs.Text.Parts
import SqlConsole.Proofs.Script.Split
import SqlConsole.Proofs.Token.Lines
/-!
# Blank texts, blocks and script files

Whether a text is blank and whether a segment opens a block are decided on characters.  Here they
are told from the tokens: a text is blank exactly if it holds no token and no quoted text is open in
it (`isBlankText_iff`), and a segment that opens a block begins with the word `EXECUTE`
(`tokens_of_opensBlock`).  So a text that holds nothing but terminators is complete
(`isComplete_of_terminators`), and the formatted content of a script file holds the tokens of the
content, terminators aside (`substance_formatFile`).
-/

namespace SqlConsole

/-! ## Words -/

namespace Text

/-- Words are cut at every blank. -/
theorem words_append_cons {b : Char} (hb : isBlank b) (x y : Text) :
    words (x ++ b :: y) = words x ++ words y := by
  rw [words, fieldsBy_append_cons hb, List.filter_append]
  rfl

theorem words_cons {b : Char} (hb : isBlank b) (t : Text) : words (b :: t) = words t :=
  words_append_cons hb [] t

theorem words_trimStart (t : Text) : words (trimStart t) = words t := by
  induction t with
  | nil => rfl
  | cons c t ih =>
    rw [trimStart, List.dropWhile_cons]
    split
    · next hc => rw [words_cons hc, ← ih, trimStart]
    · rfl

theorem words_of_forall {w : Text} (hne : w ≠ []) (h : ∀ c ∈ w, isBlank c = false) :
    words w = [w] := by
  rw [words, fieldsBy_of_forall h]
  simp [hne]

/-- The first word of a text that begins with it ends in front of the first blank. -/
theorem words_eq_cons {t : Text} (hne : t ≠ []) (hstart : ∀ c ∈ t.head?, isBlank c = false) :
    words t = t.takeWhile (!isBlank ·) :: words (t.dropWhile (!isBlank ·)) := by
  have hsplit : t.takeWhile (!isBlank ·) ++ t.dropWhile (!isBlank ·) = t :=
    List.takeWhile_append_dropWhile
  have hword : ∀ c ∈ t.takeWhile (!isBlank ·), isBlank c = false := by
    intro c hc
    simpa using List.all_eq_true.1 List.all_takeWhile c hc
  have hfirst : t.takeWhile (!isBlank ·) ≠ [] := by
    cases t with
    | nil => exact (hne rfl).elim
    | cons c t => simp [hstart c rfl]
  cases hrest : t.dropWhile (!isBlank ·) with
  | nil =>
    rw [hrest, List.append_nil] at hsplit
    rw [hsplit] at hword hfirst ⊢
    rw [words_of_forall hfirst hword]
    rfl
  | cons b rest =>
    have hhead : b ∈ (t.dropWhile (!isBlank ·)).head? := by
      rw [hrest]
      rfl
    have hb : isBlank b := by
      simpa using head?_dropWhile hhead
    conv => lhs; rw [← hsplit, hrest]
    rw [words_append_cons hb, words_of_forall hfirst hword, words_cons hb]
    rfl

theorem exists_of_words_eq_cons {t w : Text} {ws : List Text}
    (hstart : ∀ c ∈ t.head?, isBlank c = false) (h : words t = w :: ws) :
    ∃ rest, t = w ++ rest ∧ (∀ c ∈ rest.head?, isBlank c) ∧ words rest = ws := by
  have hne : t ≠ [] := by
    rintro rfl
    cases h
  have hbreak : ∀ c ∈ (t.dropWhile (!isBlank ·)).head?, isBlank c := by
    intro c hc
    simpa using head?_dropWhile hc
  rw [words_eq_cons hne hstart] at h
  obtain ⟨rfl, hbehind⟩ := List.cons.inj h
  exact ⟨_, List.takeWhile_append_dropWhile.symm, hbreak, hbehind⟩

end Text

namespace Piece

/-- A piece that is neither blank nor the beginning of a comment is a token. -/
theorem exists_token?_of_read {c : Char} {r rest : Text} {p : Piece} (hblank : isBlank c = false)
    (hline : ¬ (c = '-' ∧ r.head? = some '-')) (hblock : ¬ (c = '/' ∧ r.head? = some '*'))
    (h : read c r = .ok (p, rest)) : ∃ k, p.token? = some k := by
  obtain ⟨hwf, -, htext⟩ := read_eq_ok_iff.1 h
  cases hwf with
  | blank hb =>
    obtain ⟨rfl, -⟩ := List.cons.inj htext
    rw [hblank] at hb
    cases hb
  | lineComment ht =>
    obtain ⟨rfl, rfl⟩ := List.cons.inj htext
    exact (hline ⟨rfl, rfl⟩).elim
  | blockComment hclose =>
    obtain ⟨rfl, rfl⟩ := List.cons.inj htext
    exact (hblock ⟨rfl, rfl⟩).elim
  | quoted | number | word | symbol => exact ⟨_, rfl⟩

/-- A word in front of what does not go on with it is the first token. -/
theorem tokens_word_append {c : Char} {w rest : Text} (hc : beginsWord c)
    (hblank : isBlank c = false) (hdigit : c.isDigit = false) (hw : ∀ d ∈ w, inWord d)
    (hrest : ∀ d ∈ rest.head?, inWord d = false) :
    tokens (c :: w ++ rest) = .word (c :: w) :: tokens rest := by
  have hseam : Seam (.token (.word (c :: w)) (c :: w)) rest := fun d hd => by
    simp [endsBefore, hrest d hd]
  have hread : read c (w ++ rest) = .ok (.token (.word (c :: w)) (c :: w), rest) :=
    read_eq_ok_iff.2 ⟨.word hblank hdigit hc hw, hseam, rfl⟩
  exact tokens_of_read hread

end Piece

namespace Script

open Piece

/-! ## Blank texts -/

/-- Behind the leading comments there is neither a blank nor another comment. -/
theorem begins_of_skipComments {t r : Text} {c : Char} (h : skipComments t = c :: r) :
    isBlank c = false ∧ ¬ (c = '-' ∧ r.head? = some '-') ∧ ¬ (c = '/' ∧ r.head? = some '*') := by
  fun_induction skipComments t with
  | case1 t rest htrim ih => exact ih h
  | case2 t rest htrim body after hclose ih => exact ih h
  | case3 => cases h
  | case4 t hline hblock =>
    refine ⟨?_, ?_, ?_⟩
    · refine Text.head?_dropWhile (t := t) ?_
      rw [show t.dropWhile isBlank = c :: r from h]
      rfl
    · rintro ⟨rfl, hr⟩
      obtain ⟨rest, rfl⟩ := List.head?_eq_some_iff.1 hr
      exact hline rest h
    · rintro ⟨rfl, hr⟩
      obtain ⟨rest, rfl⟩ := List.head?_eq_some_iff.1 hr
      exact hblock rest h

/-- A text is blank exactly if it holds no token and nothing but a comment is open in it. -/
theorem isBlankText_iff {t : Text} :
    isBlankText t ↔ tokens t = [] ∧ (fault? t = none ∨ fault? t = some .comment) := by
  refine ⟨tokens_of_isBlankText, ?_⟩
  rintro ⟨htokens, hfault⟩
  obtain ⟨hskip, hskip'⟩ := skipComments_spec t
  unfold isBlankText
  cases hrest : skipComments t with
  | nil => rfl
  | cons c r =>
    obtain ⟨hblank, hline, hblock⟩ := begins_of_skipComments hrest
    rw [hrest] at hskip hskip'
    cases hread : read c r with
    | ok found =>
      obtain ⟨k, hk⟩ := exists_token?_of_read hblank hline hblock hread
      rw [tokens_of_read hread, hk, htokens] at hskip
      cases hskip
    | error fault =>
      have hsame : fault? (c :: r) = fault? t := hskip'.resolve_right fun h => by cases h.1
      have hopen : fault? (c :: r) = some fault := by
        rw [fault?, cut_of_fault hread]
        rfl
      rcases read_eq_error_iff.1 hread with ⟨hq, -, rfl⟩ | ⟨rest, rfl, rfl, -⟩
      · rw [← hsame, hopen] at hfault
        rcases hq with rfl | rfl | rfl <;> rcases hfault with hfault | hfault <;> cases hfault
      · exact (hblock ⟨rfl, rfl⟩).elim

/-! ## Blocks -/

/-- The codes of the letters `A` to `Z` and `a` to `z`. -/
def letterCodes : List Nat := List.range' 65 26 ++ List.range' 97 26

theorem beginsWord_letters : ∀ n ∈ letterCodes, beginsWord (Char.ofNat n) ∧
    isBlank (Char.ofNat n) = false ∧ (Char.ofNat n).isDigit = false := by decide +kernel

/-- What becomes one of the letters `A` to `Z` begins words. -/
theorem beginsWord_of_toUpper {c : Char} (h : 'A' ≤ c.toUpper ∧ c.toUpper ≤ 'Z') :
    beginsWord c ∧ isBlank c = false ∧ c.isDigit = false := by
  have hcode : 65 ≤ c.toNat ∧ c.toNat ≤ 90 ∨ 97 ≤ c.toNat ∧ c.toNat ≤ 122 := by
    unfold Char.toUpper at h
    split at h
    · next hsmall => exact .inr (by simpa [UInt32.le_iff_toNat_le] using hsmall)
    · exact .inl (by simpa [Char.le_def, UInt32.le_iff_toNat_le] using h)
  have hmem : c.toNat ∈ letterCodes := by
    simp only [letterCodes, List.mem_append, List.mem_range'_1]
    omega
  have hletter := beginsWord_letters c.toNat hmem
  rwa [Char.ofNat_toNat] at hletter

/-- The letters of a word that is spelled in capitals. -/
theorem beginsWord_of_upper {keyword w : Text} (hletters : keyword.all Char.isUpper)
    (hw : Text.upper w = keyword) :
    ∀ c ∈ w, beginsWord c ∧ isBlank c = false ∧ c.isDigit = false := by
  intro c hc
  have hmem : c.toUpper ∈ keyword := by
    rw [← hw]
    exact List.mem_map_of_mem hc
  exact beginsWord_of_toUpper (of_decide_eq_true (List.all_eq_true.1 hletters c.toUpper hmem))

/-- A word of the letters `A` to `Z`, in any letter case, in front of what does not go on with
it. -/
theorem tokens_keyword_append {keyword w rest : Text} (hkeyword : keyword ≠ [])
    (hletters : keyword.all Char.isUpper) (hw : Text.upper w = keyword)
    (hrest : ∀ d ∈ rest.head?, inWord d = false) : tokens (w ++ rest) = .word w :: tokens rest := by
  have hletter := beginsWord_of_upper hletters hw
  cases w with
  | nil => exact (hkeyword hw.symm).elim
  | cons c w =>
    obtain ⟨hbegins, hblank, hdigit⟩ := hletter c List.mem_cons_self
    refine tokens_word_append hbegins hblank hdigit (fun d hd => ?_) hrest
    exact inWord_of_beginsWord (hletter d (List.mem_cons_of_mem c hd)).1

/-- The first word of a text that is spelled in capitals, terminators aside, is its first token.
Behind it stands a terminator, or what the other words are read from. -/
theorem tokens_of_words {keyword first t : Text} {others : List Text} (hkeyword : keyword ≠ [])
    (hletters : keyword.all Char.isUpper) (hstart : ∀ c ∈ t.head?, isBlank c = false)
    (hwords : Text.words t = first :: others)
    (hupper : Text.upper (Text.dropTerminators first) = keyword) :
    ∃ rest, t = Text.dropTerminators first ++ rest ∧
      tokens t = .word (Text.dropTerminators first) :: tokens rest ∧
      (rest.head? = some ';' ∨ Text.words rest = others) := by
  obtain ⟨rest, htext, hbreak, hothers⟩ := Text.exists_of_words_eq_cons hstart hwords
  have hsplit : Text.dropTerminators first ++ ((first.reverse.takeWhile (· == ';')).reverse ++ rest) =
      t := by
    rw [← List.append_assoc, Text.dropTerminators, Text.dropEndWhile_append, htext]
  cases hterminators : (first.reverse.takeWhile (· == ';')).reverse with
  | nil =>
    rw [hterminators, List.nil_append] at hsplit
    have hends : ∀ d ∈ rest.head?, inWord d = false := fun d hd => inWord_of_isBlank (hbreak d hd)
    have htokens := tokens_keyword_append hkeyword hletters hupper hends
    rw [hsplit] at htokens
    exact ⟨rest, hsplit.symm, htokens, .inr hothers⟩
  | cons e more =>
    rw [hterminators] at hsplit
    have hmem : e ∈ first.reverse.takeWhile (· == ';') :=
      List.mem_reverse.1 (by rw [hterminators]; exact List.mem_cons_self)
    have he : e = ';' := beq_iff_eq.1 (List.all_eq_true.1 List.all_takeWhile e hmem)
    have hends : ∀ d ∈ (e :: more ++ rest).head?, inWord d = false := by
      intro d hd
      obtain rfl : e = d := Option.some.inj hd
      rw [he]
      exact inWord_signs ';' (by decide)
    have htokens := tokens_keyword_append hkeyword hletters hupper hends
    rw [hsplit] at htokens
    exact ⟨e :: more ++ rest, hsplit.symm, htokens, .inl (congrArg some he)⟩

/-- The first words of a segment that opens a block. -/
theorem words_of_opensBlock {t : Text} (h : opensBlock t) :
    ∃ first second others, Text.words (skipComments t) = first :: second :: others ∧
      Text.upper (Text.dropTerminators first) = "EXECUTE" ∧
      Text.upper (Text.dropTerminators second) = "STATEMENT" := by
  have hwords : leadingWords 4 t = (["EXECUTE", "STATEMENT", "SET", "BEGIN"] : List Text) :=
    beq_iff_eq.1 h
  unfold leadingWords at hwords
  rcases hfound : Text.words (skipComments t) with _ | ⟨first, _ | ⟨second, others⟩⟩
  · rw [hfound] at hwords
    cases hwords
  · rw [hfound] at hwords
    have hnone := (List.cons.inj hwords).2
    cases hnone
  · rw [hfound] at hwords
    obtain ⟨hfirst, hrest⟩ := List.cons.inj hwords
    exact ⟨first, second, others, rfl, hfirst, (List.cons.inj hrest).1⟩

/-- A text that opens a block begins with the words `EXECUTE STATEMENT`, or a terminator stands behind
the first of several words. -/
theorem cases_of_opensBlock {t : Text} (h : opensBlock t) : ∃ w, Text.upper w = "EXECUTE" ∧
    ((∃ v ks, tokens t = .word w :: .word v :: ks ∧ Text.upper v = "STATEMENT") ∨
      ∃ rest, skipComments t = w ++ ';' :: rest ∧ 2 ≤ (Text.words (skipComments t)).length ∧
        tokens t = .word w :: .symbol ';' :: tokens rest) := by
  obtain ⟨first, second, others, hwords, hfirst, hsecond⟩ := words_of_opensBlock h
  have hstart : ∀ c ∈ (skipComments t).head?, isBlank c = false := by
    intro c hc
    obtain ⟨r, hr⟩ := List.head?_eq_some_iff.1 hc
    exact (begins_of_skipComments hr).1
  obtain ⟨rest, htext, htokens, hrest⟩ :=
    tokens_of_words (by simp) (by decide) hstart hwords hfirst
  rw [(skipComments_spec t).1] at htokens
  refine ⟨_, hfirst, ?_⟩
  rcases hrest with hterminator | hbehind
  · right
    obtain ⟨r, rfl⟩ := List.head?_eq_some_iff.1 hterminator
    have hread : read ';' r = .ok (.token (.symbol ';') [';'], r) := rfl
    rw [tokens_of_read hread] at htokens
    exact ⟨r, htext, by simp [hwords], htokens⟩
  · left
    have hstart' : ∀ c ∈ (Text.trimStart rest).head?, isBlank c = false :=
      fun c hc => Text.head?_dropWhile hc
    rw [← Text.words_trimStart] at hbehind
    obtain ⟨rest', -, htokens', -⟩ := tokens_of_words (by simp) (by decide) hstart' hbehind hsecond
    rw [(trimStart_spec rest).1] at htokens'
    rw [htokens'] at htokens
    exact ⟨_, _, htokens, hsecond⟩

/-- A segment that opens a block begins with the word `EXECUTE`, and no insertion follows. -/
theorem tokens_of_opensBlock {t : Text} (h : opensBlock t) :
    ∃ w k ks, tokens t = .word w :: k :: ks ∧ Text.upper w = "EXECUTE" ∧
      k.isKeyword "INSERT" = false := by
  obtain ⟨w, hw, ⟨v, ks, htokens, hv⟩ | ⟨rest, -, -, htokens⟩⟩ := cases_of_opensBlock h
  · refine ⟨w, .word v, ks, htokens, hw, beq_eq_false_iff_ne.2 ?_⟩
    rw [hv]
    decide
  · exact ⟨w, .symbol ';', tokens rest, htokens, hw, rfl⟩

/-- Segments none of which opens a block are statements. -/
theorem group_of_not_opensBlock {ss : List Text} (h : ∀ s ∈ ss, opensBlock s = false) :
    group none ss = ⟨ss, none⟩ := by
  induction ss with
  | nil => rfl
  | cons s ss ih =>
    have hs : opensBlock s = false := h s List.mem_cons_self
    have hgroup : group none ss = ⟨ss, none⟩ := ih fun u hu => h u (List.mem_cons_of_mem s hu)
    rw [group, if_neg (by simp [hs]), hgroup]

/-- What a text holds, told from its segments. -/
theorem ofText_eq {t : Text} {statements : List Text} {openBlock : Option Text}
    (h : group none (segments .plain t).ended = ⟨statements, openBlock⟩) :
    Scan.ofText t = ⟨statements, openBlock, (segments .plain t).rest, (fault? t).isSome⟩ := by
  have hscan : Scan.ofText t =
      ⟨(group none (segments .plain t).ended).statements,
        (group none (segments .plain t).ended).openBlock, (segments .plain t).rest,
        (Scan.ofText t).unterminated⟩ := rfl
  rw [hscan, unterminated_eq, h]

/-! ## Texts of terminators -/

/-- The tokens of a text besides terminators. -/
def substance (t : Text) : List Token := (tokens t).filter (· ≠ .symbol ';')

theorem mem_putFront_rest {p q : Piece} {found : List (List Piece) × List Piece}
    (h : p ∈ (putFront q found).2) : p = q ∨ p ∈ found.2 := by
  obtain ⟨done, rest⟩ := found
  cases done with
  | nil => exact List.mem_cons.1 h
  | cons => exact .inr h

theorem isTerminator_of_mem_parts {ps : List Piece} {p : Piece} (h : p ∈ (parts ps).2) :
    p.isTerminator = false := by
  induction ps with
  | nil => cases h
  | cons q ps ih =>
    rw [parts] at h
    cases hq : q.isTerminator with
    | true =>
      rw [if_pos hq] at h
      exact ih h
    | false =>
      rw [if_neg (by simp [hq])] at h
      rcases mem_putFront_rest h with rfl | h
      · exact hq
      · exact ih h

/-- Behind the last terminator there is none. -/
theorem substance_rest {t : Text} (h : Closed t) :
    substance (segments .plain t).rest = tokens (segments .plain t).rest := by
  refine List.filter_eq_self.2 fun k hk => ?_
  obtain ⟨region, -, hsegments⟩ := segments_eq t
  have hopen : (cut t).openText = [] := by rw [Cut.openText, h]
  have hparts : (cut t).pieces =
      (parts (cut t).pieces).1.flatten ++ (parts (cut t).pieces).2 ++ [] := by
    rw [List.append_nil, parts_flatten]
  have hrest : (segments .plain t).rest = (parts (cut t).pieces).2.flatMap text := by
    rw [hsegments, assemble, hopen, List.append_nil]
  rw [hrest, tokens, cut_of_pieces_eq_infix hparts] at hk
  obtain ⟨p, hp, htoken⟩ := List.mem_filterMap.1 hk
  have hplain : p.isTerminator = false := isTerminator_of_mem_parts hp
  cases p with
  | blank | comment => cases htoken
  | token found lexeme =>
    obtain rfl : found = k := Option.some.inj htoken
    simpa using fun heq : found = .symbol ';' => by simp [heq, isTerminator] at hplain

/-- A text that holds nothing but terminators and is not blank is complete. -/
theorem isComplete_of_terminators {t : Text} (hclosed : Closed t) (hnone : substance t = [])
    (hsplit : split t ≠ []) : isComplete t := by
  cases hbare : isBareCommand t with
  | true => simp [isComplete, hbare]
  | false =>
    have hended : ∀ s ∈ (segments .plain t).ended, Terminated s := fun _ => terminated_of_mem_ended
    obtain ⟨htokens, hfault⟩ := tokens_flatten_append hended (segments .plain t).rest
    rw [segments_flatten] at htokens hfault
    rw [substance, htokens, List.filter_append] at hnone
    obtain ⟨hstatements, hrest⟩ := List.append_eq_nil_iff.1 hnone
    have hplain : ∀ s ∈ (segments .plain t).ended, opensBlock s = false := by
      intro s hs
      cases hopens : opensBlock s with
      | false => rfl
      | true =>
        obtain ⟨w, _, _, hword, -⟩ := tokens_of_opensBlock hopens
        have hmem : Token.word w ∈ (segments .plain t).ended.flatMap tokens :=
          List.mem_flatMap.2 ⟨s, hs, by rw [hword]; exact List.mem_cons_self⟩
        have hnot := List.filter_eq_nil_iff.1 hstatements _ hmem
        simp at hnot
    have hblank : isBlankText (segments .plain t).rest := by
      refine isBlankText_iff.2 ⟨?_, .inl ?_⟩
      · rw [← substance_rest hclosed]
        exact hrest
      · rw [← hfault]
        exact closed_iff.1 hclosed
    have hscan := ofText_eq (group_of_not_opensBlock hplain)
    rw [closed_iff.1 hclosed] at hscan
    have hnonempty : (segments .plain t).ended ≠ [] := by
      intro hnil
      refine hsplit ?_
      rw [split_eq, hbare, hscan, Scan.tail, hnil]
      simp [hblank]
    simp [isComplete, hscan, hblank, hnonempty]

/-! ## Script files -/

theorem separates_terminator : Separates ';' where
  quote := by simp [IsQuote]
  slash := by decide
  dash := by decide
  star := by decide
  number := inNumber_signs ';' (by decide)
  word := inWord_signs ';' (by decide)

theorem tokens_terminator : tokens [';'] = [.symbol ';'] ∧ fault? [';'] = none := by
  have hread : read ';' [] = .ok (.token (.symbol ';') [';'], []) := rfl
  rw [tokens_of_read hread, fault?_of_read hread]
  exact ⟨by simp [token?], fault?_nil⟩

/-- A terminator behind a text is not much of it, and leaves open what is open. -/
theorem substance_concat_terminator (t : Text) :
    substance (t ++ [';']) = substance t ∧ fault? (t ++ [';']) = fault? t := by
  unfold substance
  rcases concat_cases separates_terminator t with ⟨htokens, hfault⟩ | ⟨hclosed, htokens, hfault⟩
  · exact ⟨by rw [htokens], hfault⟩
  · rw [htokens, hfault, tokens_terminator.1, tokens_terminator.2, closed_iff.1 hclosed]
    simp

/-- The formatted content of a file holds the tokens of the content, terminators aside. -/
theorem substance_formatFile (content : Text) :
    substance (formatFile content) = substance content ∧
      fault? (formatFile content) = fault? content := by
  have hformat (t : Text) : substance (t ++ ['\n']) = substance t ∧
      fault? (t ++ ['\n']) = fault? t := by
    obtain ⟨htokens, hfault⟩ := concat_of_isBlank isBlank_newline t
    exact ⟨by rw [substance, htokens, substance], hfault⟩
  have htrim : substance (Text.trim content) = substance content := by
    rw [substance, tokens_trim, substance]
  unfold formatFile
  rw [(hformat _).1, (hformat _).2]
  split
  · rw [List.append_nil, htrim, fault?_trim]
    exact ⟨rfl, rfl⟩
  · obtain ⟨hsubstance, hsame⟩ := substance_concat_terminator (Text.trim content)
    rw [hsubstance, hsame, htrim, fault?_trim]
    exact ⟨rfl, rfl⟩

end Script

end SqlConsole
