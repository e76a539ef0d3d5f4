import SqlConsole.Proofs.Script.Blocks
/-!
# Splitting a statement again

The statements of a text are its segments and its closed blocks.  What `group` finds it finds again
from the segments that made it (`exists_group_of_mem_parts`), and these are the segments of the
statement by itself.  So a statement is the only statement of its own text
(`statements_of_mem_statements`), and what follows the statements holds none (`statements_tail`).

Trimming changes nothing about that.  A blank in front of a text goes to its first statement
(`statements_cons_of_isBlank`), and one behind it to what follows the statements
(`statements_concat_of_isBlank`).  Together, splitting cuts a text into parts that no further
splitting cuts (`split_partitions`).
-/

namespace SqlConsole

namespace Text

/-- Dropping from the end comes to the first character when everything behind it is dropped. -/
theorem dropEndWhile_cons (p : Char → Bool) (c : Char) (t : Text) :
    dropEndWhile p (c :: t) =
      if dropEndWhile p t = [] then if p c then [] else [c] else c :: dropEndWhile p t := by
  split
  · next hnil =>
    have hdrop : t.reverse.dropWhile p = [] := List.reverse_eq_nil_iff.1 hnil
    rw [dropEndWhile, List.reverse_cons, List.dropWhile_append, hdrop, List.isEmpty_nil, if_pos rfl,
      List.dropWhile_cons]
    split <;> rfl
  · next hne => exact dropEndWhile_append_of_ne_nil hne [c]

/-- Trimming takes blanks from both ends. -/
theorem exists_eq_trim (t : Text) : ∃ front back, t = front ++ (trim t ++ back) ∧
    (∀ b ∈ front, isBlank b) ∧ ∀ b ∈ back, isBlank b := by
  refine ⟨t.takeWhile isBlank, ((t.dropWhile isBlank).reverse.takeWhile isBlank).reverse,
    ?_, ?_, ?_⟩
  · rw [trim, dropAround, dropEndWhile_append, List.takeWhile_append_dropWhile]
  · exact fun b hb => List.all_eq_true.1 List.all_takeWhile b hb
  · exact fun b hb => List.all_eq_true.1 List.all_takeWhile b (List.mem_reverse.1 hb)

end Text

namespace Script

open Piece

/-! ## What the grouping finds -/

/-- The statements of a grouping and its open block, each as the grouping that holds nothing
else. -/
def Grouped.parts (g : Grouped) : List Grouped :=
  g.statements.map (fun s => ⟨[s], none⟩) ++ g.openBlock.toList.map fun b => ⟨[], some b⟩

theorem Grouped.parts_cons (s : Text) (g : Grouped) :
    Grouped.parts { g with statements := s :: g.statements } = ⟨[s], none⟩ :: g.parts := rfl

/-- Every part is found again from some of the segments, and either from the block that was open
at first or from none. -/
theorem exists_group_of_mem_parts {block : Option Text} {ss : List Text} {part : Grouped}
    (h : part ∈ (group block ss).parts) :
    ∃ start us, (start = none ∨ start = block) ∧ us ⊆ ss ∧ group start us = part := by
  fun_induction group block ss with
  | case1 block =>
    cases block with
    | none => cases h
    | some b => exact ⟨some b, [], .inr rfl, List.Subset.refl [], (List.mem_singleton.1 h).symm⟩
  | case2 block s rest block' hclosed tail ih =>
    rw [Grouped.parts_cons] at h
    rcases List.mem_cons.1 h with rfl | h
    · exact ⟨some block, [s], .inr rfl, by simp, by simp [group, hclosed, block']⟩
    · obtain ⟨start, us, hstart, hus, hgroup⟩ := ih h
      exact ⟨start, us, .inl (or_self_iff.1 hstart), List.subset_cons_of_subset s hus, hgroup⟩
  | case3 block s rest block' hclosed ih =>
    obtain ⟨start, us, rfl | rfl, hus, hgroup⟩ := ih h
    · exact ⟨none, us, .inl rfl, List.subset_cons_of_subset s hus, hgroup⟩
    · refine ⟨some block, s :: us, .inr rfl, List.cons_subset_cons s hus, ?_⟩
      rw [group, if_neg hclosed]
      exact hgroup
  | case4 s rest hopen ih =>
    obtain ⟨start, us, rfl | rfl, hus, hgroup⟩ := ih h
    · exact ⟨none, us, .inl rfl, List.subset_cons_of_subset s hus, hgroup⟩
    · refine ⟨none, s :: us, .inl rfl, List.cons_subset_cons s hus, ?_⟩
      rw [group, if_pos hopen]
      exact hgroup
  | case5 s rest hopen tail ih =>
    rw [Grouped.parts_cons] at h
    rcases List.mem_cons.1 h with rfl | h
    · exact ⟨none, [s], .inl rfl, by simp, by rw [group, if_neg hopen]; rfl⟩
    · obtain ⟨start, us, hstart, hus, hgroup⟩ := ih h
      exact ⟨start, us, .inl (or_self_iff.1 hstart), List.subset_cons_of_subset s hus, hgroup⟩

/-- A part is made of segments of the text, and it is what they make by themselves. -/
theorem exists_segments_of_mem_parts {t : Text} {part : Grouped}
    (h : part ∈ (group none (segments .plain t).ended).parts) :
    ∃ us, (∀ s ∈ us, IsSegment s) ∧ group none us = part := by
  obtain ⟨start, us, hstart, hus, hgroup⟩ := exists_group_of_mem_parts h
  obtain rfl := or_self_iff.1 hstart
  exact ⟨us, fun s hs => exists_of_mem_ended (hus hs), hgroup⟩

/-! ## Statements by themselves -/

/-- What follows the last terminator has no terminator. -/
theorem ended_rest (t : Text) : (segments .plain (segments .plain t).rest).ended = [] := by
  have hended := (segments_flatten_append (fun s hs => exists_of_mem_ended (t := t) hs)
    (segments .plain t).rest).1
  rw [segments_flatten] at hended
  exact List.self_eq_append_right.1 hended

/-- The statements of some segments in front of a text without terminators. -/
theorem statements_flatten_append {us : List Text} (h : ∀ s ∈ us, IsSegment s) {t : Text}
    (ht : (segments .plain t).ended = []) :
    (Scan.ofText (us.flatten ++ t)).statements = (group none us).statements := by
  have hended := (segments_flatten_append h t).1
  rw [ht, List.append_nil] at hended
  show (group none (segments .plain (us.flatten ++ t)).ended).statements = _
  rw [hended]

/-- A statement is the only statement of its text. -/
theorem statements_of_mem_statements {t u : Text} (h : u ∈ (Scan.ofText t).statements) :
    (Scan.ofText u).statements = [u] := by
  have hpart : ⟨[u], none⟩ ∈ (group none (segments .plain t).ended).parts :=
    List.mem_append_left _ (List.mem_map_of_mem h)
  obtain ⟨us, hus, hgroup⟩ := exists_segments_of_mem_parts hpart
  have htext : us.flatten = u := by
    have hflatten := group_flatten none us
    rw [hgroup] at hflatten
    simpa using hflatten.symm
  have hstatements := statements_flatten_append (t := []) hus rfl
  rwa [List.append_nil, htext, hgroup] at hstatements

/-- What follows the statements of a text holds none. -/
theorem statements_tail (t : Text) : (Scan.ofText (Scan.ofText t).tail).statements = [] := by
  have hrest : (segments .plain (Scan.ofText t).rest).ended = [] := ended_rest t
  cases hopen : (Scan.ofText t).openBlock with
  | none =>
    have hnone : ∀ s ∈ ([] : List Text), IsSegment s := fun s hs => by cases hs
    have hstatements := statements_flatten_append hnone hrest
    rw [Scan.tail, hopen]
    exact hstatements
  | some b =>
    have hpart : ⟨[], some b⟩ ∈ (group none (segments .plain t).ended).parts := by
      refine List.mem_append_right _ (List.mem_map_of_mem ?_)
      exact Option.mem_toList.2 hopen
    obtain ⟨us, hus, hgroup⟩ := exists_segments_of_mem_parts hpart
    have htext : us.flatten = b := by
      have hflatten := group_flatten none us
      rw [hgroup] at hflatten
      simpa using hflatten.symm
    have hstatements := statements_flatten_append hus hrest
    rw [htext, hgroup] at hstatements
    rw [Scan.tail, hopen]
    exact hstatements

/-- A text that is its only statement has nothing behind it. -/
theorem tail_eq_nil {u : Text} (h : (Scan.ofText u).statements = [u]) :
    (Scan.ofText u).openBlock = none ∧ (Scan.ofText u).rest = [] := by
  have htext := text_eq_scan u
  rw [h, List.flatten_singleton] at htext
  have htail : (Scan.ofText u).tail = [] := List.append_right_eq_self.1 htext
  obtain ⟨hblock, hrest⟩ := List.append_eq_nil_iff.1 htail
  refine ⟨?_, hrest⟩
  cases hopen : (Scan.ofText u).openBlock with
  | none => rfl
  | some b =>
    -- an open block ends with a terminator, so it is not empty
    obtain ⟨ps, hcut⟩ := (terminated_of_scan u).2 b hopen
    rw [hopen] at hblock
    obtain rfl : b = [] := hblock
    rw [cut_nil] at hcut
    simp at hcut

/-! ## Blanks around a text -/

theorem segments_cons_of_isBlank {b : Char} (hb : isBlank b) (t : Text) :
    segments .plain (b :: t) = (segments .plain t).cons b := by
  have hplain : ∀ c ∈ [b], c ∉ signs := by
    intro c hc
    rw [List.mem_singleton.1 hc]
    exact not_mem_signs isBlank_signs hb
  exact runs_plain hplain t

theorem skipComments_cons {b : Char} (hb : isBlank b) (t : Text) :
    skipComments (b :: t) = skipComments t := by
  have htrim : Text.trimStart (b :: t) = Text.trimStart t := List.dropWhile_cons_of_pos hb
  rw [skipComments.eq_def, skipComments.eq_def t, htrim]

theorem opensBlock_cons {b : Char} (hb : isBlank b) (t : Text) :
    opensBlock (b :: t) = opensBlock t := by
  rw [opensBlock, leadingWords, skipComments_cons hb, opensBlock, leadingWords]

theorem ne_terminator_of_isBlank {b : Char} (hb : isBlank b) : b ≠ ';' := by
  rintro rfl
  exact absurd hb (by decide)

theorem trimEnd_cons {b : Char} (hb : isBlank b) (t : Text) :
    Text.trimEnd (b :: t) = if Text.trimEnd t = [] then [] else b :: Text.trimEnd t := by
  rw [Text.trimEnd, Text.dropEndWhile_cons, if_pos hb]
  rfl

theorem dropTerminators_cons {c : Char} (hc : c ≠ ';') (t : Text) :
    Text.dropTerminators (c :: t) = c :: Text.dropTerminators t := by
  have hkeep : (c == ';') = false := beq_eq_false_iff_ne.2 hc
  rw [Text.dropTerminators, Text.dropEndWhile_cons, hkeep]
  split
  · next hnil => rw [Text.dropTerminators, hnil]; rfl
  · rfl

/-- A blank stays in front of what is left of a text, if anything is. -/
theorem bare_cons {b : Char} (hb : isBlank b) (t : Text) :
    bare (b :: t) = if bare t = [] then [] else b :: bare t := by
  rw [bare, trimEnd_cons hb]
  split
  · next hnil =>
    have hbare : bare t = [] := by
      rw [bare, hnil]
      rfl
    rw [if_pos hbare]
    rfl
  · rw [dropTerminators_cons (ne_terminator_of_isBlank hb), trimEnd_cons hb, bare]

theorem closesBlock_eq_false_of_length {t : Text} (h : (bare t).length < 3) :
    closesBlock t = false := by
  unfold closesBlock
  split
  · next d n e before heq =>
    have hlength := congrArg List.length heq
    change (bare t).reverse.length = _ at hlength
    rw [List.length_reverse, List.length_cons, List.length_cons, List.length_cons] at hlength
    omega
  · rfl

theorem closesBlock_cons {b : Char} (hb : isBlank b) (t : Text) :
    closesBlock (b :: t) = closesBlock t := by
  have hbare := bare_cons hb t
  match hreverse : (bare t).reverse with
  | d :: n :: e :: before =>
    have hne : bare t ≠ [] := by
      intro hnil
      rw [hnil] at hreverse
      cases hreverse
    have hreverse' : (bare (b :: t)).reverse = d :: n :: e :: (before ++ [b]) := by
      rw [hbare, if_neg hne, List.reverse_cons, hreverse]
      rfl
    rw [closesBlock_of_reverse hreverse, closesBlock_of_reverse hreverse']
    cases before with
    | nil => simp [hb]
    | cons c before => rfl
  | [d, n] =>
    -- a blank and two letters are not the word
    have hne : bare t ≠ [] := by
      intro hnil
      rw [hnil] at hreverse
      cases hreverse
    have hreverse' : (bare (b :: t)).reverse = [d, n, b] := by
      rw [hbare, if_neg hne, List.reverse_cons, hreverse]
      rfl
    have hletter : b.toUpper ≠ 'E' := by
      intro hupper
      have hbegins := beginsWord_of_toUpper (c := b) (by rw [hupper]; decide)
      rw [hb] at hbegins
      exact Bool.noConfusion hbegins.2.1
    have hshort : (bare t).length < 3 := by
      rw [← List.length_reverse, hreverse, List.length_cons, List.length_singleton]
      decide
    rw [closesBlock_of_reverse hreverse', closesBlock_eq_false_of_length hshort]
    simp [Text.upper, hletter]
  | [] | [_] =>
    have hlength := congrArg List.length hreverse
    simp only [List.length_reverse, List.length_cons, List.length_nil] at hlength
    have hlong : (bare (b :: t)).length < 3 := by
      rw [hbare]
      split
      · decide
      · rw [List.length_cons]
        omega
    rw [closesBlock_eq_false_of_length hlong, closesBlock_eq_false_of_length (by omega)]

/-- A blank in front of an open block goes to the statement that the block becomes. -/
theorem statements_group_cons {b : Char} (hb : isBlank b) (block : Text) (ss : List Text) :
    (group (some (b :: block)) ss).statements =
      (group (some block) ss).statements.modifyHead (b :: ·) := by
  induction ss generalizing block with
  | nil => rfl
  | cons s ss ih =>
    have hclosed : closesBlock (b :: block ++ s) = closesBlock (block ++ s) :=
      closesBlock_cons hb (block ++ s)
    rw [group, group, hclosed]
    split
    · rfl
    · exact ih (block ++ s)

/-- A blank in front of a text goes to its first statement. -/
theorem statements_cons_of_isBlank {b : Char} (hb : isBlank b) (t : Text) :
    (Scan.ofText (b :: t)).statements = (Scan.ofText t).statements.modifyHead (b :: ·) := by
  show (group none (segments .plain (b :: t)).ended).statements =
    (group none (segments .plain t).ended).statements.modifyHead (b :: ·)
  rw [segments_cons_of_isBlank hb]
  cases hended : (segments .plain t).ended with
  | nil =>
    simp only [Segments.cons, hended]
    rfl
  | cons s ss =>
    simp only [Segments.cons, hended]
    rw [group, group, opensBlock_cons hb, closesBlock_cons hb]
    split
    · exact statements_group_cons hb s ss
    · rfl

theorem statements_blanks_append {bs : Text} (hbs : ∀ b ∈ bs, isBlank b) (t : Text) :
    (Scan.ofText (bs ++ t)).statements = (Scan.ofText t).statements.modifyHead (bs ++ ·) := by
  induction bs with
  | nil =>
    rw [List.nil_append]
    cases (Scan.ofText t).statements <;> rfl
  | cons b bs ih =>
    rw [List.cons_append, statements_cons_of_isBlank (hbs b List.mem_cons_self),
      ih fun c hc => hbs c (List.mem_cons_of_mem b hc), List.modifyHead_modifyHead]
    rfl

theorem step_of_isBlank {b : Char} (hb : isBlank b) (region : Region) (c : Char) :
    region.step c (some b) = region.step c none := by
  have hdash : b ≠ '-' := by
    rintro rfl
    exact absurd hb (by decide)
  have hstar : b ≠ '*' := by
    rintro rfl
    exact absurd hb (by decide)
  have hslash : b ≠ '/' := by
    rintro rfl
    exact absurd hb (by decide)
  cases region <;> simp [Region.step, hdash, hstar, hslash]

/-- A blank behind a text is behind its last terminator. -/
theorem ended_concat_of_isBlank {b : Char} (hb : isBlank b) (region : Region) (t : Text) :
    (segments region (t ++ [b])).ended = (segments region t).ended := by
  induction t generalizing region with
  | nil =>
    have hterminator := ne_terminator_of_isBlank hb
    simp [segments, Segments.cons, hterminator]
  | cons c t ih =>
    have hstep : region.step c (t ++ [b]).head? = region.step c t.head? := by
      cases t with
      | nil => exact step_of_isBlank hb region c
      | cons d t => rfl
    have htail := ih (region.step c t.head?)
    rw [List.cons_append, segments, segments, hstep]
    split
    · exact congrArg ([c] :: ·) htail
    · simp only [Segments.cons, htail]
      split <;> rfl

theorem statements_concat_of_isBlank {b : Char} (hb : isBlank b) (t : Text) :
    (Scan.ofText (t ++ [b])).statements = (Scan.ofText t).statements := by
  show (group none (segments .plain (t ++ [b])).ended).statements = _
  rw [ended_concat_of_isBlank hb]
  rfl

theorem statements_append_blanks {bs : Text} (hbs : ∀ b ∈ bs, isBlank b) (t : Text) :
    (Scan.ofText (t ++ bs)).statements = (Scan.ofText t).statements := by
  induction bs generalizing t with
  | nil => rw [List.append_nil]
  | cons b bs ih =>
    rw [List.append_cons, ih fun c hc => hbs c (List.mem_cons_of_mem b hc),
      statements_concat_of_isBlank (hbs b List.mem_cons_self)]

/-- Trimming takes what it drops in front from the first statement, and nothing from the others. -/
theorem exists_statements_eq (t : Text) : ∃ front back, t = front ++ (Text.trim t ++ back) ∧
    (Scan.ofText t).statements =
      (Scan.ofText (Text.trim t)).statements.modifyHead (front ++ ·) := by
  obtain ⟨front, back, htext, hfront, hback⟩ := Text.exists_eq_trim t
  refine ⟨front, back, htext, ?_⟩
  conv => lhs; rw [htext]
  rw [statements_blanks_append hfront, statements_append_blanks hback]

/-- A text that is its only statement is so when it is trimmed. -/
theorem statements_trim {u : Text} (h : (Scan.ofText u).statements = [u]) :
    (Scan.ofText (Text.trim u)).statements = [Text.trim u] := by
  obtain ⟨front, back, htext, hstatements⟩ := exists_statements_eq u
  rw [h] at hstatements
  have hscan := text_eq_scan (Text.trim u)
  cases hfound : (Scan.ofText (Text.trim u)).statements with
  | nil =>
    rw [hfound] at hstatements
    cases hstatements
  | cons w ws =>
    rw [hfound] at hstatements hscan
    obtain ⟨hw, hws⟩ := List.cons.inj hstatements
    obtain rfl : ws = [] := hws.symm
    have hwhole : w = Text.trim u ++ back := by
      rw [htext] at hw
      exact (List.append_cancel_left hw).symm
    -- the statement is no longer than the text that it is found in
    rw [List.flatten_singleton, hwhole, List.append_assoc, List.append_right_eq_self] at hscan
    rw [hwhole, (List.append_eq_nil_iff.1 hscan).1, List.append_nil]

/-- A text without statements has none when it is trimmed. -/
theorem statements_trim_of_nil {u : Text} (h : (Scan.ofText u).statements = []) :
    (Scan.ofText (Text.trim u)).statements = [] := by
  obtain ⟨front, back, -, hstatements⟩ := exists_statements_eq u
  rw [h] at hstatements
  exact List.modifyHead_eq_nil_iff.1 hstatements.symm

/-! ## Splitting again -/

theorem isBareCommand_trim (t : Text) : isBareCommand (Text.trim t) = isBareCommand t := by
  rw [isBareCommand, Text.trim_trim, isBareCommand]

theorem isBlankText_nil : isBlankText [] := isBlankText_iff.2 ⟨tokens_nil, .inl fault?_nil⟩

theorem isBlankText_trim (t : Text) : isBlankText (Text.trim t) = isBlankText t := by
  rw [Bool.eq_iff_iff, isBlankText_iff, isBlankText_iff, tokens_trim, fault?_trim]

/-- A statement is a command alone, its only statement, or a text without statements that is not
blank. -/
theorem cases_of_mem_split {t s : Text} (h : s ∈ split t) :
    isBareCommand s ∨ (Scan.ofText s).statements = [s] ∨
      (Scan.ofText s).statements = [] ∧ isBlankText s = false := by
  rw [split_eq] at h
  split at h
  · next hbare =>
    rw [List.mem_singleton.1 h, isBareCommand_trim]
    exact .inl hbare
  · rcases List.mem_append.1 h with h | h
    · obtain ⟨u, hu, rfl⟩ := List.mem_map.1 h
      exact .inr (.inl (statements_trim (statements_of_mem_statements hu)))
    · split at h
      · cases h
      · next hblank =>
        rw [List.mem_singleton.1 h, isBlankText_trim]
        exact .inr (.inr ⟨statements_trim_of_nil (statements_tail t), Bool.eq_false_iff.2 hblank⟩)

/-- A statement is split into itself. -/
theorem split_of_mem_split {t s : Text} (h : s ∈ split t) : split s = [s] := by
  have htrim := trim_of_mem_split h
  rw [split_eq]
  split
  · rw [htrim]
  · next hbare =>
    rcases cases_of_mem_split h with hcommand | hstatement | ⟨hnone, hblank⟩
    · exact absurd hcommand hbare
    · obtain ⟨hopen, hrest⟩ := tail_eq_nil hstatement
      have htail : (Scan.ofText s).tail = [] := by
        rw [Scan.tail, hopen, hrest]
        rfl
      rw [hstatement, htail, if_pos isBlankText_nil, List.append_nil, List.map_singleton, htrim]
    · have htail : (Scan.ofText s).tail = s := by
        have htext := text_eq_scan s
        rwa [hnone] at htext
      rw [hnone, htail, hblank, if_neg Bool.false_ne_true, htrim]
      rfl

theorem isComplete_of_statements {s : Text} (hclosed : Closed s)
    (h : (Scan.ofText s).statements = [s]) : isComplete s := by
  obtain ⟨hopen, hrest⟩ := tail_eq_nil h
  have hterminated : (Scan.ofText s).unterminated = false := by
    rw [unterminated_eq, closed_iff.1 hclosed]
    rfl
  simp [isComplete, h, hopen, hrest, hterminated, isBlankText_nil]

/-- Nothing but statements is left of a complete text. -/
theorem isComplete_of_mem_split {t s : Text} (ht : isComplete t) (h : s ∈ split t) :
    isComplete s := by
  have hclosed : Closed s := closed_of_mem_split (closed_of_isComplete ht) h
  have hsplit := h
  rw [split_eq] at hsplit
  split at hsplit
  · next hbare =>
    rw [List.mem_singleton.1 hsplit, isComplete, isBareCommand_trim, hbare, Bool.true_or]
  · next hbare =>
    rw [isComplete, Bool.eq_false_iff.2 hbare, Bool.false_or] at ht
    simp only [Bool.and_eq_true, Option.isNone_iff_eq_none] at ht
    obtain ⟨⟨⟨-, hopen⟩, -⟩, hblank⟩ := ht
    rcases List.mem_append.1 hsplit with hmem | hmem
    · obtain ⟨u, hu, rfl⟩ := List.mem_map.1 hmem
      exact isComplete_of_statements hclosed (statements_trim (statements_of_mem_statements hu))
    · have htail : isBlankText (Scan.ofText t).tail := by
        rw [Scan.tail, hopen]
        exact hblank
      rw [if_pos htail] at hmem
      cases hmem

/-- **Splitting cuts a text into parts that no further splitting cuts.**  The statements of a text,
its open block and its rest are the text again.  Each part is trimmed and is split into itself, and
the parts of a complete text are complete. -/
theorem split_partitions (t : Text) :
    (Scan.ofText t).statements.flatten ++
        ((Scan.ofText t).openBlock.getD [] ++ (Scan.ofText t).rest) = t ∧
      (∀ s ∈ split t, Text.trim s = s ∧ split s = [s]) ∧
      (isComplete t → ∀ s ∈ split t, isComplete s) :=
  ⟨text_eq_scan t, fun _ hs => ⟨trim_of_mem_split hs, split_of_mem_split hs⟩,
    fun ht _ hs => isComplete_of_mem_split ht hs⟩

/-- A query behind a comment, and a block with a quoted terminator. -/
def queryAndBlock : Text :=
  Text.join ['\n'] ["-- one; two", "SELECT a FROM t;", "", "EXECUTE STATEMENT SET", "BEGIN",
    "INSERT INTO s SELECT ';' FROM t;", "END; "]

theorem split_partitions_queryAndBlock :
    isComplete queryAndBlock ∧ (split queryAndBlock).length = 2 ∧
      ∀ s ∈ split queryAndBlock, split s = [s] ∧ isComplete s := by
  have hcomplete : isComplete queryAndBlock := by decide +kernel
  obtain ⟨-, hparts, hall⟩ := split_partitions queryAndBlock
  exact ⟨hcomplete, by decide +kernel, fun s hs => ⟨(hparts s hs).2, hall hcomplete s hs⟩⟩

end Script

end SqlConsole
