import Mathlib.Data.List.Induction
import SqlConsole.Proofs.Script.Blocks
import SqlConsole.Proofs.Session.Reading
import SqlConsole.Proofs.Statement.Insert
import SqlConsole.Proofs.Token.LineEnds
/-!
# Statements of several lines

A text of several lines is delivered as one statement if the reader still waits behind each line
but the last (`readLines_of_waits`).  It waits as long as the segments of the lines that were read
make up no statement; those are always the first segments of the whole text, so whether the text is
read as one statement is told by its segments alone (`OneStatement`, `OneStatement.readLines`).
An insertion whose terminator has a line of its own is such a text, and so is a block up to the
first line that closes it.
-/

namespace SqlConsole

/-! ## Lines of a text -/

namespace Text

theorem unlines_fields (t : Text) : Piece.unlines (fields '\n' t) = t ++ ['\n'] := by
  induction t with
  | nil => rfl
  | cons c t ih =>
    obtain ⟨part, parts, hparts⟩ := List.exists_cons_of_ne_nil (fieldsBy_ne_nil (· == '\n') t)
    rw [fields, hparts, Piece.unlines_cons] at ih
    rw [fields, fieldsBy]
    split
    · next hc =>
      rw [beq_iff_eq.1 hc, hparts, Piece.unlines_cons, Piece.unlines_cons, ih]
      rfl
    · rw [hparts]
      dsimp only
      rw [Piece.unlines_cons, List.cons_append, List.cons_append, ih]
      rfl

/-- Without carriage returns, and with something behind its last line feed, a text has the lines
between its line feeds. -/
theorem lines_eq_fields {t : Text} (hreturn : '\r' ∉ t) (hlast : ∃ c ∈ t.getLast?, c ≠ '\n') :
    lines t = fields '\n' t := by
  rcases List.eq_nil_or_concat (fields '\n' t) with hnil | ⟨front, last, hfields⟩
  · exact (fieldsBy_ne_nil _ t hnil).elim
  · rw [List.concat_eq_append] at hfields
    have hfront : front.map dropReturn = front.map id := by
      refine List.map_congr_left fun line hline => if_neg fun hreturns => ?_
      have hpart : line ∈ fields '\n' t := by
        rw [hfields]
        exact List.mem_append_left _ hline
      exact hreturn (mem_of_mem_fields hpart (List.mem_of_getLast? hreturns)).1
    have hne : last ≠ [] := by
      rintro rfl
      obtain ⟨c, hc, hfeed⟩ := hlast
      have htext : Piece.unlines front = t := by
        have hunlines := unlines_fields t
        rw [hfields, Piece.unlines, List.flatMap_append] at hunlines
        exact List.append_cancel_right hunlines
      rcases List.eq_nil_or_concat front with rfl | ⟨front, line, rfl⟩
      · rw [← htext] at hc
        cases hc
      · rw [← htext, List.concat_eq_append, Piece.unlines, List.flatMap_append,
          List.flatMap_singleton, ← List.append_assoc, List.getLast?_concat] at hc
        exact hfeed (Option.some.inj hc).symm
    have hlines : lines t = front.map dropReturn ++ [last] := by
      unfold lines
      simp only [hfields, List.dropLast_concat, List.getLast?_concat]
      cases last with
      | nil => exact (hne rfl).elim
      | cons => rfl
    rw [hlines, hfront, List.map_id, hfields]

end Text

open Piece Script

/-! ## Waiting for the next line -/

namespace Console

/-- A text that the reader keeps until more lines follow. -/
def Waits (t : Text) : Prop := split t ≠ [] ∧ isComplete t = false

variable {prompt : Text} {c : Console}

theorem readLines_of_forall_waits (h : c.sink.room = none) {lines : List Text}
    (hwaits : ∀ front, front <+: lines → front ≠ [] → Waits (unlines front)) :
    c.readLines prompt [] lines = ([], unlines lines) := by
  induction lines using List.reverseRecOn with
  | nil => rfl
  | append_singleton front line ih =>
    have hfront := ih fun part hpart => hwaits part (hpart.trans (List.prefix_append front [line]))
    obtain ⟨hsplit, hincomplete⟩ := hwaits _ (List.prefix_refl _) (by simp)
    have htext : unlines (front ++ [line]) = unlines front ++ line ++ ['\n'] := by
      simp [unlines]
    rw [htext] at hsplit hincomplete
    have hline : Reading.addLine isComplete (unlines front) line =
        .incomplete (unlines front ++ line ++ ['\n']) := by
      unfold Reading.addLine
      dsimp only
      split
      · next hnil => exact (hsplit hnil).elim
      · rw [hincomplete]
        rfl
    rw [readLines_append h, hfront]
    dsimp only
    rw [readLines_cons h, hline, htext]
    rfl

/-- **Lines are one statement** if the reader waits behind each but the last. -/
theorem readLines_of_waits (h : c.sink.room = none) {lines : List Text} {last statement : Text}
    (hwaits : ∀ front, front <+: lines → front ≠ [] → Waits (unlines front))
    (hcomplete : isComplete (unlines (lines ++ [last])))
    (hsplit : split (unlines (lines ++ [last])) = [statement]) :
    c.readLines prompt [] (lines ++ [last]) = ([statement], []) := by
  have htext : unlines (lines ++ [last]) = unlines lines ++ last ++ ['\n'] := by
    simp [unlines]
  rw [htext] at hcomplete hsplit
  have hlast : Reading.addLine isComplete (unlines lines) last =
      .complete (unlines lines ++ last ++ ['\n']) statement [] := by
    unfold Reading.addLine
    dsimp only
    rw [hsplit]
    exact if_pos hcomplete
  rw [readLines_append h, readLines_of_forall_waits h hwaits]
  dsimp only
  rw [readLines_cons h, hlast]
  rfl

/-- A line that is one statement. -/
theorem readLines_line (h : c.sink.room = none) {line : Text}
    (hfields : Text.fields '\n' line = [line]) (hcomplete : isComplete (line ++ ['\n']))
    (hsplit : split (line ++ ['\n']) = [line]) :
    c.readLines prompt [] (Text.fields '\n' line) = ([line], []) := by
  have htext : unlines ([] ++ [line]) = line ++ ['\n'] := by
    simp [unlines]
  rw [← htext] at hcomplete hsplit
  rw [hfields]
  show c.readLines prompt [] ([] ++ [line]) = ([line], [])
  refine readLines_of_waits h ?_ hcomplete hsplit
  intro front hfront hne
  exact (hne (List.prefix_nil.1 hfront)).elim

/-- Texts behind each other are read as they are, if each of them is. -/
theorem readLines_join (h : c.sink.room = none) {texts : List Text} (hne : texts ≠ [])
    (htexts : ∀ t ∈ texts, c.readLines prompt [] (Text.fields '\n' t) = ([t], []))
    (hreturn : '\r' ∉ Text.join ['\n'] texts)
    (hlast : ∃ d ∈ (Text.join ['\n'] texts).getLast?, d ≠ '\n') :
    c.readLines prompt [] (Text.lines (Text.join ['\n'] texts)) = (texts, []) := by
  rw [Text.lines_eq_fields hreturn hlast, Text.fields_join hne]
  clear hreturn hlast hne
  induction texts with
  | nil => rfl
  | cons t texts ih =>
    have ht := htexts t List.mem_cons_self
    have hrest := ih fun u hu => htexts u (List.mem_cons_of_mem t hu)
    rw [List.flatMap_cons, readLines_append h, ht]
    dsimp only
    rw [hrest]
    rfl

end Console

/-! ## Texts that are one statement -/

namespace Script

/-- A text whose segments make up one statement, and none before the last of them, and whose first
line begins with a letter and is no command of the client. -/
structure OneStatement (t : Text) : Prop where
  trim_eq : Text.trim t = t
  begins : ∃ d w rest, t = d :: w ++ rest ∧ '\n' ∉ d :: w ∧
    (beginsWord d ∧ isBlank d = false ∧ d.isDigit = false) ∧ ∃ c ∈ d :: w, c.toUpper = 'S'
  segments : ∃ es, es.flatten = t ∧ (∀ s ∈ es, IsSegment s) ∧ group none es = ⟨[t], none⟩ ∧
    ∀ first, first <+: es → first ≠ es → (group none first).statements = []

theorem tokens_ne_nil {d : Char}
    (hd : beginsWord d ∧ isBlank d = false ∧ d.isDigit = false) (t : Text) :
    tokens (d :: t) ≠ [] := by
  have hrest : ∀ e ∈ (t.dropWhile inWord).head?, inWord e = false := by
    intro e he
    have hhead := List.head?_dropWhile_not inWord t
    rw [Option.mem_def.1 he] at hhead
    simpa using hhead
  have hword := tokens_word_append (w := t.takeWhile inWord) hd.1 hd.2.1 hd.2.2
    (List.all_eq_true.1 List.all_takeWhile) hrest
  rw [List.cons_append, List.takeWhile_append_dropWhile] at hword
  rw [hword]
  exact List.cons_ne_nil _ _

theorem split_ne_nil {d : Char} (hd : beginsWord d ∧ isBlank d = false ∧ d.isDigit = false)
    (t : Text) : split (d :: t) ≠ [] := by
  intro hnil
  have htokens := flatMap_tokens_split (d :: t)
  rw [hnil] at htokens
  exact tokens_ne_nil hd t htokens.symm

/-- Segments with a line feed behind them. -/
theorem segments_flatten_newline {es : List Text} (h : ∀ s ∈ es, IsSegment s) :
    (segments .plain (es.flatten ++ ['\n'])).ended = es ∧
      (segments .plain (es.flatten ++ ['\n'])).rest = ['\n'] := by
  obtain ⟨hended, hrest⟩ := segments_flatten_append h ['\n']
  have hnone : (segments .plain ['\n']).ended = [] := rfl
  rw [hended, hnone, List.append_nil]
  exact ⟨rfl, hrest⟩

/-- The segments of its first lines are not all of its segments. -/
theorem ended_proper_prefix {t front behind : Text} {es : List Text} (htrim : Text.trim t = t)
    (hflatten : es.flatten = t) (hsegments : ∀ s ∈ es, IsSegment s) (hfront : Closed front)
    (hwhole : t = front ++ '\n' :: behind) :
    (segments .plain (front ++ ['\n'])).ended <+: es ∧
      (segments .plain (front ++ ['\n'])).ended ≠ es := by
  obtain ⟨hended, -⟩ := segments_flatten_newline hsegments
  have hinitial := ended_prefix hfront (behind ++ ['\n'])
  have hsame : front ++ '\n' :: (behind ++ ['\n']) = es.flatten ++ ['\n'] := by
    rw [hflatten, hwhole]
    simp
  rw [hsame, hended] at hinitial
  refine ⟨hinitial, fun heq => ?_⟩
  -- otherwise nothing would stand behind the line feed, and it would have been trimmed
  have htext := congrArg List.length (segments_flatten (front ++ ['\n']))
  have hlength := congrArg List.length hwhole
  rw [heq, hflatten] at htext
  simp only [List.length_append, List.length_cons, List.length_nil] at htext hlength
  obtain rfl : behind = [] := List.eq_nil_of_length_eq_zero (by omega)
  have hle := Text.length_trim_le front
  rw [← Text.trim_concat isBlank_newline, ← hwhole, htrim] at hle
  simp only [List.length_nil] at hlength
  omega

namespace OneStatement

variable {t : Text}

theorem scan (h : OneStatement t) :
    Scan.ofText (t ++ ['\n']) = ⟨[t], none, ['\n'], false⟩ := by
  obtain ⟨es, hflatten, hsegments, hgroup, -⟩ := h.segments
  obtain ⟨hended, hrest⟩ := segments_flatten_newline hsegments
  obtain ⟨-, hfault⟩ := tokens_flatten_append (fun s hs => (hsegments s hs).terminated) ['\n']
  rw [hflatten] at hended hrest hfault
  rw [← hended] at hgroup
  rw [ofText_eq hgroup, hrest, hfault, fault?_cons_of_isBlank isBlank_newline, fault?_nil]
  rfl

/-- The lines that it begins with are no command of the client, and not blank. -/
theorem begins_of_prefix (h : OneStatement t) {lines : List Text} (hne : lines ≠ [])
    (hinitial : lines <+: Text.fields '\n' t) :
    isBareCommand (unlines lines) = false ∧ split (unlines lines) ≠ [] := by
  obtain ⟨first, others, rfl⟩ := List.exists_cons_of_ne_nil hne
  obtain ⟨d, w, rest, rfl, hfeed, hletter, c, hc, hupper⟩ := h.begins
  obtain ⟨more, lines, -, hfields⟩ := Text.exists_fields_append hfeed rest
  rw [hfields] at hinitial
  obtain ⟨rfl, -⟩ := List.cons_prefix_cons.1 hinitial
  have hmem : c ∈ unlines ((d :: w ++ more) :: others) := by
    rw [unlines_cons]
    exact List.mem_append_left _ (List.mem_append_left _ (List.mem_append_left _ hc))
  exact ⟨isBareCommand_eq_false hmem hupper, split_ne_nil hletter _⟩

/-- The reader waits behind each line but the last. -/
theorem waits (h : OneStatement t) {front behind : List Text} (hfront : front ≠ [])
    (hbehind : behind ≠ []) (hlines : Text.fields '\n' t = front ++ behind) :
    Console.Waits (unlines front) := by
  obtain ⟨hbare, hsplit⟩ := h.begins_of_prefix hfront (hlines ▸ List.prefix_append _ behind)
  refine ⟨hsplit, Bool.eq_false_iff.2 fun hcomplete => ?_⟩
  have hjoin := unlines_eq_join hfront
  have hclosed : Closed (Text.join ['\n'] front) := by
    rw [closed_iff, ← (concat_of_isBlank isBlank_newline _).2, ← hjoin, ← closed_iff]
    exact closed_of_isComplete hcomplete
  have hwhole : t = Text.join ['\n'] front ++ '\n' :: Text.join ['\n'] behind := by
    have htext := Text.unlines_fields t
    have hsum : unlines (front ++ behind) = unlines front ++ unlines behind := List.flatMap_append
    rw [hlines, hsum, hjoin, unlines_eq_join hbehind] at htext
    have hsame : t ++ ['\n'] =
        (Text.join ['\n'] front ++ '\n' :: Text.join ['\n'] behind) ++ ['\n'] := by
      rw [← htext]
      simp
    exact List.append_cancel_right hsame
  obtain ⟨es, hflatten, hsegments, -, hnone⟩ := h.segments
  obtain ⟨hinitial, hproper⟩ := ended_proper_prefix h.trim_eq hflatten hsegments hclosed hwhole
  rw [← hjoin] at hinitial hproper
  have hstatements : (Scan.ofText (unlines front)).statements = [] := hnone _ hinitial hproper
  unfold isComplete at hcomplete
  simp [hbare, hstatements] at hcomplete

/-- **A text that is one statement is read as one statement.** -/
theorem readLines (h : OneStatement t) {prompt : Text} {c : Console} (hroom : c.sink.room = none) :
    c.readLines prompt [] (Text.fields '\n' t) = ([t], []) := by
  have hne : Text.fields '\n' t ≠ [] := Text.fieldsBy_ne_nil _ t
  have hblank : isBlankText ['\n'] := by
    rw [isBlankText_iff, tokens_cons_of_isBlank isBlank_newline,
      fault?_cons_of_isBlank isBlank_newline]
    exact ⟨tokens_nil, .inl fault?_nil⟩
  obtain ⟨hbare, -⟩ := h.begins_of_prefix hne (List.prefix_refl _)
  have htext := Text.unlines_fields t
  rw [htext] at hbare
  rcases List.eq_nil_or_concat (Text.fields '\n' t) with hnil | ⟨front, last, hlines⟩
  · exact (hne hnil).elim
  · rw [List.concat_eq_append] at hlines
    rw [hlines] at htext ⊢
    refine Console.readLines_of_waits hroom (fun part hpart hpart' => ?_) ?_ ?_
    · obtain ⟨more, rfl⟩ := hpart
      have hparts : Text.fields '\n' t = part ++ (more ++ [last]) := by
        rw [hlines, List.append_assoc]
      exact h.waits hpart' (by simp) hparts
    · rw [htext, isComplete]
      simp [h.scan, hblank]
    · rw [htext, split_eq, hbare]
      simp [h.scan, Scan.tail, hblank, h.trim_eq]

end OneStatement

/-! ## Insertions and blocks -/

/-- An insertion whose terminator has a line of its own. -/
theorem oneStatement_terminated {m : Modify} (h : Statement.StandsAlone m) :
    OneStatement (terminated m.statement) := by
  obtain ⟨d, w, rest, hrest, -, hletters, hupper⟩ := h.exists_letters
  have hgroup : group none [terminated m.statement] = ⟨[terminated m.statement], none⟩ :=
    group_of_not_opensBlock fun s hs => by
      rw [List.mem_singleton.1 hs]
      exact h.opensBlock rfl
  have hfeed : '\n' ∉ d :: w := by
    intro hfeed
    have hblank := (hletters '\n' hfeed).2.1
    rw [show isBlank '\n' = true from isBlank_newline] at hblank
    cases hblank
  refine ⟨h.trim_terminated, ⟨d, w, rest ++ ['\n', ';'], ?_, hfeed, hletters d List.mem_cons_self,
    hupper⟩, [terminated m.statement], by simp, ?_, hgroup, ?_⟩
  · rw [terminated, hrest, List.append_assoc]
  · intro s hs
    rw [List.mem_singleton.1 hs]
    exact h.isSegment
  · intro first hfirst hproper
    rcases List.prefix_concat_iff.1 (show first <+: [] ++ [_] from hfirst) with rfl | hnil
    · exact (hproper rfl).elim
    · rw [List.prefix_nil.1 hnil]
      rfl

/-- A block up to the first line that closes it. -/
theorem oneStatement_block {ys : List Text} {last : Text}
    (h : ∀ y ∈ ys, 3 ≤ (bare y).length ∧ closesBlock y = false) (hlong : 3 ≤ (bare last).length)
    (hlast : closesBlock last) (hsegments : ∀ y ∈ ys ++ [last], IsSegment y) :
    OneStatement (blockOf (ys ++ [last])) := by
  have hne : ys ++ [last] ≠ [] := by simp
  have hflatten : (blockSegments (ys ++ [last])).flatten = blockOf (ys ++ [last]) := by
    rw [blockSegments, flatten_lineSegments hne, List.append_assoc]
    rfl
  have hall : ∀ s ∈ blockSegments (ys ++ [last]), IsSegment s :=
    isSegment_of_mem_lineSegments _ (fun y => isSegment_opening) hsegments
  refine ⟨?_, ?_, blockSegments (ys ++ [last]), hflatten, hall,
    group_blockSegments_close h hlong hlast, ?_⟩
  · have hnonempty : blockSegments (ys ++ [last]) ≠ [] := by
      cases ys <;> exact List.cons_ne_nil _ _
    rw [← hflatten]
    refine (terminated_flatten hnonempty fun s hs => (hall s hs).terminated).trim_eq fun c hc => ?_
    rw [hflatten] at hc
    obtain rfl : c = 'E' := (Option.some.inj hc).symm
    decide
  · exact ⟨'E', "XECUTE STATEMENT SET BEGIN".toList, _, rfl, by decide +kernel, by decide +kernel,
      'S', by decide +kernel, by decide⟩
  · intro first hfirst hproper
    obtain ⟨zs, hzs, rfl⟩ := exists_of_prefix_lineSegments hfirst
    rcases List.prefix_concat_iff.1 hzs with rfl | hzs
    · exact (hproper rfl).elim
    · by_cases hnil : zs = []
      · rw [hnil]
        rfl
      · obtain ⟨block, hblock⟩ :=
          group_blockSegments_open hnil fun z hz => h z (hzs.subset hz)
        rw [← blockSegments, hblock]

end Script

end SqlConsole
