import SqlConsole.Proofs.Script.Segments
/-!
# What splitting a text keeps

A text is its statements, the block that is open and the rest behind the last terminator
(`text_eq_scan`), and each statement is cut to its end with a terminator as its last piece
(`Terminated`).  Behind such a text the lexer begins anew, so the tokens of the parts add up:
splitting a text loses no token and invents none (`flatMap_tokens_split`).  A complete text is
closed, and so are its statements (`closed_of_mem_split`).
-/

namespace SqlConsole.Piece

/-! ## Texts that end with a terminator -/

/-- A text that is cut to its end and whose last piece is a terminator. -/
def Terminated (t : Text) : Prop := ∃ ps, cut t = ⟨ps ++ [.token (.symbol ';') [';']], none⟩

theorem Terminated.closed {t : Text} (h : Terminated t) : Closed t := by
  obtain ⟨ps, hcut⟩ := h
  rw [Closed, hcut]

/-- Behind a terminator the lexer begins anew. -/
theorem Terminated.cut_append {s : Text} (h : Terminated s) (t : Text) :
    cut (s ++ t) = ⟨(cut s).pieces ++ (cut t).pieces, (cut t).openEnd⟩ := by
  refine Piece.cut_append h.closed ?_
  obtain ⟨ps, hcut⟩ := h
  intro p hp d hd
  rw [hcut, List.getLast?_concat] at hp
  obtain rfl := Option.some.inj hp
  simp [endsBefore]

theorem Terminated.append {s t : Text} (hs : Terminated s) (ht : Terminated t) :
    Terminated (s ++ t) := by
  obtain ⟨ps, hcut⟩ := ht
  refine ⟨(cut s).pieces ++ ps, ?_⟩
  rw [hs.cut_append, hcut, List.append_assoc]

theorem Terminated.tokens_append {s : Text} (h : Terminated s) (t : Text) :
    tokens (s ++ t) = tokens s ++ tokens t := by
  simp [tokens, h.cut_append]

theorem Terminated.fault?_append {s : Text} (h : Terminated s) (t : Text) :
    fault? (s ++ t) = fault? t := by
  simp [fault?, h.cut_append]

/-- The tokens of terminated texts add up, in front of any text. -/
theorem tokens_flatten_append {ss : List Text} (h : ∀ s ∈ ss, Terminated s) (t : Text) :
    tokens (ss.flatten ++ t) = ss.flatMap tokens ++ tokens t ∧
      fault? (ss.flatten ++ t) = fault? t := by
  induction ss with
  | nil => exact ⟨rfl, rfl⟩
  | cons s ss ih =>
    have hs := h s List.mem_cons_self
    obtain ⟨htokens, hfault⟩ := ih fun u hu => h u (List.mem_cons_of_mem s hu)
    rw [List.flatten_cons, List.append_assoc, hs.tokens_append, hs.fault?_append, htokens, hfault]
    simp

/-! ## Parts -/

theorem mem_putFront {p : Piece} {found : List (List Piece) × List Piece} {part : List Piece}
    (h : part ∈ (putFront p found).1) : part ∈ found.1 ∨ ∃ first ∈ found.1, part = p :: first := by
  obtain ⟨done, rest⟩ := found
  cases done with
  | nil => cases h
  | cons first done =>
    rcases List.mem_cons.1 h with rfl | h
    · exact .inr ⟨first, List.mem_cons_self, rfl⟩
    · exact .inl (List.mem_cons_of_mem first h)

/-- Each part ends with its only terminator. -/
theorem exists_of_mem_parts {ps part : List Piece} (h : part ∈ (parts ps).1) :
    ∃ init p, part = init ++ [p] ∧ p.isTerminator ∧ ∀ q ∈ init, q.isTerminator = false := by
  induction ps generalizing part with
  | nil => cases h
  | cons p ps ih =>
    rw [parts] at h
    split at h
    · next hp =>
      rcases List.mem_cons.1 h with rfl | h
      · exact ⟨[], p, rfl, hp, fun q hq => (List.not_mem_nil hq).elim⟩
      · exact ih h
    · next hp =>
      obtain hpart | ⟨first, hfirst, rfl⟩ := mem_putFront h
      · exact ih hpart
      · obtain ⟨init, q, rfl, hq, hinit⟩ := ih hfirst
        have hplain : p.isTerminator = false := Bool.eq_false_iff.2 hp
        exact ⟨p :: init, q, rfl, hq, List.forall_mem_cons.2 ⟨hplain, hinit⟩⟩

end SqlConsole.Piece

namespace SqlConsole.Text

/-! ## Blanks around a text -/

theorem dropWhile_eq_self {p : Char → Bool} {t : Text} (h : ∀ c ∈ t.head?, p c = false) :
    t.dropWhile p = t := by
  cases t with
  | nil => rfl
  | cons c t => rw [List.dropWhile_cons, if_neg (by simp [h c rfl])]

theorem head?_dropEndWhile {p : Char → Bool} {t : Text} {c : Char}
    (h : c ∈ (dropEndWhile p t).head?) : c ∈ t.head? := by
  rw [← dropEndWhile_append p t, List.head?_append, Option.mem_def.1 h]
  rfl

theorem mem_of_dropEndWhile {p : Char → Bool} {t : Text} {c : Char} (h : c ∈ t) :
    c ∈ dropEndWhile p t ∨ p c := by
  rw [← dropEndWhile_append p t] at h
  rcases List.mem_append.1 h with hc | hc
  · exact .inl hc
  · exact .inr (List.all_eq_true.1 List.all_takeWhile c (List.mem_reverse.1 hc))

theorem mem_of_trim {t : Text} {c : Char} (h : c ∈ t) : c ∈ trim t ∨ isBlank c := by
  rw [← List.takeWhile_append_dropWhile (p := isBlank) (l := t)] at h
  rcases List.mem_append.1 h with hc | hc
  · exact .inr (List.all_eq_true.1 List.all_takeWhile c hc)
  · exact mem_of_dropEndWhile hc

/-- What is left behind dropped characters does not begin with one of them. -/
theorem head?_dropWhile {p : Char → Bool} {t : Text} {c : Char} (h : c ∈ (t.dropWhile p).head?) :
    p c = false := by
  have hhead := List.head?_dropWhile_not p t
  rw [Option.mem_def.1 h] at hhead
  simpa using hhead

theorem head?_trim {t : Text} {c : Char} (h : c ∈ (trim t).head?) : isBlank c = false :=
  head?_dropWhile (head?_dropEndWhile h)

/-- A trimmed text has no blanks around it. -/
theorem trim_trim (t : Text) : trim (trim t) = trim t := by
  have hstart : (trim t).dropWhile isBlank = trim t := dropWhile_eq_self fun c hc => head?_trim hc
  have hend : (trim t).reverse.dropWhile isBlank = (trim t).reverse := by
    refine dropWhile_eq_self fun c hc => ?_
    rw [trim, dropAround, dropEndWhile, List.reverse_reverse] at hc
    exact head?_dropWhile hc
  conv => lhs; rw [trim, dropAround, hstart, dropEndWhile, hend, List.reverse_reverse]

end SqlConsole.Text

namespace SqlConsole.Script

open Piece

/-! ## Segments -/

/-- A segment ends with its only terminator. -/
theorem exists_of_mem_ended {t s : Text} (h : s ∈ (segments .plain t).ended) :
    ∃ init, cut s = ⟨init ++ [.token (.symbol ';') [';']], none⟩ ∧
      ∀ p ∈ init, p.isTerminator = false := by
  obtain ⟨region, -, hsegments⟩ := segments_eq t
  rw [hsegments] at h
  obtain ⟨part, hpart, rfl⟩ := List.mem_map.1 h
  obtain ⟨before, behind, hparts⟩ := List.append_of_mem hpart
  have hinfix : (cut t).pieces =
      before.flatten ++ part ++ (behind.flatten ++ (parts (cut t).pieces).2) := by
    conv => lhs; rw [← parts_flatten (cut t).pieces, hparts]
    simp
  have hcut := cut_of_pieces_eq_infix hinfix
  obtain ⟨init, p, rfl, hp, hinit⟩ := exists_of_mem_parts hpart
  have hwf : p.WellFormed := by
    have hglued := glued_of_cut ((init ++ [p]).flatMap text)
    rw [hcut] at hglued
    exact hglued.wellFormed p (by simp)
  obtain rfl := eq_terminator hwf hp
  exact ⟨init, hcut, hinit⟩

theorem terminated_of_mem_ended {t s : Text} (h : s ∈ (segments .plain t).ended) :
    Terminated s := by
  obtain ⟨init, hcut, -⟩ := exists_of_mem_ended h
  exact ⟨init, hcut⟩

/-- Blocks are made of whole segments. -/
theorem group_flatten (block : Option Text) (ss : List Text) :
    (group block ss).statements.flatten ++ (group block ss).openBlock.getD [] =
      block.getD [] ++ ss.flatten := by
  fun_induction group block ss with
  | case1 => simp
  | case2 block s rest block' hclosed tail ih => simp [tail, ih, block']
  | case3 block s rest block' hclosed ih => simpa [block'] using ih
  | case4 s rest hopen ih => simpa using ih
  | case5 s rest hopen tail ih => simp [tail, ih]

/-- Statements and an open block end with a terminator, as their segments do. -/
theorem terminated_of_group {block : Option Text} {ss : List Text}
    (hblock : ∀ b ∈ block, Terminated b) (hss : ∀ s ∈ ss, Terminated s) :
    (∀ s ∈ (group block ss).statements, Terminated s) ∧
      ∀ b ∈ (group block ss).openBlock, Terminated b := by
  fun_induction group block ss with
  | case1 => exact ⟨by simp, hblock⟩
  | case2 block s rest block' hclosed tail ih =>
    have hnew : Terminated block' := (hblock block rfl).append (hss s List.mem_cons_self)
    obtain ⟨hstatements, hopen⟩ := ih (by simp) fun u hu => hss u (List.mem_cons_of_mem s hu)
    refine ⟨fun u hu => ?_, hopen⟩
    rcases List.mem_cons.1 hu with rfl | hu
    · exact hnew
    · exact hstatements u hu
  | case3 block s rest block' hclosed ih =>
    have hnew : Terminated block' := (hblock block rfl).append (hss s List.mem_cons_self)
    exact ih (by simpa using hnew) fun u hu => hss u (List.mem_cons_of_mem s hu)
  | case4 s rest hopen ih =>
    exact ih (by simpa using hss s List.mem_cons_self) fun u hu => hss u (List.mem_cons_of_mem s hu)
  | case5 s rest hopen tail ih =>
    obtain ⟨hstatements, hblock'⟩ := ih (by simp) fun u hu => hss u (List.mem_cons_of_mem s hu)
    refine ⟨fun u hu => ?_, hblock'⟩
    rcases List.mem_cons.1 hu with rfl | hu
    · exact hss _ List.mem_cons_self
    · exact hstatements u hu

/-! ## The scan -/

/-- What follows the statements of a text: the open block and the rest. -/
def Scan.tail (s : Scan) : Text := s.openBlock.getD [] ++ s.rest

/-- The scan loses nothing. -/
theorem text_eq_scan (t : Text) :
    (Scan.ofText t).statements.flatten ++ (Scan.ofText t).tail = t := by
  rw [Scan.tail, Scan.ofText, ← List.append_assoc, group_flatten, Option.getD_none,
    List.nil_append, segments_flatten]

theorem terminated_of_scan (t : Text) :
    (∀ s ∈ (Scan.ofText t).statements, Terminated s) ∧
      ∀ b ∈ (Scan.ofText t).openBlock, Terminated b :=
  terminated_of_group (by simp) fun _ hs => terminated_of_mem_ended hs

/-- The statements of a text and what follows them hold its tokens, and what is left open in the
text is left open there. -/
theorem tokens_scan (t : Text) :
    (Scan.ofText t).statements.flatMap tokens ++ tokens (Scan.ofText t).tail = tokens t ∧
      fault? (Scan.ofText t).tail = fault? t := by
  obtain ⟨htokens, hfault⟩ := tokens_flatten_append (terminated_of_scan t).1 (Scan.ofText t).tail
  rw [text_eq_scan] at htokens hfault
  exact ⟨htokens.symm, hfault.symm⟩

theorem unterminated_eq (t : Text) : (Scan.ofText t).unterminated = (fault? t).isSome := by
  obtain ⟨region, hopen, hsegments⟩ := segments_eq t
  rw [Scan.ofText, hsegments, fault?, Option.isSome_map, ← hopen]
  rfl

/-! ## Leading comments -/

/-- Leading blanks and comments hold no token.  If one of the comments is never closed, nothing is
left behind it. -/
theorem skipComments_spec (t : Text) :
    tokens (skipComments t) = tokens t ∧
      (fault? (skipComments t) = fault? t ∨ skipComments t = [] ∧ fault? t = some .comment) := by
  fun_induction skipComments t with
  | case1 t r htrim ih =>
    obtain ⟨htokens, hfault⟩ := trimStart_spec t
    have hread : Piece.read '-' ('-' :: r) =
        .ok (.comment ('-' :: '-' :: r.takeWhile (· != '\n')), r.dropWhile (· != '\n')) := by
      simp [Piece.read, isBlank_signs '-' (by decide)]
    rw [htrim, tokens_of_read hread] at htokens
    rw [htrim, fault?_of_read hread] at hfault
    rw [← htokens, ← hfault]
    exact ih
  | case2 t r htrim body rest hclose ih =>
    obtain ⟨htokens, hfault⟩ := trimStart_spec t
    have hread : Piece.read '/' ('*' :: r) = .ok (.comment ('/' :: '*' :: body), rest) := by
      simp [Piece.read, hclose, isBlank_signs '/' (by decide)]
    rw [htrim, tokens_of_read hread] at htokens
    rw [htrim, fault?_of_read hread] at hfault
    rw [← htokens, ← hfault]
    exact ih
  | case3 t r htrim hclose =>
    obtain ⟨htokens, hfault⟩ := trimStart_spec t
    have hread : Piece.read '/' ('*' :: r) = .error .comment :=
      read_eq_error_iff.2 (.inr ⟨r, rfl, rfl, hclose, rfl⟩)
    rw [htrim, tokens, cut_of_fault hread] at htokens
    rw [htrim, fault?, cut_of_fault hread] at hfault
    exact ⟨tokens_nil.trans htokens, .inr ⟨rfl, hfault.symm⟩⟩
  | case4 t hline hblock => exact ⟨(trimStart_spec t).1, .inl (trimStart_spec t).2⟩

/-- A blank text holds no token, and nothing but a block comment is left open in it. -/
theorem tokens_of_isBlankText {t : Text} (h : isBlankText t) :
    tokens t = [] ∧ (fault? t = none ∨ fault? t = some .comment) := by
  have hnil : skipComments t = [] := List.isEmpty_iff.1 h
  obtain ⟨htokens, hfault⟩ := skipComments_spec t
  rw [hnil, tokens_nil] at htokens
  rw [hnil, fault?_nil] at hfault
  refine ⟨htokens.symm, ?_⟩
  rcases hfault with hfault | ⟨-, hfault⟩
  · exact .inl hfault.symm
  · exact .inr hfault

/-! ## Statements -/

theorem flatMap_tokens_trim (ss : List Text) :
    (ss.map Text.trim).flatMap tokens = ss.flatMap tokens := by
  simp [List.flatMap_map]

/-- What follows the statements of a text is a statement too, unless it is blank. -/
theorem split_eq (t : Text) :
    split t =
      if isBareCommand t then [Text.trim t]
      else (Scan.ofText t).statements.map Text.trim ++
        if isBlankText (Scan.ofText t).tail then [] else [Text.trim (Scan.ofText t).tail] := rfl

/-- A statement of a text is a command alone, a complete statement, or what follows those. -/
theorem exists_of_mem_split {t s : Text} (h : s ∈ split t) :
    ∃ u, s = Text.trim u ∧ (u = t ∨ u ∈ (Scan.ofText t).statements ∨ u = (Scan.ofText t).tail) := by
  rw [split_eq] at h
  split at h
  · exact ⟨t, List.mem_singleton.1 h, .inl rfl⟩
  rcases List.mem_append.1 h with h | h
  · obtain ⟨u, hu, rfl⟩ := List.mem_map.1 h
    exact ⟨u, rfl, .inr (.inl hu)⟩
  · split at h
    · cases h
    · exact ⟨_, List.mem_singleton.1 h, .inr (.inr rfl)⟩

/-- **Splitting keeps the tokens of a text.** -/
theorem flatMap_tokens_split (t : Text) : (split t).flatMap tokens = tokens t := by
  rw [split_eq]
  split
  · simp
  · rw [List.flatMap_append, flatMap_tokens_trim, ← (tokens_scan t).1]
    split
    · next hblank => simp [(tokens_of_isBlankText hblank).1]
    · simp

/-- Where splitting leaves nothing, nothing but a block comment is left open. -/
theorem fault?_of_split_eq_nil {t : Text} (h : split t = []) :
    fault? t = none ∨ fault? t = some .comment := by
  rw [split_eq] at h
  split at h
  · cases h
  · have htail := (List.append_eq_nil_iff.1 h).2
    split at htail
    · next hblank =>
      rw [← (tokens_scan t).2]
      exact (tokens_of_isBlankText hblank).2
    · cases htail

/-- Statements have no blanks around them. -/
theorem trim_of_mem_split {t s : Text} (h : s ∈ split t) : Text.trim s = s := by
  obtain ⟨u, rfl, -⟩ := exists_of_mem_split h
  exact Text.trim_trim u

/-! ## Complete texts -/

/-- A text without quote characters and slashes is closed. -/
theorem closed_of_forall {t : Text} (h : ∀ c ∈ t, ¬ IsQuote c ∧ c ≠ '/') : Closed t := by
  cases hopen : (cut t).openEnd with
  | none => exact hopen
  | some found =>
    obtain ⟨fault, u⟩ := found
    obtain ⟨c, r, rfl, hread⟩ := exists_of_openEnd hopen
    have htext := flatMap_text_cut t
    simp only [Cut.openText, hopen] at htext
    have hc : c ∈ t := by
      rw [← htext]
      exact List.mem_append_right _ List.mem_cons_self
    rcases read_eq_error_iff.1 hread with ⟨hq, -⟩ | ⟨_, hslash, -⟩
    · exact ((h c hc).1 hq).elim
    · exact ((h c hc).2 hslash).elim

/-- Besides terminators, no sign is left by capitals in a command. -/
theorem not_mem_upper_command : ∀ c ∈ signs, ∀ cmd ∈ bareCommands, c.toUpper ∉ Text.upper cmd :=
  forall_signs.2 (by decide)

/-- Besides blanks and terminators, a single command of the client holds its letters only. -/
theorem mem_upper_of_isBareCommand {t : Text} {c : Char} (h : isBareCommand t) (hc : c ∈ t)
    (hblank : isBlank c = false) (hterminator : c ≠ ';') :
    ∃ cmd ∈ bareCommands, c.toUpper ∈ Text.upper cmd := by
  obtain ⟨cmd, hcmd, hsame⟩ := List.any_eq_true.1 h
  have hword : Text.upper (Text.trim (Text.dropTerminators (Text.trim t))) = Text.upper cmd :=
    beq_iff_eq.1 hsame
  have hplain : ¬ isBlank c := by simp [hblank]
  have htrim := (Text.mem_of_trim hc).resolve_right hplain
  have hdrop := (Text.mem_of_dropEndWhile (p := (· == ';')) htrim).resolve_right fun hdrop =>
    hterminator (beq_iff_eq.1 hdrop)
  refine ⟨cmd, hcmd, ?_⟩
  rw [← hword]
  exact List.mem_map_of_mem ((Text.mem_of_trim hdrop).resolve_right hplain)

/-- A single command of the client holds no sign besides terminators. -/
theorem closed_of_isBareCommand {t : Text} (h : isBareCommand t) : Closed t := by
  have hsign : ∀ c ∈ t, c ∈ signs → c = ';' := by
    intro c hc hs
    refine Decidable.byContradiction fun hterminator => ?_
    obtain ⟨cmd, hcmd, hmem⟩ :=
      mem_upper_of_isBareCommand h hc (isBlank_signs c hs) hterminator
    exact not_mem_upper_command c hs cmd hcmd hmem
  refine closed_of_forall fun c hc => ⟨fun hq => ?_, fun hslash => ?_⟩
  · exact ne_terminator_of_isQuote hq (hsign c hc hq.mem_signs)
  · subst hslash
    exact absurd (hsign '/' hc (by decide)) (by decide)

/-- Nothing is left open in a complete text. -/
theorem closed_of_isComplete {t : Text} (h : isComplete t) : Closed t := by
  unfold isComplete at h
  rcases Bool.or_eq_true_iff.1 h with hbare | hscan
  · exact closed_of_isBareCommand hbare
  · have hterminated : (Scan.ofText t).unterminated = false := by
      simp only [Bool.and_eq_true, Bool.not_eq_true'] at hscan
      exact hscan.1.1.1
    rw [unterminated_eq, Option.isSome_eq_false_iff, Option.isNone_iff_eq_none] at hterminated
    exact closed_iff.2 hterminated

theorem closed_of_mem_split {t s : Text} (ht : Closed t) (hs : s ∈ split t) : Closed s := by
  obtain ⟨u, rfl, hu⟩ := exists_of_mem_split hs
  rw [closed_iff, fault?_trim, ← closed_iff]
  rcases hu with rfl | hu | rfl
  · exact ht
  · exact ((terminated_of_scan t).1 u hu).closed
  · rw [closed_iff] at ht ⊢
    rw [(tokens_scan t).2, ht]

end SqlConsole.Script
