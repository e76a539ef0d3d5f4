import SqlConsole.Proofs.Script.Complete
/-!
# Blocks and the segments in them

A text that ends with its only terminator is a segment of whatever it stands in front of
(`segments_append`).  Segments that are joined by line feeds close a block exactly if the last of
them does by itself (`closesBlock_append`), so a block that has been opened stays open until a
segment closes it (`group_open`, `group_close`).
-/

namespace SqlConsole

namespace Text

theorem dropEndWhile_append_of_ne_nil {p : Char → Bool} {t : Text} (h : dropEndWhile p t ≠ [])
    (s : Text) : dropEndWhile p (s ++ t) = s ++ dropEndWhile p t := by
  have hne : (t.reverse.dropWhile p).isEmpty = false := by
    rw [List.isEmpty_eq_false_iff]
    exact fun hnil => h (by rw [dropEndWhile, hnil]; rfl)
  rw [dropEndWhile, List.reverse_append, List.dropWhile_append, if_neg (by simp [hne])]
  simp [dropEndWhile]

theorem dropEndWhile_of_getLast? {p : Char → Bool} {t : Text} (h : ∀ c ∈ t.getLast?, p c = false) :
    dropEndWhile p t = t := by
  rw [dropEndWhile, dropWhile_eq_self, List.reverse_reverse]
  rw [List.head?_reverse]
  exact h

theorem dropEndWhile_concat {p : Char → Bool} {c : Char} (h : p c) (t : Text) :
    dropEndWhile p (t ++ [c]) = dropEndWhile p t := by
  simp [dropEndWhile, h]

/-- A character that is not dropped protects all that stands in front of it. -/
theorem prefix_dropEndWhile {p : Char → Bool} {t x : Text} {c : Char} (hc : p c = false)
    (h : x ++ [c] <+: t) : x ++ [c] <+: dropEndWhile p t := by
  obtain ⟨r, hr⟩ := h
  have ht := dropEndWhile_append p t
  rw [← hr] at ht
  rcases List.append_eq_append_iff.1 ht with ⟨kept, hx, hdropped⟩ | ⟨kept, hkept, -⟩
  · rcases List.eq_nil_or_concat kept with rfl | ⟨kept, d, rfl⟩
    · rw [List.append_nil, hr] at hx
      exact ⟨[], by rw [List.append_nil, hx]⟩
    · exfalso
      have hd : d = c := by
        rw [List.concat_eq_append, ← List.append_assoc] at hx
        exact (List.singleton_inj.1 (List.append_inj_right' hx rfl)).symm
      have hmem : c ∈ (t.reverse.takeWhile p).reverse := by
        rw [← hr, hdropped, ← hd]
        simp
      have hdrop := List.all_eq_true.1 List.all_takeWhile c (List.mem_reverse.1 hmem)
      rw [hc] at hdrop
      cases hdrop
  · rw [← hr, hkept]
    exact List.prefix_append _ _

theorem trim_of_ends {t : Text} (hhead : ∀ c ∈ t.head?, isBlank c = false)
    (hlast : ∀ c ∈ t.getLast?, isBlank c = false) : trim t = t := by
  rw [trim, dropAround, dropWhile_eq_self hhead, dropEndWhile_of_getLast? hlast]

theorem dropAround_cons {p : Char → Bool} {c : Char} (h : p c) (t : Text) :
    dropAround p (c :: t) = dropAround p t := by
  rw [dropAround, List.dropWhile_cons_of_pos h]
  rfl

theorem dropAround_concat {p : Char → Bool} {c : Char} (h : p c) (t : Text) :
    dropAround p (t ++ [c]) = dropAround p t := by
  rw [dropAround, List.dropWhile_append]
  split
  · next hnil =>
    rw [dropAround, List.isEmpty_iff.1 hnil, List.dropWhile_cons_of_pos h]
    rfl
  · exact dropEndWhile_concat h _

theorem trim_cons {b : Char} (hb : isBlank b) (t : Text) : trim (b :: t) = trim t :=
  dropAround_cons hb t

theorem trim_concat {b : Char} (hb : isBlank b) (t : Text) : trim (t ++ [b]) = trim t :=
  dropAround_concat hb t

end Text

namespace Piece

/-- Nothing is cut off behind a terminator. -/
theorem Terminated.trim_eq {t : Text} (h : Terminated t)
    (hhead : ∀ c ∈ t.head?, isBlank c = false) : Text.trim t = t := by
  refine Text.trim_of_ends hhead fun d hd => ?_
  obtain ⟨ps, hcut⟩ := h
  have hclosed : Closed t := by
    rw [Closed, hcut]
  have htext := hclosed.flatMap_text
  rw [hcut, List.flatMap_append] at htext
  rw [← htext] at hd
  change d ∈ (_ ++ [';']).getLast? at hd
  rw [List.getLast?_concat] at hd
  obtain rfl := Option.some.inj hd
  decide

end Piece

namespace Script

open Piece

/-! ## Segments -/

/-- A text with a terminator on a line of its own behind it. -/
def terminated (s : Text) : Text := s ++ ['\n', ';']

/-- A text that ends with its only terminator. -/
def IsSegment (t : Text) : Prop :=
  ∃ init, cut t = ⟨init ++ [.token (.symbol ';') [';']], none⟩ ∧
    ∀ p ∈ init, p.isTerminator = false

theorem IsSegment.terminated {t : Text} (h : IsSegment t) : Terminated t := by
  obtain ⟨init, hcut, -⟩ := h
  exact ⟨init, hcut⟩

theorem isTerminator_iff {p : Piece} : p.isTerminator ↔ p.token? = some (.symbol ';') := by
  cases p with
  | token k lexeme => cases k <;> simp [isTerminator, token?]
  | _ => simp [isTerminator, token?]

theorem isTerminator_of_not_mem {t : Text} (h : .symbol ';' ∉ tokens t) :
    ∀ p ∈ (cut t).pieces, p.isTerminator = false := by
  intro p hp
  rw [← Bool.not_eq_true, isTerminator_iff]
  exact fun htoken => h (List.mem_filterMap.2 ⟨p, hp, htoken⟩)

/-- Behind a closed line the pieces begin anew. -/
theorem cut_line_append {line : Text} (h : Closed line) (t : Text) :
    cut (line ++ '\n' :: t) =
      ⟨(cut line).pieces ++ .blank '\n' :: (cut t).pieces, (cut t).openEnd⟩ := by
  have hline : Closed (line ++ ['\n']) := by
    rw [Closed, cut_concat_newline h]
  have hseam : ∀ p ∈ (cut (line ++ ['\n'])).pieces.getLast?, Seam p t := by
    intro p hp d _
    rw [cut_concat_newline h, List.getLast?_concat] at hp
    obtain rfl := Option.some.inj hp
    rfl
  have hcut := cut_append hline hseam
  rw [cut_concat_newline h] at hcut
  simpa using hcut

theorem cut_terminated {s : Text} (h : Closed s) :
    cut (Script.terminated s) =
      ⟨(cut s).pieces ++ [.blank '\n', .token (.symbol ';') [';']], none⟩ := by
  have hread : read ';' [] = .ok (.token (.symbol ';') [';'], []) := rfl
  rw [Script.terminated, cut_line_append h, cut_of_read hread, cut_nil]

theorem isSegment_terminated {s : Text} (h : Closed s) (hnone : .symbol ';' ∉ tokens s) :
    IsSegment (Script.terminated s) := by
  refine ⟨(cut s).pieces ++ [.blank '\n'], by simp [cut_terminated h], ?_⟩
  intro p hp
  rcases List.mem_append.1 hp with hp | hp
  · exact isTerminator_of_not_mem hnone p hp
  · rw [List.mem_singleton.1 hp]
    rfl

/-- A line in front of a segment belongs to it. -/
theorem IsSegment.line_append {line t : Text} (h : IsSegment t) (hline : Closed line)
    (hnone : .symbol ';' ∉ tokens line) : IsSegment (line ++ '\n' :: t) := by
  obtain ⟨init, hcut, hinit⟩ := h
  refine ⟨(cut line).pieces ++ .blank '\n' :: init, by simp [cut_line_append hline, hcut], ?_⟩
  intro p hp
  rcases List.mem_append.1 hp with hp | hp
  · exact isTerminator_of_not_mem hnone p hp
  · rcases List.mem_cons.1 hp with rfl | hp
    · rfl
    · exact hinit p hp

theorem parts_segment {init : List Piece} (h : ∀ p ∈ init, p.isTerminator = false)
    (ps : List Piece) :
    parts (init ++ .token (.symbol ';') [';'] :: ps) =
      ((init ++ [.token (.symbol ';') [';']]) :: (parts ps).1, (parts ps).2) := by
  induction init with
  | nil => rfl
  | cons p init ih =>
    have hp : p.isTerminator = false := h p List.mem_cons_self
    rw [List.cons_append, parts, if_neg (by simp [hp]),
      ih fun q hq => h q (List.mem_cons_of_mem p hq)]
    rfl

/-- A text that ends with its only terminator is the first segment of what it stands in front of. -/
theorem segments_append {t : Text} (h : IsSegment t) (u : Text) :
    (segments .plain (t ++ u)).ended = t :: (segments .plain u).ended ∧
      (segments .plain (t ++ u)).rest = (segments .plain u).rest := by
  have hcut := h.terminated.cut_append u
  obtain ⟨init, ht, hinit⟩ := h
  obtain ⟨region, -, hu⟩ := segments_eq u
  obtain ⟨region', -, htu⟩ := segments_eq (t ++ u)
  have htext : init.flatMap text ++ [';'] = t := by
    have hclosed : Closed t := by
      rw [Closed, ht]
    have hflat := hclosed.flatMap_text
    rw [ht] at hflat
    simpa [text] using hflat
  have hpieces : (cut (t ++ u)).pieces =
      init ++ .token (.symbol ';') [';'] :: (cut u).pieces := by
    rw [hcut, ht, List.append_assoc, List.singleton_append]
  have hopen : (cut (t ++ u)).openText = (cut u).openText := by
    rw [hcut]
    rfl
  rw [htu, hu, assemble, assemble, hpieces, hopen, parts_segment hinit]
  refine ⟨?_, rfl⟩
  show (init ++ [Piece.token (.symbol ';') [';']]).flatMap text :: _ = _
  rw [List.flatMap_append]
  exact congrArg (· :: _) htext

theorem segments_flatten_append {ts : List Text} (h : ∀ t ∈ ts, IsSegment t) (u : Text) :
    (segments .plain (ts.flatten ++ u)).ended = ts ++ (segments .plain u).ended ∧
      (segments .plain (ts.flatten ++ u)).rest = (segments .plain u).rest := by
  induction ts with
  | nil => exact ⟨rfl, rfl⟩
  | cons t ts ih =>
    obtain ⟨hended, hrest⟩ := ih fun v hv => h v (List.mem_cons_of_mem t hv)
    obtain ⟨hended', hrest'⟩ := segments_append (h t List.mem_cons_self) (ts.flatten ++ u)
    rw [List.flatten_cons, List.append_assoc, hended', hrest', hended, hrest]
    exact ⟨rfl, rfl⟩

theorem parts_prefix (ps qs : List Piece) : (parts ps).1 <+: (parts (ps ++ qs)).1 := by
  induction ps with
  | nil => exact List.nil_prefix
  | cons p ps ih =>
    rw [List.cons_append, parts, parts]
    split
    · exact List.prefix_cons_inj _ |>.2 ih
    · obtain ⟨more, hmore⟩ := ih
      generalize parts ps = found at hmore
      generalize parts (ps ++ qs) = found' at hmore
      obtain ⟨done, rest⟩ := found
      obtain ⟨done', rest'⟩ := found'
      dsimp only at hmore
      subst hmore
      cases done with
      | nil => exact List.nil_prefix
      | cons part done => exact ⟨more, rfl⟩

/-- The segments of some lines are the first segments of what begins with these lines. -/
theorem ended_prefix {t : Text} (h : Closed t) (u : Text) :
    (segments .plain (t ++ ['\n'])).ended <+: (segments .plain (t ++ '\n' :: u)).ended := by
  obtain ⟨region, -, ht⟩ := segments_eq (t ++ ['\n'])
  obtain ⟨region', -, htu⟩ := segments_eq (t ++ '\n' :: u)
  have hinitial := parts_prefix (cut (t ++ ['\n'])).pieces (cut u).pieces
  rw [cut_concat_newline h] at hinitial
  rw [ht, htu, assemble, assemble, cut_concat_newline h, cut_line_append h]
  simpa using hinitial.map _

/-! ## Open and closed blocks -/

/-- A text without the terminators and blanks behind it, as it is looked at for the end of a
block. -/
def bare (t : Text) : Text := Text.trimEnd (Text.dropTerminators (Text.trimEnd t))

theorem bare_append {t : Text} (h : bare t ≠ []) (s : Text) : bare (s ++ t) = s ++ bare t := by
  have hterminators : Text.dropTerminators (Text.trimEnd t) ≠ [] := by
    intro hnil
    rw [bare, hnil] at h
    exact h rfl
  have htrim : Text.trimEnd t ≠ [] := by
    intro hnil
    rw [hnil] at hterminators
    exact hterminators rfl
  have hinner : Text.trimEnd (s ++ t) = s ++ Text.trimEnd t :=
    Text.dropEndWhile_append_of_ne_nil htrim s
  have hmiddle : Text.dropTerminators (s ++ Text.trimEnd t) =
      s ++ Text.dropTerminators (Text.trimEnd t) :=
    Text.dropEndWhile_append_of_ne_nil hterminators s
  rw [bare, hinner, hmiddle]
  exact Text.dropEndWhile_append_of_ne_nil h s

/-- A character that is neither blank nor a terminator stays, with all that is in front of it. -/
theorem length_bare {t x : Text} {c : Char} (hblank : isBlank c = false) (hc : c ≠ ';')
    (h : x ++ [c] <+: t) : x.length + 1 ≤ (bare t).length := by
  have hterminator : (c == ';') = false := beq_eq_false_iff_ne.2 hc
  have hinitial : x ++ [c] <+: bare t :=
    Text.prefix_dropEndWhile hblank
      (Text.prefix_dropEndWhile (p := (· == ';')) hterminator (Text.prefix_dropEndWhile hblank h))
  have hlength := hinitial.length_le
  simpa using hlength

theorem closesBlock_of_reverse {t before : Text} {d n e : Char}
    (h : (bare t).reverse = d :: n :: e :: before) :
    closesBlock t =
      (Text.upper [e, n, d] == ("END" : Text) &&
        before.head?.all fun c => isBlank c || c == ';') := by
  unfold closesBlock
  split
  · next heq =>
    change (bare t).reverse = _ at heq
    rw [h] at heq
    cases heq
    rfl
  · next hne => exact (hne d n e before h).elim

/-- Of lines with more than two letters, the last one decides whether a block is closed. -/
theorem closesBlock_append {t : Text} (h : 3 ≤ (bare t).length) (s : Text) :
    closesBlock (s ++ '\n' :: t) = closesBlock t := by
  have hne : bare t ≠ [] := by
    intro hnil
    rw [hnil] at h
    cases h
  have hbare : bare (s ++ '\n' :: t) = s ++ '\n' :: bare t := by
    rw [← List.singleton_append, ← List.append_assoc, bare_append hne]
    simp
  match hreverse : (bare t).reverse with
  | d :: n :: e :: before =>
    have hreverse' : (bare (s ++ '\n' :: t)).reverse =
        d :: n :: e :: (before ++ '\n' :: s.reverse) := by
      rw [hbare, List.reverse_append, List.reverse_cons, hreverse]
      simp
    rw [closesBlock_of_reverse hreverse, closesBlock_of_reverse hreverse']
    cases before with
    | nil => simp [show isBlank '\n' from isBlank_newline]
    | cons c before => rfl
  | [] | [_] | [_, _] =>
    have hlength := congrArg List.length hreverse
    simp only [List.length_reverse, List.length_cons, List.length_nil] at hlength
    omega

/-- A block stays open while no line closes it. -/
theorem group_open {ys : List Text}
    (h : ∀ y ∈ ys, 3 ≤ (bare y).length ∧ closesBlock y = false) (block : Text) :
    group (some block) (ys.map ('\n' :: ·)) = ⟨[], some (block ++ ys.flatMap ('\n' :: ·))⟩ := by
  induction ys generalizing block with
  | nil => simp [group]
  | cons y ys ih =>
    obtain ⟨hlong, hy⟩ := h y List.mem_cons_self
    have hopen : closesBlock (block ++ '\n' :: y) = false :=
      (closesBlock_append hlong block).trans hy
    have hrest := ih (fun z hz => h z (List.mem_cons_of_mem y hz)) (block ++ '\n' :: y)
    rw [List.map_cons, group, if_neg (by simp [hopen]), hrest, List.flatMap_cons, List.append_assoc]

/-- The line that closes a block ends a statement. -/
theorem group_close {ys : List Text} {last : Text}
    (h : ∀ y ∈ ys, 3 ≤ (bare y).length ∧ closesBlock y = false) (hlong : 3 ≤ (bare last).length)
    (hlast : closesBlock last) (block : Text) :
    group (some block) ((ys ++ [last]).map ('\n' :: ·)) =
      ⟨[block ++ (ys ++ [last]).flatMap ('\n' :: ·)], none⟩ := by
  induction ys generalizing block with
  | nil =>
    have hclosed : closesBlock (block ++ '\n' :: last) :=
      (closesBlock_append hlong block).trans hlast
    simp [group, hclosed]
  | cons y ys ih =>
    obtain ⟨hlong', hy⟩ := h y List.mem_cons_self
    have hopen : closesBlock (block ++ '\n' :: y) = false :=
      (closesBlock_append hlong' block).trans hy
    have hrest := ih (fun z hz => h z (List.mem_cons_of_mem y hz)) (block ++ '\n' :: y)
    rw [List.cons_append, List.map_cons, group, if_neg (by simp [hopen]), hrest, List.flatMap_cons,
      List.append_assoc]

/-! ## Lines of segments -/

theorem join_cons (y : Text) (ys : List Text) :
    Text.join ['\n'] (y :: ys) = y ++ ys.flatMap ('\n' :: ·) := by
  induction ys generalizing y with
  | nil => simp [Text.join]
  | cons z ys ih =>
    have hz := ih z
    rw [Text.join] at hz ⊢
    rw [List.intercalate_cons_cons, hz]
    simp

theorem flatMap_newline {ys : List Text} (h : ys ≠ []) :
    ys.flatMap ('\n' :: ·) = '\n' :: Text.join ['\n'] ys := by
  cases ys with
  | nil => exact (h rfl).elim
  | cons y ys => rw [join_cons, List.flatMap_cons, List.cons_append]

theorem join_concat {ys : List Text} (h : ys ≠ []) (z : Text) :
    Text.join ['\n'] (ys ++ [z]) = Text.join ['\n'] ys ++ '\n' :: z := by
  cases ys with
  | nil => exact (h rfl).elim
  | cons y ys => simp [join_cons]

theorem not_mem_join {c : Char} (hc : c ≠ '\n') {ys : List Text} (h : ∀ y ∈ ys, c ∉ y) :
    c ∉ Text.join ['\n'] ys := by
  cases ys with
  | nil => simp [Text.join]
  | cons y ys =>
    rw [join_cons]
    simp only [List.mem_append, List.mem_flatMap, List.mem_cons, not_or, not_exists, not_and]
    exact ⟨h y List.mem_cons_self, fun z hz => ⟨hc, h z (List.mem_cons_of_mem y hz)⟩⟩

theorem sublist_join {y : Text} {ys : List Text} (h : y ∈ ys) :
    y.Sublist (Text.join ['\n'] ys) := by
  cases ys with
  | nil => cases h
  | cons z ys =>
    rw [join_cons]
    rcases List.mem_cons.1 h with rfl | h
    · exact List.sublist_append_left _ _
    · have hline : ('\n' :: y) ∈ ys.map ('\n' :: ·) := List.mem_map_of_mem h
      rw [List.flatMap_def]
      exact ((List.sublist_cons_self _ _).trans (List.sublist_flatten_of_mem hline)).trans
        (List.sublist_append_right _ _)

/-- The segments of lines that each end with their only terminator, behind a text that belongs to
the first of them. -/
def lineSegments (front : Text) : List Text → List Text
  | [] => []
  | y :: ys => (front ++ y) :: ys.map ('\n' :: ·)

theorem flatten_lineSegments {ys : List Text} (h : ys ≠ []) (front : Text) :
    (lineSegments front ys).flatten = front ++ Text.join ['\n'] ys := by
  cases ys with
  | nil => exact (h rfl).elim
  | cons y ys => simp [lineSegments, join_cons, List.flatMap_def]

theorem isSegment_of_mem_lineSegments (front : Text) {ys : List Text}
    (hfront : ∀ y, IsSegment y → IsSegment (front ++ y)) (h : ∀ y ∈ ys, IsSegment y) :
    ∀ s ∈ lineSegments front ys, IsSegment s := by
  cases ys with
  | nil => exact fun s hs => by cases hs
  | cons y ys =>
    intro s hs
    rcases List.mem_cons.1 hs with rfl | hs
    · exact hfront y (h y List.mem_cons_self)
    · obtain ⟨z, hz, rfl⟩ := List.mem_map.1 hs
      have hnil : Closed [] := by
        rw [closed_iff, fault?_nil]
      have hline := (h z (List.mem_cons_of_mem y hz)).line_append hnil (by simp)
      simpa using hline

theorem terminated_flatten {ts : List Text} (hne : ts ≠ []) (h : ∀ t ∈ ts, Terminated t) :
    Terminated ts.flatten := by
  induction ts with
  | nil => exact (hne rfl).elim
  | cons t ts ih =>
    have ht := h t List.mem_cons_self
    by_cases hts : ts = []
    · rw [hts, List.flatten_cons, List.flatten_nil, List.append_nil]
      exact ht
    · exact ht.append (ih hts fun u hu => h u (List.mem_cons_of_mem t hu))

/-- Lines that each end with their only terminators, as a text. -/
theorem terminated_join {ys : List Text} (hne : ys ≠ []) (h : ∀ y ∈ ys, IsSegment y) :
    Terminated (Text.join ['\n'] ys) := by
  have hsegments := isSegment_of_mem_lineSegments [] (fun y hy => hy) h
  have hnonempty : lineSegments [] ys ≠ [] := by
    cases ys with
    | nil => exact (hne rfl).elim
    | cons y ys => exact List.cons_ne_nil _ _
  have hflatten := terminated_flatten hnonempty fun s hs => (hsegments s hs).terminated
  rwa [flatten_lineSegments hne, List.nil_append] at hflatten

theorem tokens_join_segments {ys : List Text} (h : ∀ y ∈ ys, IsSegment y) :
    tokens (Text.join ['\n'] ys) = ys.flatMap tokens := by
  induction ys with
  | nil => simp [Text.join]
  | cons y ys ih =>
    have hrest : tokens (ys.flatMap ('\n' :: ·)) = ys.flatMap tokens := by
      rw [← ih fun z hz => h z (List.mem_cons_of_mem y hz)]
      cases ys with
      | nil => simp [Text.join]
      | cons z ys => rw [join_cons, List.flatMap_cons, List.cons_append,
          tokens_cons_of_isBlank isBlank_newline]
    rw [join_cons, (h y List.mem_cons_self).terminated.tokens_append, hrest, List.flatMap_cons]

/-- The first segments are those of the first lines. -/
theorem exists_of_prefix_lineSegments {front : Text} {ys es : List Text}
    (h : es <+: lineSegments front ys) : ∃ zs, zs <+: ys ∧ es = lineSegments front zs := by
  cases es with
  | nil => exact ⟨[], List.nil_prefix, rfl⟩
  | cons e es =>
    cases ys with
    | nil => cases List.prefix_nil.1 h
    | cons y ys =>
      obtain ⟨rfl, hes⟩ := List.cons_prefix_cons.1 h
      have htake := List.prefix_iff_eq_take.1 hes
      rw [← List.map_take] at htake
      refine ⟨y :: ys.take es.length, List.cons_prefix_cons.2 ⟨rfl, List.take_prefix _ _⟩, ?_⟩
      rw [lineSegments, ← htake]

/-- No command of the client has an `S` in it. -/
theorem isBareCommand_eq_false {t : Text} {c : Char} (hc : c ∈ t) (hupper : c.toUpper = 'S') :
    isBareCommand t = false := by
  have hletter : 'A' ≤ c.toUpper ∧ c.toUpper ≤ 'Z' := by
    rw [hupper]
    decide
  obtain ⟨-, hblank, -⟩ := beginsWord_of_toUpper hletter
  have hterminator : c ≠ ';' := by
    rintro rfl
    exact absurd hupper (by decide)
  have hnone : ∀ cmd ∈ bareCommands, 'S' ∉ Text.upper cmd := by decide
  cases hbare : isBareCommand t with
  | false => rfl
  | true =>
    obtain ⟨cmd, hcmd, hmem⟩ := mem_upper_of_isBareCommand hbare hc hblank hterminator
    rw [hupper] at hmem
    exact (hnone cmd hcmd hmem).elim

/-- Lines that each end with their only terminators are statements, if none begins a block. -/
theorem split_lines {ys : List Text} (hne : ys ≠ []) (hseg : ∀ y ∈ ys, IsSegment y)
    (htrim : ∀ y ∈ ys, Text.trim y = y) (hopens : ∀ s ∈ lineSegments [] ys, opensBlock s = false)
    (hbare : isBareCommand (Text.join ['\n'] ys) = false) :
    split (Text.join ['\n'] ys) = ys := by
  have hflatten : (lineSegments [] ys).flatten ++ [] = Text.join ['\n'] ys := by
    rw [List.append_nil, flatten_lineSegments hne, List.nil_append]
  obtain ⟨hended, hrest⟩ := segments_flatten_append
    (isSegment_of_mem_lineSegments [] (fun y hy => hy) hseg) ([] : Text)
  rw [hflatten] at hended hrest
  have hgroup : group none (segments .plain (Text.join ['\n'] ys)).ended =
      ⟨lineSegments [] ys, none⟩ := by
    rw [hended]
    simpa [segments] using group_of_not_opensBlock hopens
  have htrimmed : (lineSegments [] ys).map Text.trim = ys := by
    cases ys with
    | nil => rfl
    | cons y ys =>
      have hys : ys.map (Text.trim ∘ ('\n' :: ·)) = ys.map id := by
        refine List.map_congr_left fun z hz => ?_
        exact (Text.trim_cons isBlank_newline z).trans (htrim z (List.mem_cons_of_mem y hz))
      rw [lineSegments, List.nil_append, List.map_cons, List.map_map, hys, List.map_id,
        htrim y List.mem_cons_self]
  rw [split_eq, hbare, ofText_eq hgroup, hrest]
  simp [Scan.tail, segments, htrimmed, isBlankText_iff]

/-! ## Blocks of lines -/

/-- The line that begins a block. -/
def opening : Text := "EXECUTE STATEMENT SET BEGIN"

/-- The line that ends a block. -/
def closing : Text := "END;"

theorem closed_opening : Closed opening := closed_iff.2 (by decide +kernel)

theorem tokens_opening : tokens opening =
    [.word "EXECUTE", .word "STATEMENT", .word "SET", .word "BEGIN"] := by decide +kernel

theorem skipComments_opening (t : Text) : skipComments (opening ++ t) = opening ++ t := by
  rw [skipComments]
  rfl

theorem opensBlock_opening (t : Text) : opensBlock (opening ++ '\n' :: t) := by
  have hwords : Text.words opening =
      (["EXECUTE", "STATEMENT", "SET", "BEGIN"] : List Text) := by decide +kernel
  rw [opensBlock, leadingWords, skipComments_opening, Text.words_append_cons isBlank_newline,
    hwords]
  rfl

/-- The opening words of a block with lines behind them. -/
def blockOf (ys : List Text) : Text := opening ++ '\n' :: Text.join ['\n'] ys

theorem isSegment_opening {y : Text} (h : IsSegment y) : IsSegment (opening ++ ['\n'] ++ y) := by
  have hline := h.line_append closed_opening (by rw [tokens_opening]; decide)
  simpa using hline

/-- The segments of a block. -/
def blockSegments (ys : List Text) : List Text := lineSegments (opening ++ ['\n']) ys

/-- Where no line closes the block it is open. -/
theorem group_blockSegments_open {ys : List Text} (hne : ys ≠ [])
    (h : ∀ y ∈ ys, 3 ≤ (bare y).length ∧ closesBlock y = false) :
    ∃ block, group none (blockSegments ys) = ⟨[], some block⟩ := by
  cases ys with
  | nil => exact (hne rfl).elim
  | cons y ys =>
    obtain ⟨hlong, hy⟩ := h y List.mem_cons_self
    have hopen : closesBlock (opening ++ '\n' :: y) = false :=
      (closesBlock_append hlong opening).trans hy
    rw [blockSegments, lineSegments, List.append_assoc, List.singleton_append, group,
      if_pos (by simp [hopen, opensBlock_opening]),
      group_open fun z hz => h z (List.mem_cons_of_mem y hz)]
    exact ⟨_, rfl⟩

/-- The first line that closes the block ends it. -/
theorem group_blockSegments_close {ys : List Text} {last : Text}
    (h : ∀ y ∈ ys, 3 ≤ (bare y).length ∧ closesBlock y = false) (hlong : 3 ≤ (bare last).length)
    (hlast : closesBlock last) :
    group none (blockSegments (ys ++ [last])) = ⟨[blockOf (ys ++ [last])], none⟩ := by
  cases ys with
  | nil =>
    have hclosed : closesBlock (opening ++ '\n' :: last) :=
      (closesBlock_append hlong opening).trans hlast
    simp [blockOf, blockSegments, lineSegments, group, hclosed, join_cons]
  | cons y ys =>
    obtain ⟨hlong', hy⟩ := h y List.mem_cons_self
    have hopen : closesBlock (opening ++ '\n' :: y) = false :=
      (closesBlock_append hlong' opening).trans hy
    rw [List.cons_append, blockSegments, lineSegments, List.append_assoc, List.singleton_append,
      group, if_pos (by simp [hopen, opensBlock_opening]),
      group_close (fun z hz => h z (List.mem_cons_of_mem y hz)) hlong hlast, blockOf, join_cons,
      List.append_assoc, List.cons_append]

end Script

end SqlConsole
