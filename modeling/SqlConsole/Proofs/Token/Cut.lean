import SqlConsole.Proofs.Token.Pieces
/-!
# Cutting texts behind each other

The pieces of a text are glued (`glued_of_cut`), and glued pieces are what the lexer cuts their
text into (`cut_of_glued`).  A text that is cut to its end is *closed*; behind a closed text the
lexer begins anew wherever its last piece ends, so the pieces of two texts add up
(`cut_append`).  Blanks around a text change neither its tokens nor its fault (`tokens_trim`,
`fault?_trim`).
-/

namespace SqlConsole.Piece

/-! ## Steps of the cut -/

theorem cut_of_read {c : Char} {r rest : Text} {p : Piece} (h : read c r = .ok (p, rest)) :
    cut (c :: r) = ⟨p :: (cut rest).pieces, (cut rest).openEnd⟩ := by
  rw [cut]
  split
  · next herr => rw [h] at herr; cases herr
  · next hok => rw [h] at hok; cases hok; rfl

theorem cut_of_fault {c : Char} {r : Text} {fault : Unclosed} (h : read c r = .error fault) :
    cut (c :: r) = ⟨[], some (fault, c :: r)⟩ := by
  rw [cut]
  split
  · next herr => rw [h] at herr; cases herr; rfl
  · next hok => rw [h] at hok; cases hok

/-- What is opened and never closed: a quoted text or a block comment. -/
theorem read_eq_error_iff {c : Char} {r : Text} {fault : Unclosed} :
    read c r = .error fault ↔
      (IsQuote c ∧ closeQuote? c r = none ∧ fault = quotedFault c) ∨
      (∃ t, c = '/' ∧ r = '*' :: t ∧ closeComment? t = none ∧ fault = .comment) := by
  by_cases hq : IsQuote c
  · have hslash : c ≠ '/' := by rcases hq with rfl | rfl | rfl <;> decide
    rw [read_of_isQuote hq, readQuoted]
    cases hclose : closeQuote? c r with
    | none => simp [hq, hslash, eq_comm]
    | some found => simp [hslash]
  · constructor
    · intro h
      have hne : ¬ c = '\'' := fun hc => hq (.inl hc)
      have hne' : ¬ (c = '`' ∨ c = '"') := fun hc => hq (.inr hc)
      unfold read at h
      rw [if_neg hne, if_neg hne'] at h
      split at h
      · cases h
      split at h
      · cases h
      split at h
      · next hc =>
        obtain ⟨rfl, hr⟩ := hc
        obtain ⟨t, rfl⟩ := List.head?_eq_some_iff.1 hr
        simp only [List.tail_cons] at h
        split at h
        · cases h
        · next hclose => cases h; exact .inr ⟨t, rfl, rfl, hclose, rfl⟩
      repeat' split at h
      all_goals cases h
    · rintro (⟨hq', -⟩ | ⟨t, rfl, rfl, hclose, rfl⟩)
      · exact (hq hq').elim
      · simp [read, hclose, isBlank_signs '/' (by decide)]

/-! ## Glued pieces -/

/-- Pieces that can stand behind each other, in front of a text. -/
def Glued : List Piece → Text → Prop
  | [], _ => True
  | p :: ps, rest => p.WellFormed ∧ Seam p (ps.flatMap text ++ rest) ∧ Glued ps rest

theorem WellFormed.text_ne_nil {p : Piece} (h : p.WellFormed) : p.text ≠ [] := by
  cases h <;> simp [text, quote]

/-- The lexer cuts glued pieces as they are. -/
theorem cut_of_glued {ps : List Piece} {rest : Text} (h : Glued ps rest) :
    cut (ps.flatMap text ++ rest) = ⟨ps ++ (cut rest).pieces, (cut rest).openEnd⟩ := by
  induction ps with
  | nil => rfl
  | cons p ps ih =>
    obtain ⟨hwf, hseam, hglued⟩ := h
    obtain ⟨c, t, htext⟩ := List.exists_cons_of_ne_nil hwf.text_ne_nil
    have hread : read c (t ++ (ps.flatMap text ++ rest)) = .ok (p, ps.flatMap text ++ rest) :=
      read_eq_ok_iff.2 ⟨hwf, hseam, by rw [htext]; rfl⟩
    have hcut := cut_of_read hread
    rw [ih hglued] at hcut
    simpa [htext] using hcut

theorem glued_of_cut (t : Text) : Glued (cut t).pieces (cut t).openText := by
  fun_induction cut t with
  | case1 => trivial
  | case2 => trivial
  | case3 c r p rest hread tail ih =>
    obtain ⟨hwf, hseam, -⟩ := read_eq_ok_iff.1 hread
    have hrest : tail.pieces.flatMap text ++ tail.openText = rest := flatMap_text_cut rest
    refine ⟨hwf, ?_, ih⟩
    rw [← hrest] at hseam
    exact hseam

theorem glued_append {ps qs : List Piece} {rest : Text} :
    Glued (ps ++ qs) rest ↔ Glued ps (qs.flatMap text ++ rest) ∧ Glued qs rest := by
  induction ps with
  | nil => simp [Glued]
  | cons p ps ih => simp [Glued, ih, and_assoc]

theorem Glued.wellFormed {ps : List Piece} {rest : Text} (h : Glued ps rest) :
    ∀ p ∈ ps, p.WellFormed := by
  induction ps with
  | nil => simp
  | cons p ps ih =>
    obtain ⟨hwf, -, hps⟩ := h
    exact List.forall_mem_cons.2 ⟨hwf, ih hps⟩

/-- Only the last of glued pieces touches what follows them. -/
theorem Glued.replace {ps : List Piece} {rest other : Text} (h : Glued ps rest)
    (hseam : ∀ p ∈ ps.getLast?, Seam p other) : Glued ps other := by
  induction ps with
  | nil => trivial
  | cons p ps ih =>
    obtain ⟨hwf, hp, hps⟩ := h
    cases ps with
    | nil => exact ⟨hwf, by simpa using hseam, trivial⟩
    | cons q qs =>
      refine ⟨hwf, ?_, ih hps (by simpa using hseam)⟩
      obtain ⟨c, t, htext⟩ := List.exists_cons_of_ne_nil hps.1.text_ne_nil
      simpa [Seam, htext] using hp

theorem Glued.of_head? {ps : List Piece} {rest other : Text} (h : Glued ps rest)
    (hhead : other.head? = rest.head?) : Glued ps other := by
  induction ps with
  | nil => trivial
  | cons p ps ih =>
    obtain ⟨hwf, hp, hps⟩ := h
    refine ⟨hwf, ?_, ih hps⟩
    simpa [Seam, List.head?_append, hhead] using hp

/-! ## Texts that are cut to their end -/

/-- A text in which nothing is left open. -/
def Closed (t : Text) : Prop := (cut t).openEnd = none

theorem Closed.flatMap_text {t : Text} (h : Closed t) : (cut t).pieces.flatMap text = t := by
  have htext := flatMap_text_cut t
  rw [Cut.openText, h] at htext
  simpa using htext

/-- Pieces of a text that follow each other are the pieces of their own text. -/
theorem cut_of_pieces_eq_infix {t : Text} {before ps behind : List Piece}
    (h : (cut t).pieces = before ++ ps ++ behind) : cut (ps.flatMap text) = ⟨ps, none⟩ := by
  have hglued := glued_of_cut t
  rw [h, glued_append, glued_append] at hglued
  have halone : Glued ps [] := hglued.1.2.replace fun p _ => seam_nil p
  simpa using cut_of_glued halone

/-- Behind a closed text whose last piece ends there, the lexer begins anew. -/
theorem cut_append {s t : Text} (hs : Closed s) (hseam : ∀ p ∈ (cut s).pieces.getLast?, Seam p t) :
    cut (s ++ t) = ⟨(cut s).pieces ++ (cut t).pieces, (cut t).openEnd⟩ := by
  have hcut := cut_of_glued ((glued_of_cut s).replace hseam)
  rwa [hs.flatMap_text] at hcut

/-! ## Texts with an open end -/

/-- The open end of a text begins with something that is never closed. -/
theorem exists_of_openEnd {t u : Text} {fault : Unclosed} (h : (cut t).openEnd = some (fault, u)) :
    ∃ c r, u = c :: r ∧ read c r = .error fault := by
  fun_induction cut t with
  | case1 => cases h
  | case2 c r fault' herr => cases h; exact ⟨c, r, rfl, herr⟩
  | case3 c r p rest hread tail ih => exact ih h

/-- What follows a text with an open end is read as a part of that end. -/
theorem cut_append_of_openEnd {t r : Text} {c : Char} {fault : Unclosed}
    (h : (cut t).openEnd = some (fault, c :: r)) (more : Text) :
    cut (t ++ more) = ⟨(cut t).pieces ++ (cut (c :: (r ++ more))).pieces,
      (cut (c :: (r ++ more))).openEnd⟩ := by
  have htext := flatMap_text_cut t
  have hglued := glued_of_cut t
  simp only [Cut.openText, h] at htext hglued
  have hlonger : Glued (cut t).pieces (c :: (r ++ more)) := hglued.of_head? rfl
  have hcut := cut_of_glued hlonger
  have hwhole : (cut t).pieces.flatMap text ++ c :: (r ++ more) = t ++ more := by
    rw [← List.cons_append, ← List.append_assoc, htext]
  rwa [hwhole] at hcut

/-! ## Tokens and faults -/

/-- The token of a piece, if it is one. -/
def token? : Piece → Option Token
  | .token t _ => some t
  | _ => none

/-- The tokens of a text, up to what is left open in it. -/
def tokens (t : Text) : List Token := (cut t).pieces.filterMap token?

/-- What is left open in a text. -/
def fault? (t : Text) : Option Unclosed := (cut t).openEnd.map (·.1)

@[simp] theorem tokens_nil : tokens [] = [] := by simp [tokens]

@[simp] theorem fault?_nil : fault? [] = none := by simp [fault?]

theorem closed_iff {t : Text} : Closed t ↔ fault? t = none := by
  simp [Closed, fault?]

theorem tokens_append {s t : Text} (hs : Closed s)
    (hseam : ∀ p ∈ (cut s).pieces.getLast?, Seam p t) : tokens (s ++ t) = tokens s ++ tokens t := by
  simp [tokens, cut_append hs hseam]

theorem fault?_append {s t : Text} (hs : Closed s)
    (hseam : ∀ p ∈ (cut s).pieces.getLast?, Seam p t) : fault? (s ++ t) = fault? t := by
  simp [fault?, cut_append hs hseam]

theorem tokens_of_read {c : Char} {r rest : Text} {p : Piece} (h : read c r = .ok (p, rest)) :
    tokens (c :: r) = p.token?.toList ++ tokens rest := by
  rw [tokens, cut_of_read h, List.filterMap_cons]
  cases p.token? <;> rfl

theorem fault?_of_read {c : Char} {r rest : Text} {p : Piece} (h : read c r = .ok (p, rest)) :
    fault? (c :: r) = fault? rest := by
  rw [fault?, cut_of_read h]
  rfl

/-- The tokens of a text with their places are its tokens. -/
theorem map_token_locate (p : Position) (ps : List Piece) :
    (locate p ps).map (·.token) = ps.filterMap token? := by
  induction ps generalizing p with
  | nil => rfl
  | cons piece ps ih => cases piece <;> simp [locate, token?, List.filterMap_cons, ih]

/-! ## Blanks -/

theorem read_of_isBlank {b : Char} (hb : isBlank b) (t : Text) :
    read b t = .ok (.blank b, t) :=
  read_eq_ok_iff.2 ⟨.blank hb, fun _ _ => rfl, rfl⟩

theorem tokens_cons_of_isBlank {b : Char} (hb : isBlank b) (t : Text) :
    tokens (b :: t) = tokens t :=
  tokens_of_read (read_of_isBlank hb t)

theorem fault?_cons_of_isBlank {b : Char} (hb : isBlank b) (t : Text) :
    fault? (b :: t) = fault? t :=
  fault?_of_read (read_of_isBlank hb t)

def blankCodes : List Nat :=
  List.range' 9 5 ++ [0x20, 0x85, 0xa0, 0x1680] ++ List.range' 0x2000 11 ++
    [0x2028, 0x2029, 0x202f, 0x205f, 0x3000]

theorem exists_code_of_isBlank {b : Char} (hb : isBlank b) :
    ∃ n ∈ blankCodes, b = Char.ofNat n := by
  refine ⟨b.toNat, ?_, (Char.ofNat_toNat b).symm⟩
  simp only [isBlank, Bool.or_eq_true, Bool.and_eq_true, decide_eq_true_eq, beq_iff_eq] at hb
  simp only [blankCodes, List.mem_append, List.mem_range'_1, List.mem_cons, List.not_mem_nil]
  omega

theorem inWord_of_isBlank {b : Char} (hb : isBlank b) : inWord b = false := by
  obtain ⟨n, hn, rfl⟩ := exists_code_of_isBlank hb
  clear hb
  revert n
  decide +kernel

theorem inNumber_of_isBlank {b : Char} (hb : isBlank b) : inNumber b = false := by
  obtain ⟨n, hn, rfl⟩ := exists_code_of_isBlank hb
  clear hb
  revert n
  decide +kernel

/-- A character that goes on with no piece before it, unless that is a line comment, and that closes
nothing. -/
structure Separates (b : Char) : Prop where
  quote : ¬ IsQuote b
  slash : b ≠ '/'
  dash : b ≠ '-'
  star : b ≠ '*'
  number : inNumber b = false
  word : inWord b = false

theorem separates_of_isBlank {b : Char} (hb : isBlank b) : Separates b := by
  have hsign : b ∉ signs := fun hs => by simp [isBlank_signs b hs] at hb
  exact {
    quote := fun hq => hsign hq.mem_signs
    slash := fun heq => hsign (heq ▸ by decide)
    dash := fun heq => hsign (heq ▸ by decide)
    star := fun heq => by simp [heq, isBlank] at hb
    number := inNumber_of_isBlank hb
    word := inWord_of_isBlank hb }

theorem Separates.endsBefore {p : Piece} {b : Char} (hb : Separates b) (hp : p.WellFormed) :
    p.endsBefore b ∨ ∃ t, p = .comment ('-' :: '-' :: t) ∧ b ≠ '\n' := by
  cases hp with
  | blank => exact .inl rfl
  | @lineComment t ht =>
    by_cases hn : b = '\n'
    · exact .inl (by simp [Piece.endsBefore, hn])
    · exact .inr ⟨t, rfl, hn⟩
  | blockComment => exact .inl rfl
  | @quoted q hq value =>
    have hne : q ≠ b := fun heq => hb.quote (heq ▸ hq)
    exact .inl (by simp [endsBefore_quoted, Piece.quote, hne])
  | number => exact .inl (by simp [Piece.endsBefore, hb.number])
  | word => exact .inl (by simp [Piece.endsBefore, hb.word])
  | symbol => exact .inl (by simp [Piece.endsBefore, hb.dash, hb.star])

theorem closeQuote?_concat {q b : Char} {t : Text} (hb : b ≠ q) (h : closeQuote? q t = none) :
    closeQuote? q (t ++ [b]) = none := by
  fun_induction closeQuote? q t with
  | case1 => simp [closeQuote?, hb]
  | case2 => cases h
  | case3 c hc => simp [closeQuote?, hc, hb]
  | case4 r ih => simpa [closeQuote?] using ih (by simpa using h)
  | case5 => cases h
  | case6 c d r hc ih => simpa [closeQuote?, hc] using ih (by simpa using h)

theorem closeComment?_concat {b : Char} {t : Text} (hb : b ≠ '/') (h : closeComment? t = none) :
    closeComment? (t ++ [b]) = none := by
  fun_induction closeComment? t with
  | case1 => rfl
  | case2 c => simp [closeComment?, hb]
  | case3 => cases h
  | case4 c d r hcd ih => simpa [closeComment?, hcd] using ih (by simpa using h)

theorem Separates.read_concat {c b : Char} {r : Text} {fault : Unclosed} (hb : Separates b)
    (h : read c r = .error fault) : read c (r ++ [b]) = .error fault := by
  rw [read_eq_error_iff] at h ⊢
  rcases h with ⟨hq, hclose, rfl⟩ | ⟨t, rfl, rfl, hclose, rfl⟩
  · have hne : b ≠ c := fun heq => hb.quote (heq ▸ hq)
    exact .inl ⟨hq, closeQuote?_concat hne hclose, rfl⟩
  · exact .inr ⟨t ++ [b], rfl, rfl, closeComment?_concat hb.slash hclose, rfl⟩

/-- A blank behind a line comment goes on with it, unless it is a line feed. -/
theorem cut_concat_lineComment {t u : Text} {ps : List Piece} {b : Char} (hn : b ≠ '\n')
    (h : cut t = ⟨ps ++ [.comment ('-' :: '-' :: u)], none⟩) :
    cut (t ++ [b]) = ⟨ps ++ [.comment ('-' :: '-' :: (u ++ [b]))], none⟩ := by
  have htext := Closed.flatMap_text (t := t) (by rw [Closed, h])
  have hglued := glued_of_cut t
  rw [h, glued_append] at hglued
  obtain ⟨hbefore, hwf, -⟩ := hglued
  have hu : ∀ c ∈ u, c ≠ '\n' := by cases hwf with | lineComment ht => exact ht
  have hlong : Glued (ps ++ [.comment ('-' :: '-' :: (u ++ [b]))]) [] := by
    refine glued_append.2 ⟨hbefore.of_head? rfl, .lineComment ?_, seam_nil _, trivial⟩
    intro c hc
    rcases List.mem_append.1 hc with hc | hc
    · exact hu c hc
    · rwa [List.mem_singleton.1 hc]
  have hcut := cut_of_glued hlong
  rw [h] at htext
  simpa [← htext, text] using hcut

/-- A character behind a text is a piece of its own, or the last character of a line comment, or
it belongs to what is left open. -/
theorem concat_cases {b : Char} (hb : Separates b) (t : Text) :
    tokens (t ++ [b]) = tokens t ∧ fault? (t ++ [b]) = fault? t ∨
      Closed t ∧ tokens (t ++ [b]) = tokens t ++ tokens [b] ∧ fault? (t ++ [b]) = fault? [b] := by
  cases hopen : (cut t).openEnd with
  | none =>
    have hclosed : Closed t := hopen
    have hanew (hseam : ∀ p ∈ (cut t).pieces.getLast?, Seam p [b]) :
        tokens (t ++ [b]) = tokens t ++ tokens [b] ∧ fault? (t ++ [b]) = fault? [b] :=
      ⟨tokens_append hclosed hseam, fault?_append hclosed hseam⟩
    rcases List.eq_nil_or_concat (cut t).pieces with hps | ⟨ps, p, hps⟩
    · exact .inr ⟨hclosed, hanew (by simp [hps])⟩
    rw [List.concat_eq_append] at hps
    have hwf := (glued_of_cut t).wellFormed p (by simp [hps])
    obtain hend | ⟨u, rfl, hn⟩ := hb.endsBefore hwf
    · exact .inr ⟨hclosed, hanew (by simpa [hps, Seam] using hend)⟩
    · have hcut : cut t = ⟨ps ++ [.comment ('-' :: '-' :: u)], none⟩ := by rw [← hps, ← hopen]
      refine .inl ?_
      simp [tokens, fault?, hcut, cut_concat_lineComment hn hcut, List.filterMap_cons, token?]
  | some found =>
    obtain ⟨fault, u⟩ := found
    obtain ⟨c, r, rfl, hread⟩ := exists_of_openEnd hopen
    have hcut := cut_append_of_openEnd hopen [b]
    rw [cut_of_fault (hb.read_concat hread)] at hcut
    refine .inl ?_
    simp [tokens, fault?, hcut, hopen]

/-- A blank behind a text changes neither its tokens nor its fault. -/
theorem concat_of_isBlank {b : Char} (hb : isBlank b) (t : Text) :
    tokens (t ++ [b]) = tokens t ∧ fault? (t ++ [b]) = fault? t := by
  rcases concat_cases (separates_of_isBlank hb) t with hsame | ⟨hclosed, htokens, hfault⟩
  · exact hsame
  · rw [htokens, hfault, tokens_cons_of_isBlank hb, fault?_cons_of_isBlank hb, tokens_nil,
      fault?_nil, closed_iff.1 hclosed]
    simp

theorem append_of_isBlank {bs : Text} (hbs : ∀ b ∈ bs, isBlank b) (t : Text) :
    tokens (t ++ bs) = tokens t ∧ fault? (t ++ bs) = fault? t := by
  induction bs generalizing t with
  | nil => simp
  | cons b bs ih =>
    obtain ⟨htokens, hfault⟩ := concat_of_isBlank (hbs b List.mem_cons_self) t
    obtain ⟨htail, htail'⟩ := ih (fun d hd => hbs d (List.mem_cons_of_mem b hd)) (t ++ [b])
    rw [List.append_assoc, List.singleton_append] at htail htail'
    exact ⟨htail.trans htokens, htail'.trans hfault⟩

theorem blanks_append {bs : Text} (hbs : ∀ b ∈ bs, isBlank b) (t : Text) :
    tokens (bs ++ t) = tokens t ∧ fault? (bs ++ t) = fault? t := by
  induction bs with
  | nil => exact ⟨rfl, rfl⟩
  | cons b bs ih =>
    have hb := hbs b List.mem_cons_self
    obtain ⟨htokens, hfault⟩ := ih fun d hd => hbs d (List.mem_cons_of_mem b hd)
    exact ⟨(tokens_cons_of_isBlank hb _).trans htokens, (fault?_cons_of_isBlank hb _).trans hfault⟩

theorem trimStart_spec (t : Text) :
    tokens (Text.trimStart t) = tokens t ∧ fault? (Text.trimStart t) = fault? t := by
  have hblank : ∀ b ∈ t.takeWhile isBlank, isBlank b := List.all_eq_true.1 List.all_takeWhile
  obtain ⟨htokens, hfault⟩ := blanks_append hblank (Text.trimStart t)
  rw [Text.trimStart, List.takeWhile_append_dropWhile] at htokens hfault
  exact ⟨htokens.symm, hfault.symm⟩

theorem trimEnd_spec (t : Text) :
    tokens (Text.trimEnd t) = tokens t ∧ fault? (Text.trimEnd t) = fault? t := by
  have hblank : ∀ b ∈ (t.reverse.takeWhile isBlank).reverse, isBlank b := by
    intro b hb
    exact List.all_eq_true.1 List.all_takeWhile b (List.mem_reverse.1 hb)
  obtain ⟨htokens, hfault⟩ := append_of_isBlank hblank (Text.trimEnd t)
  rw [Text.trimEnd, Text.dropEndWhile_append] at htokens hfault
  exact ⟨htokens.symm, hfault.symm⟩

@[simp] theorem tokens_trim (t : Text) : tokens (Text.trim t) = tokens t :=
  (trimEnd_spec (Text.trimStart t)).1.trans (trimStart_spec t).1

@[simp] theorem fault?_trim (t : Text) : fault? (Text.trim t) = fault? t :=
  (trimEnd_spec (Text.trimStart t)).2.trans (trimStart_spec t).2

end SqlConsole.Piece

namespace SqlConsole.Lexed

open Piece

theorem ofText_of_closed {t : Text} (h : Closed t) :
    ofText t = .ok ⟨locate .start (cut t).pieces, Position.start.after t⟩ := by
  simp only [ofText, show (cut t).openEnd = none from h]

theorem ofText_of_openEnd {t u : Text} {fault : Unclosed} (h : (cut t).openEnd = some (fault, u)) :
    ofText t = .error (fault, ⟨Position.start.after ((cut t).pieces.flatMap text),
      (Position.start.after t).offset⟩) := by
  simp only [ofText, h]

/-- What a text is read as are its tokens. -/
theorem closed_of_ofText {t : Text} {lexed : Lexed} (h : ofText t = .ok lexed) :
    Closed t ∧ lexed.tokens.map (·.token) = Piece.tokens t := by
  cases hopen : (cut t).openEnd with
  | none =>
    rw [ofText_of_closed hopen] at h
    cases h
    exact ⟨hopen, map_token_locate .start (cut t).pieces⟩
  | some found =>
    rw [ofText_of_openEnd hopen] at h
    cases h

end SqlConsole.Lexed
