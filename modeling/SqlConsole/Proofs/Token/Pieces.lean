import SqlConsole.Token.Lexer
/-!
# What a text in pieces looks like

`Piece.WellFormed` lists the pieces that the lexer can read, and `Piece.endsBefore` says in front
of which characters each of them ends.  Together they are the whole grammar of the lexer: it reads
a piece exactly if the piece is well-formed and ends before what follows (`read_eq_ok_iff`).  So
the pieces that `cut` answers with are `Glued`, and glued pieces are cut again as they are
(`glued_of_cut`, `cut_of_glued`).
-/

namespace SqlConsole.Piece

/-! ## Classes of characters -/

/-- The characters that open a comment or a quoted text, and the terminator. -/
def signs : List Char := ['\'', '`', '"', '-', '/', ';']

theorem forall_signs {p : Char → Prop} :
    (∀ c ∈ signs, p c) ↔ p '\'' ∧ p '`' ∧ p '"' ∧ p '-' ∧ p '/' ∧ p ';' := by
  simp [signs]

theorem isBlank_signs : ∀ c ∈ signs, isBlank c = false := forall_signs.2 (by decide)

theorem inWord_signs : ∀ c ∈ signs, inWord c = false := forall_signs.2 (by decide)

theorem inNumber_signs : ∀ c ∈ signs, inNumber c = false := forall_signs.2 (by decide)

/-- No sign belongs to a class that each sign is outside of. -/
theorem not_mem_signs {p : Char → Bool} (hp : ∀ c ∈ signs, p c = false) {c : Char} (hc : p c) :
    c ∉ signs := by
  intro hs
  rw [hp c hs] at hc
  exact Bool.false_ne_true hc

theorem inWord_of_beginsWord {c : Char} (h : beginsWord c) : inWord c := by
  unfold beginsWord at h
  unfold inWord
  grind

theorem inNumber_of_isDigit {c : Char} (h : c.isDigit) : inNumber c := by
  simp [inNumber, h]

theorem isBlank_of_isDigit {c : Char} (h : c.isDigit) : isBlank c = false := by
  have hrange : 48 ≤ c.toNat ∧ c.toNat ≤ 57 := by
    simpa [Char.isDigit, UInt32.le_iff_toNat_le] using h
  simp only [isBlank]
  grind

/-- Whether a character opens and closes quoted texts. -/
def IsQuote (q : Char) : Prop := q = '\'' ∨ q = '`' ∨ q = '"'

theorem IsQuote.mem_signs {q : Char} (hq : IsQuote q) : q ∈ signs := by
  rcases hq with rfl | rfl | rfl <;> decide

/-- What a quoted text is as a token: a string between single quotes, an identifier elsewhere. -/
def quotedToken (q : Char) (value : Text) : Token :=
  if q = '\'' then .string value else .quoted value

def quotedFault (q : Char) : Unclosed := if q = '\'' then .string else .identifier

/-- A quoted text is read as the token or the fault of its quote character. -/
theorem read_of_isQuote {q : Char} (hq : IsQuote q) (r : Text) :
    read q r = readQuoted q (quotedToken q) (quotedFault q) r := by
  have hblank := isBlank_signs q hq.mem_signs
  rcases hq with rfl | rfl | rfl <;> simp [read, hblank] <;> rfl

/-! ## Ends of comments and quoted texts -/

/-- The rest of a block comment holds its closing mark. -/
theorem ne_nil_of_closeComment? {t body rest : Text} (h : closeComment? t = some (body, rest)) :
    body ≠ [] := by
  fun_induction closeComment? t with
  | case1 => cases h
  | case2 => cases h
  | case3 => cases h; exact List.cons_ne_nil _ _
  | case4 c d r hcd ih =>
    obtain ⟨⟨inner, after⟩, hr, heq⟩ := Option.map_eq_some_iff.1 h
    obtain ⟨rfl, -⟩ := Prod.mk.inj heq
    exact List.cons_ne_nil c inner

/-- What follows a block comment has no part in it. -/
theorem closeComment?_of_body {t body rest : Text} (h : closeComment? t = some (body, rest))
    (other : Text) : closeComment? (body ++ other) = some (body, other) := by
  fun_induction closeComment? t generalizing body rest with
  | case1 => cases h
  | case2 => cases h
  | case3 c d r hcd => cases h; rfl
  | case4 c d r hcd ih =>
    obtain ⟨⟨inner, after⟩, hr, heq⟩ := Option.map_eq_some_iff.1 h
    obtain ⟨rfl, rfl⟩ := Prod.mk.inj heq
    obtain ⟨e, inner, rfl⟩ := List.exists_cons_of_ne_nil (ne_nil_of_closeComment? hr)
    obtain ⟨rfl, -⟩ := List.cons.inj (closeComment?_text hr)
    have hinner := ih hr
    rw [List.cons_append] at hinner ⊢
    rw [List.cons_append, closeComment?, if_neg hcd, hinner]
    rfl

/-- A value between quotes is read back, if no further quote follows. -/
theorem closeQuote?_double {q : Char} (value : Text) {rest : Text} (h : rest.head? ≠ some q) :
    closeQuote? q (Text.double q value ++ q :: rest) = some (value, rest) := by
  induction value with
  | nil =>
    cases rest with
    | nil => simp [Text.double, closeQuote?]
    | cons d r =>
      have hd : d ≠ q := by simpa using h
      simp [Text.double, closeQuote?, hd]
  | cons c value ih =>
    by_cases hc : c = q
    · subst hc
      have hdouble : Text.double c (c :: value) = c :: c :: Text.double c value := by
        simp [Text.double]
      rw [hdouble, List.cons_append, List.cons_append, closeQuote?, if_pos rfl, if_pos rfl, ih]
      rfl
    · have hdouble : Text.double q (c :: value) = c :: Text.double q value := by
        simp [Text.double, hc]
      obtain ⟨d, r, hdr⟩ : ∃ d r, Text.double q value ++ q :: rest = d :: r :=
        List.exists_cons_of_ne_nil (by simp)
      rw [hdouble, List.cons_append]
      rw [hdr] at ih ⊢
      rw [closeQuote?, if_neg hc, ih]
      rfl

theorem head?_ne_of_closeQuote? {q : Char} {t value rest : Text}
    (h : closeQuote? q t = some (value, rest)) : rest.head? ≠ some q := by
  fun_induction closeQuote? q t generalizing value rest with
  | case1 => cases h
  | case2 => cases h; simp
  | case3 => cases h
  | case4 r ih =>
    obtain ⟨⟨inner, after⟩, hr, heq⟩ := Option.map_eq_some_iff.1 h
    obtain ⟨rfl, rfl⟩ := Prod.mk.inj heq
    exact ih hr
  | case5 d r hd => cases h; simpa using hd
  | case6 c d r hc ih =>
    obtain ⟨⟨inner, after⟩, hr, heq⟩ := Option.map_eq_some_iff.1 h
    obtain ⟨rfl, rfl⟩ := Prod.mk.inj heq
    exact ih hr

/-! ## The grammar -/

/-- The pieces that the lexer can read. -/
inductive WellFormed : Piece → Prop
  | blank {c : Char} (hc : isBlank c) : WellFormed (.blank c)
  | lineComment {t : Text} (ht : ∀ c ∈ t, c ≠ '\n') : WellFormed (.comment ('-' :: '-' :: t))
  | blockComment {body : Text} (hclose : closeComment? body = some (body, [])) :
      WellFormed (.comment ('/' :: '*' :: body))
  | quoted {q : Char} (hq : IsQuote q) (value : Text) :
      WellFormed (.token (quotedToken q value) (quote q value))
  | number {c : Char} {t : Text} (hc : c.isDigit) (ht : ∀ d ∈ t, inNumber d) :
      WellFormed (.token (.number (c :: t)) (c :: t))
  | word {c : Char} {t : Text} (hblank : isBlank c = false) (hdigit : c.isDigit = false)
      (hc : beginsWord c) (ht : ∀ d ∈ t, inWord d) : WellFormed (.token (.word (c :: t)) (c :: t))
  | symbol {c : Char} (hblank : isBlank c = false) (hquote : ¬ IsQuote c)
      (hdigit : c.isDigit = false) (hword : beginsWord c = false) :
      WellFormed (.token (.symbol c) [c])

/-- Whether a piece ends where it does when a character follows it. -/
def endsBefore : Piece → Char → Bool
  | .blank _, _ => true
  | .comment t, d => t.head? == some '/' || d == '\n'
  | .token (.word _) _, d => !inWord d
  | .token (.number _) _, d => !inNumber d
  | .token (.symbol c) _, d => !(c == '-' && d == '-' || c == '/' && d == '*')
  | .token _ lexeme, d => lexeme.head? != some d

theorem endsBefore_quoted (q : Char) (value lexeme : Text) (d : Char) :
    endsBefore (.token (quotedToken q value) lexeme) d = (lexeme.head? != some d) := by
  unfold quotedToken
  split <;> rfl

/-- A piece ends where it does in front of a text. -/
def Seam (p : Piece) (rest : Text) : Prop := ∀ d ∈ rest.head?, p.endsBefore d

theorem seam_nil (p : Piece) : Seam p [] := by simp [Seam]

theorem seam_cons {p : Piece} {d : Char} (hd : p.endsBefore d) (rest : Text) :
    Seam p (d :: rest) := by
  intro c hc
  obtain rfl := Option.some.inj hc
  exact hd

/-- A string literal ends in front of everything but a quote. -/
theorem seam_string (value : Text) {d : Char} (hd : d ≠ '\'') (rest : Text) :
    Seam (.token (.string value) (quote '\'' value)) (d :: rest) :=
  seam_cons (by simpa [endsBefore, quote] using hd.symm) rest

/-- A symbol and what follows it open no comment. -/
theorem Seam.opens_no_comment {c : Char} {rest : Text} (h : Seam (.token (.symbol c) [c]) rest) :
    ¬ (c = '-' ∧ rest.head? = some '-') ∧ ¬ (c = '/' ∧ rest.head? = some '*') := by
  constructor
  · rintro ⟨rfl, hd⟩
    simpa [endsBefore] using h '-' (Option.mem_def.2 hd)
  · rintro ⟨rfl, hd⟩
    simpa [endsBefore] using h '*' (Option.mem_def.2 hd)

/-- Where the longest run of a class ends, no character of the class follows. -/
theorem seam_dropWhile {p : Piece} {f : Char → Bool} {r : Text}
    (h : ∀ d, f d = false → p.endsBefore d) : Seam p (r.dropWhile f) := by
  intro d hd
  have hhead := List.head?_dropWhile_not f r
  rw [Option.mem_def.1 hd] at hhead
  exact h d (by simpa using hhead)

/-- What is read is well-formed and ends before what follows it. -/
theorem wellFormed_of_read {c : Char} {r rest : Text} {p : Piece} (h : read c r = .ok (p, rest)) :
    p.WellFormed ∧ Seam p rest := by
  by_cases hq : IsQuote c
  · rw [read_of_isQuote hq, readQuoted] at h
    split at h
    · next hclose =>
      cases h
      refine ⟨.quoted hq _, fun d hd => ?_⟩
      have hne := head?_ne_of_closeQuote? hclose
      rw [Option.mem_def.1 hd] at hne
      simpa [endsBefore_quoted, quote] using fun heq : c = d => hne (by rw [heq])
    · cases h
  unfold read at h
  split at h
  · next hc => cases h; exact ⟨.blank hc, fun d _ => rfl⟩
  next hblank =>
  split at h
  · next hc =>
    obtain ⟨rfl, hr⟩ := hc
    obtain ⟨t, rfl⟩ := List.head?_eq_some_iff.1 hr
    cases h
    refine ⟨.lineComment fun c hc => ?_, seam_dropWhile fun d hd => ?_⟩
    · simpa using List.all_eq_true.1 List.all_takeWhile c hc
    · simpa [endsBefore] using hd
  next hline =>
  split at h
  · next hc =>
    obtain ⟨rfl, hr⟩ := hc
    obtain ⟨t, rfl⟩ := List.head?_eq_some_iff.1 hr
    simp only [List.tail_cons] at h
    split at h
    · next body rest hclose =>
      cases h
      refine ⟨.blockComment ?_, fun d _ => rfl⟩
      simpa using closeComment?_of_body hclose []
    · cases h
  next hblock =>
  rw [if_neg (fun hc => hq (.inl hc)), if_neg (fun hc => hq (.inr hc))] at h
  split at h
  · next hc =>
    cases h
    refine ⟨.number hc fun d hd => List.all_eq_true.1 List.all_takeWhile d hd,
      seam_dropWhile fun d hd => ?_⟩
    simp [endsBefore, hd]
  next hdigit =>
  have hblank : isBlank c = false := by simpa using hblank
  have hdigit : c.isDigit = false := by simpa using hdigit
  split at h
  · next hc =>
    cases h
    refine ⟨.word hblank hdigit hc fun d hd => List.all_eq_true.1 List.all_takeWhile d hd,
      seam_dropWhile fun d hd => ?_⟩
    simp [endsBefore, hd]
  next hword =>
  cases h
  refine ⟨.symbol hblank hq hdigit (by simpa using hword), fun d hd => ?_⟩
  rw [Option.mem_def.1 hd] at hline hblock
  simp only [Option.some.injEq] at hline hblock
  simp only [endsBefore]
  grind

/-- A run of a class is taken to its end. -/
theorem takeWhile_append_of_seam {f : Char → Bool} {t r : Text} (ht : ∀ d ∈ t, f d)
    (hr : ∀ d ∈ r.head?, f d = false) :
    (t ++ r).takeWhile f = t ∧ (t ++ r).dropWhile f = r := by
  rw [List.takeWhile_append_of_pos ht, List.dropWhile_append_of_pos ht]
  cases r with
  | nil => simp
  | cons d r =>
    have hd : f d = false := hr d rfl
    simp [hd]

/-- **The grammar of the lexer.**  A piece is read exactly if it is well-formed and ends before
what follows it. -/
theorem read_eq_ok_iff {c : Char} {r rest : Text} {p : Piece} :
    read c r = .ok (p, rest) ↔ p.WellFormed ∧ Seam p rest ∧ p.text ++ rest = c :: r := by
  constructor
  · intro h
    obtain ⟨hwf, hseam⟩ := wellFormed_of_read h
    exact ⟨hwf, hseam, read_text h⟩
  · rintro ⟨hwf, hseam, htext⟩
    cases hwf with
    | blank hc =>
      obtain ⟨rfl, rfl⟩ := List.cons.inj htext
      simp [read, hc]
    | @lineComment t ht =>
      obtain ⟨rfl, rfl⟩ := List.cons.inj htext
      have hrun := takeWhile_append_of_seam (f := (· != '\n')) (t := '-' :: t) (r := rest)
        (by simpa using ht) (fun d hd => by simpa [endsBefore] using hseam d hd)
      simp only [List.cons_append] at hrun
      simp [read, hrun, isBlank_signs '-' (by decide)]
    | @blockComment body hclose =>
      obtain ⟨rfl, rfl⟩ := List.cons.inj htext
      have hrest := closeComment?_of_body hclose rest
      simp [read, hrest, isBlank_signs '/' (by decide)]
    | @quoted q hq value =>
      obtain ⟨rfl, rfl⟩ := List.cons.inj htext
      have hne : rest.head? ≠ some q := by
        intro hd
        have hbefore := hseam q (Option.mem_def.2 hd)
        simp [endsBefore_quoted, quote] at hbefore
      have hclose := closeQuote?_double value hne
      simp only [List.append_eq, List.append_assoc, List.singleton_append]
      rw [read_of_isQuote hq, readQuoted, hclose]
    | @number c t hc ht =>
      obtain ⟨rfl, rfl⟩ := List.cons.inj htext
      have hrun := takeWhile_append_of_seam ht fun d hd => by simpa [endsBefore] using hseam d hd
      have hsign := not_mem_signs inNumber_signs (inNumber_of_isDigit hc)
      simp only [signs, List.mem_cons, List.not_mem_nil, or_false, not_or] at hsign
      simp [read, isBlank_of_isDigit hc, hc, hsign, hrun]
    | @word c t hblank hdigit hc ht =>
      obtain ⟨rfl, rfl⟩ := List.cons.inj htext
      have hrun := takeWhile_append_of_seam ht fun d hd => by simpa [endsBefore] using hseam d hd
      have hsign := not_mem_signs inWord_signs (inWord_of_beginsWord hc)
      simp only [signs, List.mem_cons, List.not_mem_nil, or_false, not_or] at hsign
      simp [read, hblank, hdigit, hc, hsign, hrun]
    | @symbol c hblank hquote hdigit hword =>
      obtain ⟨rfl, rfl⟩ := List.cons.inj htext
      obtain ⟨hline, hblock⟩ := hseam.opens_no_comment
      simp only [IsQuote, not_or] at hquote
      simp [read, hblank, hline, hblock, hdigit, hword, hquote]

end SqlConsole.Piece
