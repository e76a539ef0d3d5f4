import SqlConsole.Proofs.Token.Cut
import SqlConsole.Script
/-!
# The scan and the lexer cut a text alike

The scan of `Script.segments` knows a text by regions and looks one character ahead; the lexer of
`Piece.cut` knows it by whole pieces.  `Runs` says that the scan goes over a stretch of text from
one region to another without a cut, and stretches compose (`Runs.append`).  Every piece is such a
stretch, from plain text to plain text or to the end of a line comment, unless it is a terminator
(`runs_of_wellFormed`).  So the segments of a text are its pieces, put together up to each
terminator (`segments_eq`), and the scan ends inside a quoted text or a block comment exactly where
the lexer finds one that is never closed.
-/

namespace SqlConsole.Piece

/-! ## Pieces up to each terminator -/

/-- Whether a piece ends a statement. -/
def isTerminator : Piece → Bool
  | .token (.symbol c) _ => c == ';'
  | _ => false

/-- There is one spelling of a terminator. -/
theorem eq_terminator {p : Piece} (hwf : p.WellFormed) (hp : p.isTerminator) :
    p = .token (.symbol ';') [';'] := by
  cases hwf with
  | symbol =>
    obtain rfl := beq_iff_eq.1 hp
    rfl
  | @quoted q hq value =>
    unfold quotedToken at hp
    split at hp <;> cases hp
  | _ => cases hp

/-- Put a piece in front of the first part. -/
def putFront (p : Piece) : List (List Piece) × List Piece → List (List Piece) × List Piece
  | ([], rest) => ([], p :: rest)
  | (part :: parts, rest) => ((p :: part) :: parts, rest)

/-- Pieces put together up to each terminator, and those that follow the last one. -/
def parts : List Piece → List (List Piece) × List Piece
  | [] => ([], [])
  | p :: ps =>
    if p.isTerminator then ([p] :: (parts ps).1, (parts ps).2) else putFront p (parts ps)

theorem putFront_flatten (p : Piece) (found : List (List Piece) × List Piece) :
    (putFront p found).1.flatten ++ (putFront p found).2 = p :: (found.1.flatten ++ found.2) := by
  obtain ⟨done, rest⟩ := found
  cases done <;> rfl

/-- No piece is lost. -/
theorem parts_flatten (ps : List Piece) : (parts ps).1.flatten ++ (parts ps).2 = ps := by
  induction ps with
  | nil => rfl
  | cons p ps ih =>
    rw [parts]
    split
    · simp [ih]
    · rw [putFront_flatten, ih]

end SqlConsole.Piece

namespace SqlConsole.Script

open Piece

/-! ## Stretches without a cut -/

/-- Put a text in front of the first part. -/
def Segments.prepend (t : Text) (s : Segments) : Segments := t.foldr Segments.cons s

theorem Segments.prepend_append (t u : Text) (s : Segments) :
    s.prepend (t ++ u) = (s.prepend u).prepend t := by
  simp [prepend, List.foldr_append]

/-- In front of `rest`, the scan goes over `t` without a cut: it comes from the region `before`
and is in the region `behind` then. -/
def Runs (before : Region) (t rest : Text) (behind : Region) : Prop :=
  segments before (t ++ rest) = (segments behind rest).prepend t

theorem Runs.nil (region : Region) (rest : Text) : Runs region [] rest region := rfl

theorem ne_terminator_of_isQuote {q : Char} (hq : IsQuote q) : q ≠ ';' := by
  rcases hq with rfl | rfl | rfl <;> decide

/-- Two stretches behind each other are one stretch. -/
theorem Runs.append {a b c : Region} {s t rest : Text}
    (hs : Runs a s (t ++ rest) b) (ht : Runs b t rest c) : Runs a (s ++ t) rest c := by
  unfold Runs at *
  rw [List.append_assoc, hs, ht, Segments.prepend_append]

/-- A character is a stretch unless it is a terminator in plain text. -/
theorem Runs.char {region : Region} {c : Char} (hc : ¬ (region = .plain ∧ c = ';')) (rest : Text) :
    Runs region [c] rest (region.step c rest.head?) := by
  simp [Runs, segments, hc, Segments.prepend]

theorem Runs.cons {a b : Region} {c : Char} {t rest : Text} (hc : ¬ (a = .plain ∧ c = ';'))
    (ht : Runs (a.step c (t ++ rest).head?) t rest b) : Runs a (c :: t) rest b :=
  (Runs.char hc (t ++ rest)).append ht

/-- A region that every character of a text keeps is a stretch over all of it. -/
theorem runs_of_stays {region : Region} {t : Text}
    (h : ∀ c ∈ t, ¬ (region = .plain ∧ c = ';') ∧ ∀ next, region.step c next = region)
    (rest : Text) : Runs region t rest region := by
  induction t with
  | nil => exact Runs.nil region rest
  | cons c t ih =>
    obtain ⟨hcut, hstep⟩ := h c List.mem_cons_self
    refine Runs.cons hcut ?_
    rw [hstep]
    exact ih fun d hd => h d (List.mem_cons_of_mem c hd)

/-- A text without signs is a stretch of plain text. -/
theorem runs_plain {t : Text} (h : ∀ c ∈ t, c ∉ signs) (rest : Text) :
    Runs .plain t rest .plain := by
  refine runs_of_stays (fun c hc => ?_) rest
  have hsign := h c hc
  simp only [signs, List.mem_cons, List.not_mem_nil, or_false, not_or] at hsign
  simp [Region.step, hsign]

theorem Runs.lineComment {b : Region} {t rest : Text} (ht : Runs .lineComment t rest b) :
    Runs .plain ('-' :: '-' :: t) rest b := by
  refine Runs.cons (by simp) (Runs.cons (by simp [Region.step]) ?_)
  simpa [Region.step] using ht

theorem Runs.blockComment {b : Region} {t rest : Text} (ht : Runs .blockComment t rest b) :
    Runs .plain ('/' :: '*' :: t) rest b := by
  refine Runs.cons (by simp) (Runs.cons (by simp [Region.step]) ?_)
  simpa [Region.step] using ht

theorem Runs.quoted {b : Region} {q : Char} (hq : IsQuote q) {t rest : Text}
    (ht : Runs (.quoted q) t rest b) : Runs .plain (q :: t) rest b := by
  have hopens (next : Option Char) : Region.plain.step q next = .quoted q := by
    rcases hq with rfl | rfl | rfl <;> simp [Region.step]
  refine Runs.cons (fun h => ne_terminator_of_isQuote hq h.2) ?_
  rwa [hopens]

theorem Runs.unquote {b : Region} {q : Char} {t rest : Text} (ht : Runs .plain t rest b) :
    Runs (.quoted q) (q :: t) rest b :=
  Runs.cons (by simp) (by simpa [Region.step] using ht)

theorem Runs.stayQuoted {b : Region} {q c : Char} (hc : c ≠ q) {t rest : Text}
    (ht : Runs (.quoted q) t rest b) : Runs (.quoted q) (c :: t) rest b :=
  Runs.cons (by simp) (by simpa [Region.step, hc] using ht)

/-- The rest of a block comment leads back to plain text. -/
theorem runs_blockComment {t body rest : Text} (h : closeComment? t = some (body, rest)) :
    Runs .blockComment body rest .plain := by
  fun_induction closeComment? t generalizing body rest with
  | case1 => cases h
  | case2 => cases h
  | case3 c d r hcd =>
    obtain ⟨rfl, rfl⟩ := hcd
    cases h
    change Runs .blockComment ['*', '/'] r .plain
    exact Runs.cons (by simp) (Runs.cons (by simp [Region.step]) (Runs.nil _ _))
  | case4 c d r hcd ih =>
    obtain ⟨⟨inner, after⟩, hr, heq⟩ := Option.map_eq_some_iff.1 h
    obtain ⟨rfl, rfl⟩ := Prod.mk.inj heq
    refine Runs.cons (by simp) ?_
    have hhead : (inner ++ after).head? = some d := by rw [closeComment?_text hr]; rfl
    have hstep : Region.blockComment.step c (inner ++ after).head? = .blockComment := by
      rw [hhead]
      simpa [Region.step] using fun hc hd => hcd ⟨hc, hd⟩
    rw [hstep]
    exact ih hr

/-- The rest of a quoted text leads back to plain text.  A doubled quote leaves the quoted text and
enters it again. -/
theorem runs_quoted {q : Char} (hq : IsQuote q) (value rest : Text) :
    Runs (.quoted q) (Text.double q value ++ [q]) rest .plain := by
  induction value with
  | nil => exact Runs.unquote (Runs.nil .plain rest)
  | cons c value ih =>
    by_cases hc : c = q
    · have hdouble : Text.double q (c :: value) ++ [q] =
          q :: q :: (Text.double q value ++ [q]) := by simp [Text.double, hc]
      rw [hdouble]
      exact Runs.unquote (Runs.quoted hq ih)
    · have hdouble : Text.double q (c :: value) ++ [q] = c :: (Text.double q value ++ [q]) := by
        simp [Text.double, hc]
      rw [hdouble]
      exact Runs.stayQuoted hc ih

/-- A quoted text that is never closed is a stretch to the end. -/
theorem runs_openQuote {q : Char} (hq : IsQuote q) {t : Text} (h : closeQuote? q t = none) :
    Runs (.quoted q) t [] (.quoted q) := by
  fun_induction closeQuote? q t with
  | case1 => exact Runs.nil _ _
  | case2 => cases h
  | case3 c hc => exact Runs.stayQuoted hc (Runs.nil _ _)
  | case4 r ih =>
    have hopen : closeQuote? q r = none := by simpa using h
    exact Runs.unquote (Runs.quoted hq (ih hopen))
  | case5 => cases h
  | case6 c d r hc ih =>
    have hopen : closeQuote? q (d :: r) = none := by simpa using h
    exact Runs.stayQuoted hc (ih hopen)

/-- A block comment that is never closed is a stretch to the end. -/
theorem runs_openComment {t : Text} (h : closeComment? t = none) :
    Runs .blockComment t [] .blockComment := by
  fun_induction closeComment? t with
  | case1 => exact Runs.nil _ _
  | case2 c => exact Runs.cons (by simp) (by simpa [Region.step] using Runs.nil _ _)
  | case3 => cases h
  | case4 c d r hcd ih =>
    refine Runs.cons (by simp) ?_
    have hstep : Region.blockComment.step c (d :: r ++ []).head? = .blockComment := by
      simpa [Region.step] using fun hc hd => hcd ⟨hc, hd⟩
    rw [hstep]
    exact ih (by simpa using h)

/-! ## Pieces are stretches -/

/-- The region behind a piece: plain text, or a line comment at its end. -/
def Behind (region : Region) (rest : Text) : Prop :=
  region = .plain ∨ region = .lineComment ∧ ∀ d ∈ rest.head?, d = '\n'

theorem Behind.isOpen {region : Region} {rest : Text} (h : Behind region rest) :
    region.isOpen = false := by
  rcases h with rfl | ⟨rfl, -⟩ <;> rfl

/-- At the end of a line comment the scan goes on as it does in plain text. -/
theorem segments_cons_of_behind {region : Region} {c : Char} {r : Text}
    (h : Behind region (c :: r)) : segments region (c :: r) = segments .plain (c :: r) := by
  rcases h with rfl | ⟨rfl, hhead⟩
  · rfl
  · obtain rfl : c = '\n' := hhead c rfl
    simp [segments, Region.step]

/-- Every piece is a stretch without a cut, unless it is a terminator. -/
theorem runs_of_wellFormed {p : Piece} {rest : Text} (hwf : p.WellFormed) (hseam : Seam p rest)
    (hp : p.isTerminator = false) :
    ∃ region, Runs .plain p.text rest region ∧ Behind region rest := by
  have hplain (h : ∀ c ∈ p.text, c ∉ signs) :
      ∃ region, Runs .plain p.text rest region ∧ Behind region rest :=
    ⟨.plain, runs_plain h rest, .inl rfl⟩
  cases hwf with
  | blank hc =>
    refine hplain fun d hd => ?_
    rw [List.mem_singleton.1 hd]
    exact not_mem_signs isBlank_signs hc
  | @lineComment t ht =>
    refine ⟨.lineComment, ?_, .inr ⟨rfl, fun d hd => by simpa [endsBefore] using hseam d hd⟩⟩
    have hbody : Runs .lineComment t rest .lineComment :=
      runs_of_stays (fun c hc => by simp [Region.step, ht c hc]) rest
    exact hbody.lineComment
  | @blockComment body hclose =>
    refine ⟨.plain, ?_, .inl rfl⟩
    have hbody : Runs .blockComment body rest .plain :=
      runs_blockComment (closeComment?_of_body hclose rest)
    exact hbody.blockComment
  | @quoted q hq value => exact ⟨.plain, (runs_quoted hq value rest).quoted hq, .inl rfl⟩
  | @number c t hc ht =>
    refine hplain fun d hd => not_mem_signs inNumber_signs ?_
    rcases List.mem_cons.1 hd with rfl | hd
    · exact inNumber_of_isDigit hc
    · exact ht d hd
  | @word c t hblank hdigit hc ht =>
    refine hplain fun d hd => not_mem_signs inWord_signs ?_
    rcases List.mem_cons.1 hd with rfl | hd
    · exact inWord_of_beginsWord hc
    · exact ht d hd
  | @symbol c hblank hquote hdigit hword =>
    refine ⟨.plain, ?_, .inl rfl⟩
    have hcut : ¬ (Region.plain = .plain ∧ c = ';') := by simpa [isTerminator] using hp
    obtain ⟨hline, hblock⟩ := hseam.opens_no_comment
    have hstep : Region.plain.step c rest.head? = .plain := by
      unfold IsQuote at hquote
      simp [Region.step, hquote, hline, hblock]
    have hone := Runs.char hcut rest
    rwa [hstep] at hone

/-- What is opened and never closed is a stretch to the end of the text, and ends in an open
region. -/
theorem runs_of_fault {c : Char} {r : Text} {fault : Unclosed} (h : read c r = .error fault) :
    ∃ region, Runs .plain (c :: r) [] region ∧ region.isOpen = true := by
  rcases read_eq_error_iff.1 h with ⟨hq, hclose, -⟩ | ⟨t, rfl, rfl, hclose, -⟩
  · exact ⟨.quoted c, (runs_openQuote hq hclose).quoted hq, rfl⟩
  · exact ⟨.blockComment, (runs_openComment hclose).blockComment, rfl⟩

/-! ## The whole text -/

/-- The segments that pieces make up, in front of an open end. -/
def assemble (ps : List Piece) (openText : Text) (region : Region) : Segments :=
  ⟨(parts ps).1.map (·.flatMap text), (parts ps).2.flatMap text ++ openText, region⟩

theorem Segments.prepend_mk_nil (t rest : Text) (region : Region) :
    Segments.prepend t ⟨[], rest, region⟩ = ⟨[], t ++ rest, region⟩ := by
  induction t with
  | nil => rfl
  | cons c t ih =>
    change Segments.cons c (Segments.prepend t ⟨[], rest, region⟩) = _
    rw [ih]
    rfl

theorem Segments.prepend_mk_cons (t part : Text) (parts : List Text) (rest : Text)
    (region : Region) : Segments.prepend t ⟨part :: parts, rest, region⟩ =
      ⟨(t ++ part) :: parts, rest, region⟩ := by
  induction t with
  | nil => rfl
  | cons c t ih =>
    change Segments.cons c (Segments.prepend t ⟨part :: parts, rest, region⟩) = _
    rw [ih]
    rfl

theorem assemble_cons {p : Piece} (hp : p.isTerminator = false) (ps : List Piece) (openText : Text)
    (region : Region) :
    assemble (p :: ps) openText region = (assemble ps openText region).prepend p.text := by
  unfold assemble
  rw [Piece.parts, hp, if_neg Bool.false_ne_true]
  obtain ⟨done, rest⟩ := Piece.parts ps
  cases done with
  | nil => simp [putFront, Segments.prepend_mk_nil]
  | cons part done => simp [putFront, Segments.prepend_mk_cons]

/-- **The scan agrees with the lexer.**  The segments of a text are its pieces put together up to
each terminator, and the text ends in an open region exactly if the lexer finds an open end. -/
theorem segments_eq (t : Text) : ∃ region : Region, region.isOpen = (cut t).openEnd.isSome ∧
    segments .plain t = assemble (cut t).pieces (cut t).openText region := by
  fun_induction cut t with
  | case1 => exact ⟨.plain, rfl, rfl⟩
  | case2 c r fault hread =>
    obtain ⟨region, hruns, hopen⟩ := runs_of_fault hread
    refine ⟨region, hopen, ?_⟩
    rw [Runs, List.append_nil] at hruns
    rw [hruns, segments, Segments.prepend_mk_nil, List.append_nil]
    rfl
  | case3 c r p rest hread tail ih =>
    obtain ⟨region, hopen, hrest⟩ := ih
    obtain ⟨hwf, hseam, htext⟩ := read_eq_ok_iff.1 hread
    cases hp : p.isTerminator with
    | true =>
      obtain rfl := eq_terminator hwf hp
      obtain ⟨rfl, rfl⟩ : ';' = c ∧ rest = r := List.cons.inj htext
      refine ⟨region, hopen, ?_⟩
      have hstep : Region.plain.step ';' rest.head? = .plain := by simp [Region.step]
      rw [segments, if_pos ⟨rfl, rfl⟩, hstep, hrest]
      rfl
    | false =>
      obtain ⟨behind, hruns, hbehind⟩ := runs_of_wellFormed hwf hseam hp
      rw [Runs, htext] at hruns
      cases rest with
      | nil =>
        refine ⟨behind, by simp [hbehind.isOpen, tail], hruns.trans ?_⟩
        have htail : tail = ⟨[], none⟩ := cut_nil
        rw [htail, segments]
        exact (assemble_cons hp [] [] behind).symm
      | cons d rest =>
        rw [segments_cons_of_behind hbehind, hrest] at hruns
        exact ⟨region, hopen, hruns.trans (assemble_cons hp _ _ _).symm⟩

/-- No character is lost between the segments of a text. -/
theorem segments_flatten (t : Text) :
    (segments .plain t).ended.flatten ++ (segments .plain t).rest = t := by
  obtain ⟨region, -, hsegments⟩ := segments_eq t
  have hparts := parts_flatten (cut t).pieces
  have htext := flatMap_text_cut t
  rw [← hparts] at htext
  rw [hsegments, assemble]
  simpa [List.flatMap_def, List.map_flatten, List.flatten_flatten, Function.comp_def] using htext

/-! ## Places -/

/-- The byte offsets behind the parts of a text that begins at an offset. -/
def endsFrom (start : Nat) : List Text → List Nat
  | [] => []
  | part :: parts => (start + Text.byteLength part) :: endsFrom (start + Text.byteLength part) parts

def terminators (tokens : List Located) : List Located :=
  tokens.filter (·.token = .symbol ';')

theorem endsFrom_prepend (start : Nat) (t : Text) (s : Segments) :
    endsFrom start (s.prepend t).ended = endsFrom (start + Text.byteLength t) s.ended := by
  obtain ⟨ended, rest, region⟩ := s
  cases ended with
  | nil => rw [Segments.prepend_mk_nil]; rfl
  | cons part parts => simp [Segments.prepend_mk_cons, endsFrom, Nat.add_assoc]

theorem terminators_locate_cons {piece : Piece} (hp : piece.isTerminator = false) (p : Position)
    (ps : List Piece) :
    terminators (locate p (piece :: ps)) = terminators (locate (p.after piece.text) ps) := by
  cases piece with
  | token tok lexeme =>
    have htok : tok ≠ .symbol ';' := by
      rintro rfl
      exact Bool.noConfusion hp
    simp [locate, terminators, htok]
  | _ => rfl

/-- The parts of pieces end where their terminators do. -/
theorem endsFrom_assemble (p : Position) {ps : List Piece} {rest : Text} (h : Glued ps rest)
    (openText : Text) (region : Region) :
    endsFrom p.offset (assemble ps openText region).ended =
      (terminators (locate p ps)).map (·.span.stop) := by
  induction ps generalizing p with
  | nil => rfl
  | cons piece ps ih =>
    obtain ⟨hwf, -, hps⟩ := h
    have htail := ih (p.after piece.text) hps
    cases hp : piece.isTerminator with
    | true =>
      obtain rfl := eq_terminator hwf hp
      rw [Position.offset_after] at htail
      have hends : endsFrom p.offset (assemble (.token (.symbol ';') [';'] :: ps) openText
          region).ended = (p.offset + 1) :: endsFrom (p.offset + 1)
            (assemble ps openText region).ended := rfl
      rw [hends]
      exact congrArg ((p.offset + 1) :: ·) htail
    | false =>
      rw [assemble_cons hp, endsFrom_prepend, ← Position.offset_after, htail,
        terminators_locate_cons hp]

/-- **The scan and the lexer agree on every text.**  The scan finds a text unterminated exactly if
the lexer fails; and where the lexer succeeds, the scan cuts behind every terminator token and
nowhere else. -/
theorem scan_agrees_with_lexer (t : Text) :
    (segments .plain t).ended.flatten ++ (segments .plain t).rest = t ∧
    match Lexed.ofText t with
    | .error _ => (Scan.ofText t).unterminated = true
    | .ok lexed => (Scan.ofText t).unterminated = false ∧
        endsFrom 0 (segments .plain t).ended = (terminators lexed.tokens).map (·.span.stop) := by
  refine ⟨segments_flatten t, ?_⟩
  obtain ⟨region, hopen, hsegments⟩ := segments_eq t
  have hends := endsFrom_assemble .start (glued_of_cut t) (cut t).openText region
  have hscan : (Scan.ofText t).unterminated = (cut t).openEnd.isSome := by
    rw [Scan.ofText, hsegments, ← hopen]
    rfl
  rw [← hsegments] at hends
  cases hcut : (cut t).openEnd with
  | none =>
    rw [Lexed.ofText_of_closed hcut]
    exact ⟨by rw [hscan, hcut]; rfl, hends⟩
  | some found =>
    rw [Lexed.ofText_of_openEnd hcut, hscan, hcut]
    rfl

end SqlConsole.Script
