import SqlConsole.Proofs.Token.Cut
/-!
# Where tokens stand

A token stands where the pieces in front of it end (`exists_of_locate_eq`), so tokens further to the
right have greater offsets (`offset_of_mem_locate`).  The part of a text between the places of two of
its pieces is the text of the pieces from the one to the other (`slice?_pieces`).
-/

namespace SqlConsole

namespace Text

theorem byteLength_eq_zero_iff {t : Text} : byteLength t = 0 ↔ t = [] := by
  cases t with
  | nil => simp
  | cons c t =>
    have hpos := c.utf8Size_pos
    simp only [byteLength_cons, reduceCtorEq, iff_false]
    omega

theorem length_trim_le (t : Text) : (trim t).length ≤ t.length := by
  have hstart : (t.dropWhile isBlank).length ≤ t.length := (List.dropWhile_sublist _).length_le
  have hend : ((t.dropWhile isBlank).reverse.dropWhile isBlank).length ≤
      (t.dropWhile isBlank).reverse.length := (List.dropWhile_sublist _).length_le
  rw [trim, dropAround, dropEndWhile, List.length_reverse]
  rw [List.length_reverse] at hend
  omega

end Text

namespace Piece

/-- The token of a piece, with its place. -/
def located? (p : Position) (piece : Piece) : Option Located :=
  piece.token?.map fun k => ⟨k, p, (p.after piece.text).offset⟩

theorem locate_cons (p : Position) (piece : Piece) (ps : List Piece) :
    locate p (piece :: ps) = (located? p piece).toList ++ locate (p.after piece.text) ps := by
  cases piece <;> simp [locate, located?, token?]

/-- Tokens behind each other. -/
theorem locate_append (p : Position) (ps qs : List Piece) :
    locate p (ps ++ qs) = locate p ps ++ locate (p.after (ps.flatMap text)) qs := by
  induction ps generalizing p with
  | nil => rfl
  | cons piece ps ih =>
    rw [List.cons_append, locate_cons, locate_cons, ih, List.flatMap_cons, Position.after_append,
      List.append_assoc]

/-- A token stands behind the pieces in front of it. -/
theorem exists_of_locate_eq {p : Position} {ps : List Piece} {ts us : List Located} {t : Located}
    (h : locate p ps = ts ++ t :: us) :
    ∃ before lexeme behind, ps = before ++ .token t.token lexeme :: behind ∧
      locate p before = ts ∧ t.span.start = p.after (before.flatMap text) ∧
      behind.filterMap token? = us.map (·.token) := by
  induction ps generalizing p ts with
  | nil => cases ts <;> cases h
  | cons piece ps ih =>
    rw [locate_cons] at h
    have hskip {found : List Located} (hfound : locate (p.after piece.text) ps = found ++ t :: us)
        (hts : (located? p piece).toList ++ found = ts) :
        ∃ before lexeme behind, piece :: ps = before ++ Piece.token t.token lexeme :: behind ∧
          locate p before = ts ∧ t.span.start = p.after (before.flatMap text) ∧
          behind.filterMap token? = us.map (·.token) := by
      obtain ⟨before, lexeme, behind, rfl, hbefore, hplace, hbehind⟩ := ih hfound
      refine ⟨piece :: before, lexeme, behind, rfl, ?_, ?_, hbehind⟩
      · rw [locate_cons, hbefore, hts]
      · rw [hplace, List.flatMap_cons, Position.after_append]
    cases piece with
    | blank | comment => exact hskip h rfl
    | token k lexeme =>
      cases ts with
      | cons first ts =>
        obtain ⟨rfl, hrest⟩ := List.cons.inj h
        exact hskip hrest rfl
      | nil =>
        obtain ⟨rfl, hrest⟩ := List.cons.inj h
        refine ⟨[], lexeme, ps, rfl, rfl, rfl, ?_⟩
        rw [← hrest]
        exact (map_token_locate _ ps).symm

/-- Pieces have texts. -/
theorem eq_nil_of_flatMap_text {ps : List Piece} (hwf : ∀ p ∈ ps, p.WellFormed)
    (h : ps.flatMap text = []) : ps = [] := by
  cases ps with
  | nil => rfl
  | cons p ps =>
    obtain ⟨hp, -⟩ := List.append_eq_nil_iff.1 h
    exact ((hwf p List.mem_cons_self).text_ne_nil hp).elim

/-- What ends no sooner than the first pieces of a text has them in front. -/
theorem exists_append_of_byteLength_le {ps qs rs us : List Piece} (h : ps ++ qs = rs ++ us)
    (hwf : ∀ p ∈ ps, p.WellFormed)
    (hle : Text.byteLength (ps.flatMap text) ≤ Text.byteLength (rs.flatMap text)) :
    ∃ between, rs = ps ++ between := by
  rcases List.append_eq_append_iff.1 h with ⟨between, hrs, -⟩ | ⟨left, rfl, -⟩
  · exact ⟨between, hrs⟩
  · rw [List.flatMap_append, Text.byteLength_append] at hle
    have hleft : left = [] := by
      refine eq_nil_of_flatMap_text (fun p hp => hwf p (List.mem_append_right _ hp)) ?_
      exact Text.byteLength_eq_zero_iff.1 (by omega)
    exact ⟨[], by rw [hleft, List.append_nil, List.append_nil]⟩

/-- A token stands inside of the text that it is read from. -/
theorem offset_of_mem_locate {p : Position} {ps : List Piece} {t : Located}
    (hwf : ∀ q ∈ ps, q.WellFormed) (h : t ∈ locate p ps) :
    p.offset ≤ t.span.start.offset ∧
      t.span.start.offset < p.offset + Text.byteLength (ps.flatMap text) := by
  obtain ⟨ts, us, hlocate⟩ := List.append_of_mem h
  obtain ⟨before, lexeme, behind, rfl, -, hplace, -⟩ := exists_of_locate_eq hlocate
  have hlexeme : lexeme ≠ [] := (hwf (.token t.token lexeme) (by simp)).text_ne_nil
  have hpos : 0 < Text.byteLength lexeme :=
    Nat.pos_of_ne_zero fun hzero => hlexeme (Text.byteLength_eq_zero_iff.1 hzero)
  rw [hplace, Position.offset_after, List.flatMap_append, Text.byteLength_append,
    List.flatMap_cons, Text.byteLength_append]
  simp only [text]
  omega

/-- The part of a closed text from the place of one piece to that of another. -/
theorem slice?_pieces {t : Text} {before ps behind : List Piece} (ht : Closed t)
    (h : (cut t).pieces = before ++ ps ++ behind) :
    Text.slice? (Text.byteLength (before.flatMap text))
      (Text.byteLength (before.flatMap text) + Text.byteLength (ps.flatMap text)) t =
        some (ps.flatMap text) := by
  have htext := ht.flatMap_text
  rw [h, List.append_assoc, List.flatMap_append, List.flatMap_append] at htext
  have hslice := Text.slice?_append (before.flatMap text) (ps.flatMap text) (behind.flatMap text)
  rwa [htext] at hslice

end Piece

end SqlConsole
