import SqlConsole.Proofs.Token.Cut
/-!
# Lines behind each other

A line feed is a piece of its own behind a closed text, so behind a closed line the lexer begins
anew (`append_of_closed_line`).  A block comment that is open at the end of a text is closed by the
closing mark behind it (`append_close`).

`Lexed.kinds?` are the tokens of a text without their places.
-/

namespace SqlConsole.Piece

/-! ## Line feeds -/

/-- Lines, each with a line feed behind it. -/
def unlines (lines : List Text) : Text := lines.flatMap (· ++ ['\n'])

theorem unlines_cons (line : Text) (lines : List Text) :
    unlines (line :: lines) = line ++ ['\n'] ++ unlines lines := rfl

theorem unlines_eq_join {lines : List Text} (h : lines ≠ []) :
    unlines lines = Text.join ['\n'] lines ++ ['\n'] := by
  induction lines with
  | nil => exact (h rfl).elim
  | cons line lines ih =>
    cases lines with
    | nil => simp [unlines, Text.join]
    | cons next lines =>
      rw [unlines_cons, ih (by simp)]
      simp [Text.join]

theorem isBlank_newline : isBlank '\n' := by decide

/-- The line feed at the end changes nothing. -/
theorem tokens_join (lines : List Text) :
    tokens (Text.join ['\n'] lines) = tokens (unlines lines) ∧
      fault? (Text.join ['\n'] lines) = fault? (unlines lines) := by
  by_cases hnil : lines = []
  · subst hnil
    exact ⟨rfl, rfl⟩
  · rw [unlines_eq_join hnil]
    obtain ⟨htokens, hfault⟩ := concat_of_isBlank isBlank_newline (Text.join ['\n'] lines)
    exact ⟨htokens.symm, hfault.symm⟩

/-- A line feed is a piece of its own behind a closed text. -/
theorem cut_concat_newline {t : Text} (h : Closed t) :
    cut (t ++ ['\n']) = ⟨(cut t).pieces ++ [.blank '\n'], none⟩ := by
  have hseam : ∀ p ∈ (cut t).pieces.getLast?, Seam p ['\n'] := by
    intro p hp
    have hwf := (glued_of_cut t).wellFormed p (List.mem_of_getLast? hp)
    obtain hend | ⟨u, -, hn⟩ := (separates_of_isBlank isBlank_newline).endsBefore hwf
    · simpa [Seam] using hend
    · exact (hn rfl).elim
  rw [cut_append h hseam, cut_of_read (read_of_isBlank isBlank_newline []), cut_nil]

/-- Behind a closed line the lexer begins anew. -/
theorem append_of_closed_line {t : Text} (h : Closed (t ++ ['\n'])) (u : Text) :
    tokens (t ++ ['\n'] ++ u) = tokens (t ++ ['\n']) ++ tokens u ∧
      fault? (t ++ ['\n'] ++ u) = fault? u := by
  have ht : Closed t := by
    rw [closed_iff] at h ⊢
    rwa [(concat_of_isBlank isBlank_newline t).2] at h
  have hseam : ∀ p ∈ (cut (t ++ ['\n'])).pieces.getLast?, Seam p u := by
    intro p hp d _
    rw [cut_concat_newline ht, List.getLast?_concat] at hp
    obtain rfl := Option.some.inj hp
    rfl
  exact ⟨tokens_append h hseam, fault?_append h hseam⟩

/-- The closing mark closes a comment that was open, and nothing else happens. -/
theorem closeComment?_append_close {t : Text} (h : closeComment? t = none) :
    ∃ body, closeComment? (t ++ ['*', '/']) = some (body, []) := by
  fun_induction closeComment? t with
  | case1 => exact ⟨_, rfl⟩
  | case2 c => exact ⟨c :: ['*', '/'], by simp [closeComment?]⟩
  | case3 => cases h
  | case4 c d r hcd ih =>
    obtain ⟨body, hclose⟩ := ih (by simpa using h)
    rw [List.cons_append] at hclose
    exact ⟨c :: body, by simp [closeComment?, hcd, hclose]⟩

/-- A comment that is open at the end of a text is closed by the closing mark. -/
theorem append_close {t : Text} (h : fault? t = some .comment) :
    tokens (t ++ ['*', '/']) = tokens t ∧ fault? (t ++ ['*', '/']) = none := by
  cases hopen : (cut t).openEnd with
  | none => simp [fault?, hopen] at h
  | some found =>
    obtain ⟨fault, u⟩ := found
    obtain rfl : fault = .comment := by simpa [fault?, hopen] using h
    obtain ⟨c, r, rfl, hread⟩ := exists_of_openEnd hopen
    rcases read_eq_error_iff.1 hread with ⟨hq, -, hfault⟩ | ⟨r, rfl, rfl, hclose, -⟩
    · rcases hq with rfl | rfl | rfl <;> cases hfault
    · obtain ⟨body, hclosed⟩ := closeComment?_append_close hclose
      have hread' : read '/' ('*' :: r ++ ['*', '/']) =
          .ok (.comment ('/' :: '*' :: body), []) := by
        simp [read, hclosed, isBlank_signs '/' (by decide)]
      have hcut := cut_append_of_openEnd hopen ['*', '/']
      rw [cut_of_read hread', cut_nil] at hcut
      simp [tokens, fault?, hcut, List.filterMap_cons, token?]

end SqlConsole.Piece

namespace SqlConsole.Lexed

open Piece

/-- The tokens of a text without their places, if nothing is left open in the text. -/
def kinds? (t : Text) : Option (List Token) :=
  match ofText t with
  | .ok lexed => some (lexed.tokens.map (·.token))
  | .error _ => none

theorem kinds?_eq_some_iff {t : Text} {ks : List Token} :
    kinds? t = some ks ↔ Closed t ∧ Piece.tokens t = ks := by
  unfold kinds?
  cases hread : ofText t with
  | ok lexed =>
    obtain ⟨hclosed, htokens⟩ := closed_of_ofText hread
    simp [hclosed, htokens]
  | error found =>
    have hopen : ¬ Closed t := fun hclosed => by
      rw [ofText_of_closed hclosed] at hread
      cases hread
    simp [hopen]

/-- The tokens of closed texts, one text after the other. -/
theorem flatten_mapM_kinds? {ts : List Text} {ks : List Token} :
    (ts.mapM kinds?).map List.flatten = some ks ↔
      (∀ t ∈ ts, Closed t) ∧ ts.flatMap Piece.tokens = ks := by
  induction ts generalizing ks with
  | nil => simp
  | cons t ts ih =>
    have hcons : ((t :: ts).mapM kinds?).map List.flatten =
        (kinds? t).bind fun ks => ((ts.mapM kinds?).map List.flatten).map (ks ++ ·) := by
      rw [List.mapM_cons]
      cases kinds? t with
      | none => rfl
      | some first => cases ts.mapM kinds? <;> rfl
    simp only [hcons, Option.bind_eq_some_iff, Option.map_eq_some_iff, kinds?_eq_some_iff, ih,
      List.forall_mem_cons, List.flatMap_cons]
    constructor
    · rintro ⟨_, ⟨ht, rfl⟩, _, ⟨hts, rfl⟩, rfl⟩
      exact ⟨⟨ht, hts⟩, rfl⟩
    · rintro ⟨⟨ht, hts⟩, rfl⟩
      exact ⟨_, ⟨ht, rfl⟩, _, ⟨hts, rfl⟩, rfl⟩

end SqlConsole.Lexed
