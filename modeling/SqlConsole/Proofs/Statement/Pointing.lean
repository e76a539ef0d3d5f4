import SqlConsole.Proofs.Script.Partition
import SqlConsole.Proofs.Statement.Faults
import SqlConsole.Proofs.Text.Range
import SqlConsole.Proofs.Token.Lossless
/-!
# Where a fault points

A fault of a text points into it (`ParseError.PointsInto`): to one of its tokens, which is the one
that the fault names, or to the end of the statement, or from what is never closed to the end of the
text.

This is so for the faults of a text of its own.  The fault of a statement inside of a block is
handed on as it is, and it points into the statement and not into the block.  So a fault points into
a part of the text that is parsed by itself (`exists_within_of_parse_error`).
-/

namespace SqlConsole

/-! ## Parts of a text -/

namespace Text

theorem trim_infix (t : Text) : trim t <:+: t := by
  obtain ⟨front, back, ht, -, -⟩ := exists_eq_trim t
  exact ⟨front, back, by rw [List.append_assoc, ← ht]⟩

end Text

theorem Source.textBetween_infix (src : Source) (start stop : Nat) :
    src.textBetween start stop <:+: src.text := by
  unfold Source.textBetween
  refine (Text.trim_infix _).trans ?_
  cases h : Text.slice? start (min stop src.bodyEnd) src.text with
  | none => exact List.nil_infix
  | some u => exact Text.infix_of_slice? h

theorem Script.infix_of_mem_split {t s : Text} (h : s ∈ Script.split t) : s <:+: t := by
  have hscan := Script.text_eq_scan t
  obtain ⟨u, rfl, rfl | hu | rfl⟩ := Script.exists_of_mem_split h
  · exact Text.trim_infix _
  · obtain ⟨before, behind, hstatements⟩ := List.append_of_mem hu
    refine (Text.trim_infix u).trans
      ⟨before.flatten, behind.flatten ++ (Script.Scan.ofText t).tail, ?_⟩
    rw [hstatements] at hscan
    simpa using hscan
  · exact (Text.trim_infix _).trans ⟨_, [], by rw [List.append_nil, hscan]⟩

/-! ## Places -/

/-- A text begins with the opening mark of what it never closes. -/
inductive Unclosed.Opens : Unclosed → Text → Prop
  | string {r : Text} (h : Piece.closeQuote? '\'' r = none) : Opens .string ('\'' :: r)
  | identifier {q : Char} {r : Text} (hq : q = '`' ∨ q = '"') (h : Piece.closeQuote? q r = none) :
      Opens .identifier (q :: r)
  | comment {r : Text} (h : Piece.closeComment? r = none) : Opens .comment ('/' :: '*' :: r)

theorem Piece.opens_of_read {c : Char} {r : Text} {fault : Unclosed}
    (h : read c r = .error fault) : fault.Opens (c :: r) := by
  rcases read_eq_error_iff.1 h with ⟨rfl | hquote, hclose, rfl⟩ | ⟨t, rfl, rfl, hclose, rfl⟩
  · exact .string hclose
  · have hne : c ≠ '\'' := by
      rcases hquote with rfl | rfl
      · decide
      · decide
    rw [quotedFault, if_neg hne]
    exact .identifier hquote hclose
  · exact .comment hclose

namespace ParseError

variable {e : ParseError} {s t u : Text} {lexed : Lexed}

/-- The fault points to one of some tokens, which is the one that it names, or to their end. -/
structure PointsAt (e : ParseError) (lexed : Lexed) : Prop where
  place : (∃ k ∈ lexed.tokens, k.span = e.span) ∨ lexed.finish.span = e.span
  unexpected : ∀ what found, e.cause = .unexpected what found →
    ∃ k ∈ lexed.tokens, k.span = e.span ∧ k.token.name = found
  unsupported : ∀ w, e.cause = .unsupported w →
    ∃ k ∈ lexed.tokens, k.span = e.span ∧ k.token = .word w
  ended : ∀ what, e.cause = .endOfStatement what → lexed.finish.span = e.span

/-- The fault points from a mark that is never closed to the end of the text.  What stands in front
of the mark is read to its end. -/
def PointsAtOpenEnd (e : ParseError) (t : Text) : Prop :=
  ∃ fault before part lexed, t = before ++ part ∧ Lexed.ofText before = .ok lexed ∧
    fault.Opens part ∧ e.cause = .unclosed fault ∧ e.span.start.IsBehind before ∧
    e.span.stop = Text.byteLength t

/-- The fault begins at the line and the column of the text that it says, and it points to one of
its tokens or to its end, or to what is never closed. -/
structure PointsInto (e : ParseError) (t : Text) : Prop where
  position : ∃ before, before <+: t ∧ e.span.start.IsBehind before
  tokens : ∀ lexed, Lexed.ofText t = .ok lexed → e.PointsAt lexed
  openEnd : ∀ found, Lexed.ofText t = .error found → e.PointsAtOpenEnd t

theorem pointsInto_of_openEnd (h : e.PointsAtOpenEnd t)
    {found : Unclosed × Span} (ht : Lexed.ofText t = .error found) : e.PointsInto t := by
  have hplace := h
  obtain ⟨_, before, part, _, hwhole, -, -, -, hstart, -⟩ := h
  refine ⟨⟨before, ⟨part, hwhole.symm⟩, hstart⟩, fun lexed hlexed => ?_, fun _ _ => hplace⟩
  rw [hlexed] at ht
  cases ht

theorem position_of_tokens (ht : Lexed.ofText t = .ok lexed) {span : Span}
    (hplace : (∃ k ∈ lexed.tokens, k.span = span) ∨ lexed.finish.span = span) :
    ∃ before, before <+: t ∧ span.start.IsBehind before := by
  rcases hplace with ⟨k, hk, rfl⟩ | rfl
  · obtain ⟨lexeme, ⟨before, behind, hwhole, hstart, -⟩, -⟩ := Lexed.exists_covers_of_ofText ht k hk
    refine ⟨before, ⟨lexeme ++ behind, ?_⟩, hstart⟩
    rw [← List.append_assoc, hwhole]
  · exact ⟨t, List.prefix_rfl, (Lexed.finish_of_ofText ht).1⟩

theorem pointsInto_of_pointsAt (h : e.PointsAt lexed) (ht : Lexed.ofText t = .ok lexed) :
    e.PointsInto t := by
  refine ⟨position_of_tokens ht h.place, fun read hread => ?_, fun found hfound => ?_⟩
  · rw [ht] at hread
    cases hread
    exact h
  · rw [ht] at hfound
    cases hfound

/-- A fault at a token, or at the end, that is not said to be unexpected. -/
theorem pointsAt_of_place
    (hplace : (∃ k ∈ lexed.tokens, k.span = e.span) ∨ lexed.finish.span = e.span)
    (hfound : e.found = none) : e.PointsAt lexed where
  place := hplace
  unexpected what found h := by
    rw [ParseError.found, h] at hfound
    cases hfound
  unsupported w h := by
    rw [ParseError.found, h] at hfound
    cases hfound
  ended what h := by
    rw [ParseError.found, h] at hfound
    cases hfound

end ParseError

namespace Statement

variable {e : ParseError} {s t u : Text} {src : Source} {lexed : Lexed}

/-- The own faults of a statement point to its tokens. -/
theorem pointsAt_of_raised (h : Raised src e) (htokens : src.tokens = lexed.tokens)
    (hfinish : src.finish = lexed.finish) : e.PointsAt lexed := by
  have hplace (rest : List Located) (hrest : rest <:+ src.tokens) :
      (∃ k ∈ lexed.tokens, k.span = src.place rest) ∨ lexed.finish.span = src.place rest := by
    cases rest with
    | nil =>
      rw [← hfinish]
      exact .inr rfl
    | cons k rest => exact .inl ⟨k, htokens ▸ hrest.subset List.mem_cons_self, rfl⟩
  cases h with
  | @unexpected k hk what =>
    have hmem : k ∈ lexed.tokens := htokens ▸ hk
    refine ⟨.inl ⟨k, hmem, rfl⟩, fun _ found h => ?_, fun _ h => ?_, fun _ h => ?_⟩
    · cases h
      exact ⟨k, hmem, rfl, rfl⟩
    · cases h
    · cases h
  | endOfStatement what =>
    rw [hfinish]
    refine ⟨.inr rfl, fun _ _ h => ?_, fun _ h => ?_, fun _ _ => rfl⟩
    · cases h
    · cases h
  | @severalStatements k hk hterminator hfirst =>
    exact ParseError.pointsAt_of_place
      (.inl ⟨k, htokens ▸ List.dropLast_subset _ hk, rfl⟩) rfl
  | @unsupported k w hk hword =>
    have hmem : k ∈ lexed.tokens := htokens ▸ hk
    refine ⟨.inl ⟨k, hmem, rfl⟩, fun _ _ h => ?_, fun _ h => ?_, fun _ h => ?_⟩
    · cases h
    · cases h
      exact ⟨k, hmem, rfl, hword⟩
    · cases h
  | @notAnInsert s rest hrest => exact ParseError.pointsAt_of_place (hplace rest hrest) rfl

theorem exists_lexed_of_ofText (h : Source.ofText t = .ok src) :
    ∃ lexed, Lexed.ofText t = .ok lexed ∧ src.text = t ∧ src.tokens = lexed.tokens ∧
      src.finish = lexed.finish := by
  unfold Source.ofText at h
  cases hlexed : Lexed.ofText t with
  | error found =>
    rw [hlexed] at h
    cases h
  | ok lexed =>
    rw [hlexed] at h
    cases h
    exact ⟨lexed, rfl, rfl, rfl, rfl⟩

/-- What is never closed is pointed to from its opening mark on. -/
theorem pointsAtOpenEnd {what : Unclosed} {span : Span}
    (h : Lexed.ofText t = .error (what, span)) :
    (⟨.unclosed what, span⟩ : ParseError).PointsAtOpenEnd t := by
  cases hopen : (Piece.cut t).openEnd with
  | none =>
    rw [Lexed.ofText_of_closed hopen] at h
    cases h
  | some found =>
    obtain ⟨fault, part⟩ := found
    rw [Lexed.ofText_of_openEnd hopen] at h
    cases h
    obtain ⟨c, r, rfl, hread⟩ := Piece.exists_of_openEnd hopen
    have hpieces : (Piece.cut t).pieces = [] ++ (Piece.cut t).pieces ++ [] := by simp
    have hbefore : Piece.Closed ((Piece.cut t).pieces.flatMap Piece.text) := by
      rw [Piece.Closed, Piece.cut_of_pieces_eq_infix hpieces]
    have hwhole : (Piece.cut t).pieces.flatMap Piece.text ++ c :: r = t := by
      have htext := Piece.flatMap_text_cut t
      rwa [Piece.Cut.openText, hopen] at htext
    refine ⟨what, _, c :: r, _, hwhole.symm, Lexed.ofText_of_closed hbefore,
      Piece.opens_of_read hread, rfl, Position.isBehind_after _, ?_⟩
    rw [Position.offset_after]
    simp [Position.start]

/-! ## Parts that are parsed by themselves -/

/-- The texts inside of a block that are parsed by themselves. -/
def innerStatements (t : Text) : List Text :=
  match Source.ofText t with
  | .ok src => src.innerStatements
  | .error _ => []

/-- A text, the statements inside of it, those inside of them, and so on. -/
inductive Within : Text → Text → Prop
  | self (t : Text) : Within t t
  | inner {s u t : Text} (hu : u ∈ innerStatements t) (hs : Within s u) : Within s t

theorem infix_of_mem_innerStatements (h : s ∈ innerStatements t) : s <:+: t := by
  unfold innerStatements at h
  split at h
  · next src hsrc =>
    obtain ⟨_, -, htext, -, -⟩ := exists_lexed_of_ofText hsrc
    unfold Source.innerStatements at h
    split at h
    · dsimp only at h
      split at h
      · rw [← htext]
        exact (Script.infix_of_mem_split h).trans (src.textBetween_infix _ _)
      · cases h
    · cases h
  · cases h

theorem Within.isInfix (h : Within s t) : s <:+: t := by
  induction h with
  | self => exact List.infix_rfl
  | inner hu _ ih => exact ih.trans (infix_of_mem_innerStatements hu)

/-- A fault points into the text, or it is that of a statement inside of the text. -/
theorem pointsInto_or_inner (h : parse t = .error e) :
    e.PointsInto t ∨ ∃ s ∈ innerStatements t, s.length < t.length ∧ parse s = .error e := by
  rcases cases_of_parse_error h with ⟨what, span, hlexed, rfl⟩ | ⟨src, hsrc, hraised | hinner⟩
  · exact .inl (ParseError.pointsInto_of_openEnd (pointsAtOpenEnd hlexed) hlexed)
  · obtain ⟨lexed, hlexed, -, htokens, hfinish⟩ := exists_lexed_of_ofText hsrc
    exact .inl (ParseError.pointsInto_of_pointsAt (pointsAt_of_raised hraised htokens hfinish)
      hlexed)
  · rw [innerStatements, hsrc]
    exact .inr hinner

/-- A fault points into a part of the text that has it when it is parsed by itself. -/
theorem exists_within_of_parse_error (h : parse t = .error e) :
    ∃ s, Within s t ∧ parse s = .error e ∧ e.PointsInto s := by
  induction hlength : t.length using Nat.strongRecOn generalizing t with
  | ind n ih =>
    subst hlength
    rcases pointsInto_or_inner h with hpoints | ⟨u, hu, hshorter, hfault⟩
    · exact ⟨t, .self t, h, hpoints⟩
    · obtain ⟨s, hs, hparse, hpoints⟩ := ih u.length hshorter hfault rfl
      exact ⟨s, .inner hu hs, hparse, hpoints⟩

/-- A fault points into a part of the text that has it when it is parsed by itself.  It points into
the text unless a statement inside of the text has the same fault. -/
theorem fault_points_into_part (h : parse t = .error e) :
    (∃ s, Within s t ∧ s <:+: t ∧ parse s = .error e ∧ e.PointsInto s) ∧
      ((∀ s ∈ innerStatements t, parse s ≠ .error e) → e.PointsInto t) := by
  constructor
  · obtain ⟨s, hs, hparse, hpoints⟩ := exists_within_of_parse_error h
    exact ⟨s, hs, hs.isInfix, hparse, hpoints⟩
  · intro hinner
    rcases pointsInto_or_inner h with hpoints | ⟨s, hs, -, hfault⟩
    · exact hpoints
    · exact (hinner s hs hfault).elim

/-- A block with an insert that has no query. -/
def brokenInsert : Text := "EXECUTE STATEMENT SET BEGIN\nINSERT INTO a;\nEND;"

theorem fault_points_into_part_unknown :
    ∃ e, parse "\n foo 'a'" = .error e ∧ e.span = ⟨⟨2, 2, 2⟩, 5⟩ ∧ e.PointsInto "\n foo 'a'" := by
  have hparse : parse "\n foo 'a'" = .error ⟨.unsupported "foo", ⟨⟨2, 2, 2⟩, 5⟩⟩ := by
    decide +kernel
  exact ⟨_, hparse, rfl, (fault_points_into_part hparse).2 (by decide +kernel)⟩

/-- The fault is found at the `;` behind `a`, at line 2 and column 14 of the block. -/
theorem inner_fault_points_elsewhere :
    ∃ e, parse brokenInsert = .error e ∧ e.span = ⟨⟨13, 1, 14⟩, 14⟩ ∧
      parse "INSERT INTO a;" = .error e ∧ ¬ e.PointsInto brokenInsert := by
  refine ⟨⟨.unexpected "query or VALUES" "';'", ⟨⟨13, 1, 14⟩, 14⟩⟩, by decide +kernel, rfl,
    by decide +kernel, fun hpoints => ?_⟩
  have hnone : (Lexed.ofText brokenInsert).toOption.any
      (fun lexed => lexed.tokens.all (·.span != ⟨⟨13, 1, 14⟩, 14⟩)) := by decide +kernel
  cases hlexed : Lexed.ofText brokenInsert with
  | error found =>
    rw [hlexed] at hnone
    cases hnone
  | ok lexed =>
    rw [hlexed] at hnone
    obtain ⟨k, hk, hspan, -⟩ := (hpoints.tokens lexed hlexed).unexpected _ _ rfl
    have hother := List.all_eq_true.1 hnone k hk
    rw [hspan] at hother
    exact absurd hother (by decide)

end Statement

end SqlConsole
