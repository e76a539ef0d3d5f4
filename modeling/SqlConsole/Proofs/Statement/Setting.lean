import SqlConsole.Proofs.Script.Blocks
import SqlConsole.Proofs.Statement.Steps
import SqlConsole.Session.Dispatch
/-!
# Listed properties are statements

An entry in the list of all properties, between `SET` and a terminator, is a statement again
(`assignment`), whatever stands in the key and in the value: quotes, terminators, comment marks and
line feeds.  It is one statement (`split_assignment`), and it sets the property that the entry is
about (`parse_assignment`).  The pieces of the statement are known (`cut_assignment`), and
everything else is told from them.
-/

namespace SqlConsole.Statement

open Piece StatementParser

/-- The statement that sets a property, in the words of the list of all properties. -/
def assignment (key value : Text) : Text := "SET " ++ Session.propertyEntry key value ++ ";"

example : assignment "it's" "a;b" = "SET 'it''s' = 'a;b';" := by decide

/-- The pieces of an assignment in front of its terminator. -/
def assignmentPieces (key value : Text) : List Piece :=
  [.token (.word "SET") "SET", .blank ' ', .token (.string key) (quote '\'' key), .blank ' ',
    .token (.symbol '=') ['='], .blank ' ', .token (.string value) (quote '\'' value)]

/-! ## Pieces -/

theorem assignment_eq (key value : Text) : assignment key value =
    (assignmentPieces key value ++ [Piece.token (.symbol ';') [';']]).flatMap text := by
  simp [assignment, Session.propertyEntry, assignmentPieces, text, quote]

theorem glued_assignment (key value : Text) :
    Glued (assignmentPieces key value ++ [.token (.symbol ';') [';']]) [] := by
  have hword : (Piece.token (.word "SET") "SET").WellFormed :=
    .word (by decide) (by decide) (by decide) (List.all_eq_true.1 (by decide))
  have hstring (t : Text) : (Piece.token (.string t) (quote '\'' t)).WellFormed :=
    .quoted (.inl rfl) t
  have hblank : (Piece.blank ' ').WellFormed := .blank (by decide)
  have hsymbol {c : Char} (hc : c = '=' ∨ c = ';') : (Piece.token (.symbol c) [c]).WellFormed := by
    rcases hc with rfl | rfl <;>
      exact .symbol (by decide) (by simp [IsQuote]) (by decide) (by decide)
  -- No piece goes on with the first character of the next one: only a quote could go on with a
  -- string literal, and a blank or the terminator follows it.
  exact ⟨hword, seam_cons (by decide) _, hblank, seam_cons rfl _,
    hstring key, seam_string key (by decide) _, hblank, seam_cons rfl _,
    hsymbol (.inl rfl), seam_cons (by decide) _, hblank, seam_cons rfl _,
    hstring value, seam_string value (by decide) _, hsymbol (.inr rfl), seam_nil _, trivial⟩

/-- **The lexer reads key and value back**, whatever stands in them. -/
theorem cut_assignment (key value : Text) : cut (assignment key value) =
    ⟨assignmentPieces key value ++ [.token (.symbol ';') [';']], none⟩ := by
  have hcut := cut_of_glued (glued_assignment key value)
  rw [← assignment_eq, List.append_nil, cut_nil, List.append_nil] at hcut
  exact hcut

theorem tokens_assignment (key value : Text) : tokens (assignment key value) =
    [.word "SET", .string key, .symbol '=', .string value, .symbol ';'] := by
  rw [tokens, cut_assignment]
  rfl

/-! ## Splitting -/

theorem isSegment_assignment (key value : Text) : Script.IsSegment (assignment key value) := by
  refine ⟨assignmentPieces key value, cut_assignment key value, fun p hp => ?_⟩
  simp only [assignmentPieces, List.mem_cons, List.not_mem_nil, or_false] at hp
  rcases hp with rfl | rfl | rfl | rfl | rfl | rfl | rfl <;> rfl

theorem opensBlock_assignment (key value : Text) :
    Script.opensBlock (assignment key value) = false := by
  cases hopens : Script.opensBlock (assignment key value) with
  | false => rfl
  | true =>
    obtain ⟨w, _, _, hw, hupper, -⟩ := Script.tokens_of_opensBlock hopens
    rw [tokens_assignment] at hw
    obtain rfl := Token.word.inj (List.cons.inj hw).1
    exact absurd hupper (by decide)

/-- **An assignment is one statement.** -/
theorem split_assignment (key value : Text) :
    Script.split (assignment key value) = [assignment key value] := by
  have htrim : Text.trim (assignment key value) = assignment key value := by
    refine (isSegment_assignment key value).terminated.trim_eq fun c hc => ?_
    obtain rfl : 'S' = c := Option.some.inj hc
    decide
  have hbare : Script.isBareCommand (assignment key value) = false :=
    Script.isBareCommand_eq_false (c := 'S') List.mem_cons_self (by decide)
  have hjoin : Text.join ['\n'] [assignment key value] = assignment key value := by
    simp [Text.join]
  have hsplit := Script.split_lines (List.cons_ne_nil _ [])
    (List.forall_mem_singleton.2 (isSegment_assignment key value))
    (List.forall_mem_singleton.2 htrim)
    (List.forall_mem_singleton.2 (opensBlock_assignment key value)) (by rw [hjoin]; exact hbare)
  rw [hjoin] at hsplit
  exact hsplit

/-! ## Parsing -/

/-- `SET` with two string literals around a `=`. -/
theorem set_apply {w k e v last : Located} {key value : Text} (hkey : k.token = .string key)
    (hequals : e.token = .symbol '=') (hvalue : v.token = .string value)
    (hlast : last.token = .symbol ';') (src : Source) :
    set src [w, k, e, v, last] =
      .ok (.set (some (Text.trim key)) (some (Text.trim value)), [last]) := by
  obtain ⟨_, _⟩ := k
  obtain ⟨_, _⟩ := e
  obtain ⟨_, _⟩ := v
  obtain ⟨_, _⟩ := last
  cases hkey
  cases hequals
  cases hvalue
  cases hlast
  rfl

/-- **An assignment sets the property that it spells.** -/
theorem parse_assignment (key value : Text) : parse (assignment key value) =
    .ok (some (.set (some (Text.trim key)) (some (Text.trim value)))) := by
  have hclosed : Closed (assignment key value) := by
    rw [Closed, cut_assignment]
  obtain ⟨src, hsrc, htokens⟩ : ∃ src, Source.ofText (assignment key value) = .ok src ∧
      src.tokens = locate .start (cut (assignment key value)).pieces := by
    rw [Source.ofText, Lexed.ofText_of_closed hclosed]
    exact ⟨_, rfl, rfl⟩
  have hkinds : src.tokens.map (·.token) =
      [.word "SET", .string key, .symbol '=', .string value, .symbol ';'] := by
    rw [htokens, map_token_locate, ← tokens_assignment]
    rfl
  obtain ⟨w, k, e, v, last, hall, hw, hk, he, hv, hlast⟩ : ∃ w k e v last,
      src.tokens = [w, k, e, v, last] ∧ w.token = .word "SET" ∧ k.token = .string key ∧
        e.token = .symbol '=' ∧ v.token = .string value ∧ last.token = .symbol ';' := by
    simp only [List.map_eq_cons_iff, List.map_eq_nil_iff] at hkinds
    obtain ⟨w, _, hall, hw, k, _, rfl, hk, e, _, rfl, he, v, _, rfl, hv, last, _, rfl, hlast, rfl⟩ :=
      hkinds
    exact ⟨w, k, e, v, last, hall, hw, hk, he, hv, hlast⟩
  have hinner : ∀ t ∈ src.tokens.dropLast, t.token ≠ .symbol ';' := by
    rw [hall]
    simp [hw, hk, he, hv]
  refine parse_eq_ok_iff.2 ⟨src, [last], hsrc, ?_⟩
  rw [hall, operation_eq_firstWord rfl (rejectInnerTerminators_of (.inr hinner) _),
    firstWord_of_word hw rfl]
  exact run_bind_ok (set_apply hk he hv hlast src)

end SqlConsole.Statement
