import SqlConsole.Statement.Parse
/-!
# How a statement is parsed

A statement is taken apart step by step: its tokens, what the first of them says about it
(`cases_of_firstWord`), and the operation (`parse_eq_ok_iff`).  Where there is no operation, there is
at most a terminator (`atEnd_of_parse_eq_none`).
-/

namespace SqlConsole.Statement

open StatementParser

variable {α β : Type} {src : Source} {ts us : List Located}

/-! ## Steps -/

theorem run_bind (m : StatementParser α) (f : α → StatementParser β) (src : Source)
    (ts : List Located) :
    (m >>= f) src ts =
      match m src ts with
      | .ok (a, ts) => f a src ts
      | .error e => .error e := by
  show (m src ts >>= fun p => f p.1 src p.2) = _
  cases m src ts <;> rfl

/-- A step that succeeds, and what follows it. -/
theorem run_bind_ok {m : StatementParser α} {f : α → StatementParser β} {a : α}
    (h : m src ts = .ok (a, us)) : (m >>= f) src ts = f a src us := by
  rw [run_bind, h]

/-- Both steps of what succeeds do. -/
theorem ok_of_run_bind {m : StatementParser α} {f : α → StatementParser β} {b : β}
    (h : (m >>= f) src ts = .ok (b, us)) :
    ∃ a mid, m src ts = .ok (a, mid) ∧ f a src mid = .ok (b, us) := by
  rw [run_bind] at h
  cases hm : m src ts with
  | error e =>
    rw [hm] at h
    cases h
  | ok found =>
    rw [hm] at h
    exact ⟨found.1, found.2, rfl, h⟩

theorem eq_of_unexpected {expected : Text} {a : α}
    (h : (unexpected expected : StatementParser α) src ts = .ok (a, us)) : False := by
  cases ts <;> cases h

/-! ## The first token -/

theorem rejectInnerTerminators_apply (src : Source) (ts : List Located) :
    rejectInnerTerminators src ts =
      if startsWith ["EXECUTE", "STATEMENT"] src.tokens then .ok ((), ts)
      else match src.tokens.dropLast.find? (·.token == .symbol ';') with
        | some t => .error ⟨.severalStatements, t.span⟩
        | none => .ok ((), ts) := by
  have hrun : rejectInnerTerminators src ts =
      (if !startsWith ["EXECUTE", "STATEMENT"] src.tokens then
        match src.tokens.dropLast.find? (·.token == .symbol ';') with
        | some t => throw ⟨.severalStatements, t.span⟩
        | none => pure ()
      else pure () : StatementParser Unit) src ts := rfl
  rw [hrun]
  cases startsWith ["EXECUTE", "STATEMENT"] src.tokens with
  | true => rfl
  | false => cases src.tokens.dropLast.find? (·.token == .symbol ';') <;> rfl

/-- No tokens are taken where inner terminators are looked for. -/
theorem eq_of_rejectInnerTerminators {u : Unit}
    (h : rejectInnerTerminators src ts = .ok (u, us)) :
    us = ts ∧ (startsWith ["EXECUTE", "STATEMENT"] src.tokens = false →
      ∀ t ∈ src.tokens.dropLast, t.token ≠ .symbol ';') := by
  rw [rejectInnerTerminators_apply] at h
  cases hstarts : startsWith ["EXECUTE", "STATEMENT"] src.tokens with
  | true =>
    rw [hstarts] at h
    cases h
    exact ⟨rfl, fun hnot => by cases hnot⟩
  | false =>
    rw [hstarts] at h
    cases hfind : src.tokens.dropLast.find? (·.token == .symbol ';') with
    | some t =>
      rw [hfind] at h
      cases h
    | none =>
      rw [hfind] at h
      cases h
      refine ⟨rfl, fun _ t ht => ?_⟩
      simpa using List.find?_eq_none.1 hfind t ht

/-- Where there are no inner terminators, or the statement is a block, nothing is rejected. -/
theorem rejectInnerTerminators_of (h : startsWith ["EXECUTE", "STATEMENT"] src.tokens ∨
    ∀ t ∈ src.tokens.dropLast, t.token ≠ .symbol ';') (ts : List Located) :
    rejectInnerTerminators src ts = .ok ((), ts) := by
  rw [rejectInnerTerminators_apply]
  rcases h with hstarts | hnone
  · rw [if_pos hstarts]
  · have hfind : src.tokens.dropLast.find? (·.token == .symbol ';') = none := by
      rw [List.find?_eq_none]
      intro t ht
      simpa using hnone t ht
    rw [hfind]
    split <;> rfl

variable {inner : Text → Except ParseError (Option Operation)}

theorem operation_of_atEnd (inner : Text → Except ParseError (Option Operation)) (src : Source)
    (h : atEnd ts) : operation inner src ts = .ok (none, ts) := by
  have hrun : operation inner src ts =
      (if atEnd ts then pure none else _ : StatementParser (Option Operation)) src ts := rfl
  rw [hrun, if_pos h]
  rfl

/-- What the first token says about a statement. -/
def firstWord (inner : Text → Except ParseError (Option Operation)) (t : Located) :
    StatementParser (Option Operation) :=
  match t.token with
  | .word w =>
    match Opening.ofWord? w with
    | some opening => return some (← ofOpening inner opening)
    | none => throw ⟨.unsupported w, t.span⟩
  | .symbol '(' => return some (.query (← read).body)
  | _ => unexpected "statement keyword"

theorem operation_of_not_atEnd {t : Located} (h : atEnd (t :: ts) = false) :
    operation inner src (t :: ts) =
      (rejectInnerTerminators >>= fun _ => get >>= fun left =>
        match left with
        | [] => pure none
        | t :: _ => firstWord inner t) src (t :: ts) := by
  have hrun : operation inner src (t :: ts) =
      (if atEnd (t :: ts) then pure none
        else rejectInnerTerminators >>= fun _ => get >>= fun left =>
          match left with
          | [] => pure none
          | t :: _ => firstWord inner t : StatementParser (Option Operation)) src (t :: ts) := rfl
  rw [hrun, h, if_neg Bool.false_ne_true]

/-- Where more than a terminator is left, the first token says what the statement is. -/
theorem firstWord_of_operation {t : Located} (h : atEnd (t :: ts) = false)
    {found : Option Operation} (hfound : operation inner src (t :: ts) = .ok (found, us)) :
    rejectInnerTerminators src (t :: ts) = .ok ((), t :: ts) ∧
      firstWord inner t src (t :: ts) = .ok (found, us) := by
  rw [operation_of_not_atEnd h] at hfound
  obtain ⟨u, mid, hreject, hrest⟩ := ok_of_run_bind hfound
  obtain ⟨rfl, -⟩ := eq_of_rejectInnerTerminators hreject
  exact ⟨hreject, hrest⟩

theorem operation_eq_firstWord {t : Located} (h : atEnd (t :: ts) = false)
    (hreject : rejectInnerTerminators src (t :: ts) = .ok ((), t :: ts)) :
    operation inner src (t :: ts) = firstWord inner t src (t :: ts) := by
  rw [operation_of_not_atEnd h, run_bind_ok hreject]
  rfl

/-- A known word says how the statement goes on. -/
theorem firstWord_of_word {t : Located} {w : Text} {opening : Opening}
    (htoken : t.token = .word w) (hopening : Opening.ofWord? w = some opening) :
    firstWord inner t = ofOpening inner opening >>= fun op => pure (some op) := by
  unfold firstWord
  rw [htoken]
  simp only [hopening]

theorem firstWord_of_symbol {t : Located} {c : Char} (hc : c ≠ '(') (htoken : t.token = .symbol c)
    (inner : Text → Except ParseError (Option Operation)) :
    firstWord inner t = unexpected "statement keyword" := by
  unfold firstWord
  rw [htoken]
  split
  · next heq => cases heq
  · next heq => exact (hc (Token.symbol.inj heq)).elim
  · rfl

/-- The first token is a word that statements begin with, or it opens a query in parentheses. -/
theorem cases_of_firstWord {t : Located} {found : Option Operation}
    (h : firstWord inner t src ts = .ok (found, us)) :
    (∃ w opening op, t.token = .word w ∧ Opening.ofWord? w = some opening ∧ found = some op ∧
        ofOpening inner opening src ts = .ok (op, us)) ∨
      t.token = .symbol '(' ∧ found = some (.query src.body) := by
  cases htoken : t.token with
  | word w =>
    unfold firstWord at h
    rw [htoken] at h
    cases hopening : Opening.ofWord? w with
    | some opening =>
      simp only [hopening] at h
      obtain ⟨op, mid, hop, hrest⟩ := ok_of_run_bind h
      cases hrest
      exact .inl ⟨w, opening, op, rfl, hopening, rfl, hop⟩
    | none =>
      simp only [hopening] at h
      cases h
  | symbol c =>
    by_cases hc : c = '('
    · subst hc
      unfold firstWord at h
      rw [htoken] at h
      cases h
      exact .inr ⟨rfl, rfl⟩
    · rw [firstWord_of_symbol hc htoken] at h
      exact (eq_of_unexpected h).elim
  | quoted | string | number =>
    unfold firstWord at h
    rw [htoken] at h
    exact (eq_of_unexpected h).elim

/-! ## Statements -/

/-- The parser of the statements inside of a statement, which are shorter. -/
def inside (t : Text) (s : Text) : Except ParseError (Option Operation) :=
  if s.length < t.length then parse s else .ok none

/-- Parsing reads the source of a text, and finds the operation in it. -/
theorem parse_eq (t : Text) : parse t =
    (Source.ofText t).bind fun src =>
      (operation (inside t) src src.tokens).bind fun found => .ok found.1 := by
  rw [parse]
  rfl

/-- A statement is parsed if its source is read and an operation is found in it. -/
theorem parse_eq_ok_iff {t : Text} {found : Option Operation} :
    parse t = .ok found ↔
      ∃ src left, Source.ofText t = .ok src ∧
        operation (inside t) src src.tokens = .ok (found, left) := by
  rw [parse_eq]
  cases Source.ofText t with
  | error e =>
    constructor
    · intro h
      cases h
    · rintro ⟨src, left, hsrc, -⟩
      cases hsrc
  | ok src =>
    show (operation (inside t) src src.tokens).bind _ = _ ↔ _
    cases hop : operation (inside t) src src.tokens with
    | error e =>
      constructor
      · intro h
        cases h
      · rintro ⟨src', left, hsrc, hfound⟩
        cases hsrc
        rw [hop] at hfound
        cases hfound
    | ok made =>
      constructor
      · intro h
        cases h
        exact ⟨src, made.2, rfl, hop⟩
      · rintro ⟨src', left, hsrc, hfound⟩
        cases hsrc
        rw [hop] at hfound
        cases hfound
        rfl

/-- A statement with an operation has more than a terminator, and its first token says what it
is. -/
theorem parse_eq_ok_some_iff {t : Text} {op : Operation} :
    parse t = .ok (some op) ↔
      ∃ src k ts left, Source.ofText t = .ok src ∧ src.tokens = k :: ts ∧ atEnd (k :: ts) = false ∧
        rejectInnerTerminators src (k :: ts) = .ok ((), k :: ts) ∧
        firstWord (inside t) k src (k :: ts) = .ok (some op, left) := by
  rw [parse_eq_ok_iff]
  constructor
  · rintro ⟨src, left, hsrc, hop⟩
    cases hend : atEnd src.tokens with
    | true =>
      rw [operation_of_atEnd _ _ hend] at hop
      cases hop
    | false =>
      cases htokens : src.tokens with
      | nil =>
        rw [htokens] at hend
        cases hend
      | cons k ts =>
        rw [htokens] at hop hend
        obtain ⟨hreject, hword⟩ := firstWord_of_operation hend hop
        exact ⟨src, k, ts, left, hsrc, htokens, hend, hreject, hword⟩
  · rintro ⟨src, k, ts, left, hsrc, htokens, hend, hreject, hword⟩
    refine ⟨src, left, hsrc, ?_⟩
    rw [htokens, operation_eq_firstWord hend hreject]
    exact hword

/-- The source of a text: its tokens, and where its terminator begins. -/
theorem source_of_ofText {t : Text} {src : Source} (h : Source.ofText t = .ok src) :
    ∃ lexed, Lexed.ofText t = .ok lexed ∧ src.text = t ∧ src.tokens = lexed.tokens := by
  unfold Source.ofText at h
  cases hlexed : Lexed.ofText t with
  | error found =>
    rw [hlexed] at h
    cases h
  | ok lexed =>
    rw [hlexed] at h
    cases h
    exact ⟨lexed, rfl, rfl, rfl⟩

theorem parse_nil : parse [] = .ok none := by
  have hsrc : Source.ofText [] = .ok ⟨[], [], .start, 0⟩ := by
    simp [Source.ofText, Lexed.ofText, Piece.locate, Position.after_nil]
  exact parse_eq_ok_iff.2 ⟨_, [], hsrc, operation_of_atEnd _ _ rfl⟩

/-- A statement without an operation holds at most a terminator. -/
theorem atEnd_of_parse_eq_none {t : Text} (h : parse t = .ok none) :
    ∃ lexed, Lexed.ofText t = .ok lexed ∧ atEnd lexed.tokens := by
  obtain ⟨src, left, hsrc, hop⟩ := parse_eq_ok_iff.1 h
  obtain ⟨lexed, hlexed, -, htokens⟩ := source_of_ofText hsrc
  refine ⟨lexed, hlexed, ?_⟩
  rw [← htokens]
  cases hend : atEnd src.tokens with
  | true => rfl
  | false =>
    cases hfirst : src.tokens with
    | nil =>
      rw [hfirst] at hend
      cases hend
    | cons t ts =>
      rw [hfirst] at hop hend
      obtain ⟨-, hword⟩ := firstWord_of_operation hend hop
      rcases cases_of_firstWord hword with ⟨w, opening, op, -, -, hfound, -⟩ | ⟨-, hfound⟩
      · cases hfound
      · cases hfound

end SqlConsole.Statement
