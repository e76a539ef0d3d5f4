import Mathlib.Data.List.Forall2
import SqlConsole.Proofs.Statement.Steps
/-!
# Steps over the same tokens

Blanks and comments move the tokens of a statement to other places, and nothing else.  Two runs of a
step over the same tokens both find a fault, or both answer and leave the same tokens (`Agree`); a
step whose runs always do so is one that layout does not matter to (`Parallel`).  Steps are put
together from steps, and so are the proofs.
-/

namespace SqlConsole

namespace Statement

open StatementParser

/-! ## Runs that agree -/

theorem forall₂_iff_map_eq {α β : Type} (f : α → β) {l m : List α} :
    List.Forall₂ (fun a b => f a = f b) l m ↔ l.map f = m.map f := by
  rw [← List.forall₂_eq_eq_eq, List.forall₂_map_left_iff, List.forall₂_map_right_iff]

/-- The same tokens, wherever they stand. -/
abbrev SameTokens : List Located → List Located → Prop :=
  List.Forall₂ fun t u => t.token = u.token

theorem sameTokens_iff {ts us : List Located} :
    SameTokens ts us ↔ ts.map (·.token) = us.map (·.token) := forall₂_iff_map_eq _

variable {α β γ δ : Type} {src src' : Source} {ts us : List Located} {R : α → β → Prop}
  {Q : γ → δ → Prop}

/-- Both are faults, or both are answers that are related. -/
inductive Both (R : α → β → Prop) : Except ParseError α → Except ParseError β → Prop where
  | answers {a : α} {b : β} (h : R a b) : Both R (.ok a) (.ok b)
  | faults (e e' : ParseError) : Both R (.error e) (.error e')

theorem Both.imp {R' : α → β → Prop} {x : Except ParseError α} {y : Except ParseError β}
    (h : Both R x y) (hR : ∀ a b, R a b → R' a b) : Both R' x y := by
  cases h with
  | answers h => exact .answers (hR _ _ h)
  | faults e e' => exact .faults e e'

/-- Both are faults, or both are answers that are related, and the same tokens are left. -/
def Agree (R : α → β → Prop) :
    Except ParseError (α × List Located) → Except ParseError (β × List Located) → Prop :=
  Both fun x y => R x.1 y.1 ∧ SameTokens x.2 y.2

theorem Agree.imp {R' : α → β → Prop} {x : Except ParseError (α × List Located)}
    {y : Except ParseError (β × List Located)} (h : Agree R x y) (hR : ∀ a b, R a b → R' a b) :
    Agree R' x y :=
  Both.imp h fun a b hab => ⟨hR a.1 b.1 hab.1, hab.2⟩

theorem Agree.answers {a : α} {b : β} (h : R a b) (hsame : SameTokens ts us) :
    Agree R (.ok (a, ts)) (.ok (b, us)) := Both.answers ⟨h, hsame⟩

/-- Two steps, and what follows where both answer. -/
theorem Agree.bind {m : StatementParser α} {n : StatementParser β} {f : α → StatementParser γ}
    {g : β → StatementParser δ} (h : Agree R (m src ts) (n src' us))
    (hf : ∀ a b mid mid', m src ts = .ok (a, mid) → n src' us = .ok (b, mid') → R a b →
      SameTokens mid mid' → Agree Q (f a src mid) (g b src' mid')) :
    Agree Q ((m >>= f) src ts) ((n >>= g) src' us) := by
  rw [run_bind, run_bind]
  generalize hm : m src ts = x at h
  generalize hn : n src' us = y at h
  cases h with
  | answers h => exact hf _ _ _ _ hm hn h.1 h.2
  | faults e e' => exact .faults e e'

/-- Two steps agree over the same tokens, whatever the statements are. -/
def Parallel (R : α → β → Prop) (m : StatementParser α) (n : StatementParser β) : Prop :=
  ∀ ⦃src src' : Source⦄ ⦃ts us : List Located⦄, SameTokens ts us → Agree R (m src ts) (n src' us)

namespace Parallel

theorem result {a : α} {b : β} (h : R a b) :
    Parallel R (pure a : StatementParser α) (pure b : StatementParser β) :=
  fun _ _ _ _ hsame => .answers h hsame

theorem fault (e e' : ParseError) :
    Parallel R (throw e : StatementParser α) (throw e' : StatementParser β) :=
  fun _ _ _ _ _ => .faults e e'

theorem unexpected (what what' : Text) :
    Parallel R (unexpected what : StatementParser α) (unexpected what' : StatementParser β) := by
  intro src src' ts us hsame
  cases hsame with
  | nil => exact .faults _ _
  | cons => exact .faults _ _

theorem bind {m : StatementParser α} {n : StatementParser β} {f : α → StatementParser γ}
    {g : β → StatementParser δ} (hm : Parallel R m n)
    (hf : ∀ a b, R a b → Parallel Q (f a) (g b)) : Parallel Q (m >>= f) (n >>= g) :=
  fun _ _ _ _ hsame => (hm hsame).bind fun a b _ _ _ _ hab hmid => hf a b hab hmid

/-- A step whose answer is the same in both runs. -/
theorem bind_eq {m n : StatementParser α} {f : α → StatementParser γ} {g : α → StatementParser δ}
    (hm : Parallel Eq m n) (hf : ∀ a, Parallel Q (f a) (g a)) : Parallel Q (m >>= f) (n >>= g) := by
  refine hm.bind fun a b hab => ?_
  subst hab
  exact hf a

/-- A step that looks at the tokens that are left. -/
theorem get_bind {f : List Located → StatementParser α} {g : List Located → StatementParser β}
    (h : ∀ ts us, SameTokens ts us → Parallel R (f ts) (g us)) :
    Parallel R (get >>= f) (get >>= g) :=
  fun _ _ ts us hsame => h ts us hsame hsame

/-- A step that looks at the statement. -/
theorem read_bind {f : Source → StatementParser α} {g : Source → StatementParser β}
    (h : ∀ src src', Parallel R (f src) (g src')) : Parallel R (read >>= f) (read >>= g) :=
  fun src src' _ _ hsame => h src src' hsame

theorem ite {c : Prop} [Decidable c] {m m' : StatementParser α} {n n' : StatementParser β}
    (hm : Parallel R m n) (hm' : Parallel R m' n') :
    Parallel R (if c then m else m') (if c then n else n') := by
  by_cases hc : c
  · rwa [if_pos hc, if_pos hc]
  · rwa [if_neg hc, if_neg hc]

end Parallel

/-! ## Looking at tokens -/

namespace SameTokens

theorem forall_token {p : Token → Prop} (h : SameTokens ts us) (hp : ∀ t ∈ ts, p t.token) :
    ∀ u ∈ us, p u.token := by
  have hmap : ∀ k ∈ ts.map (·.token), p k := List.forall_mem_map.2 hp
  rw [sameTokens_iff.1 h] at hmap
  exact List.forall_mem_map.1 hmap

theorem tail (h : SameTokens ts us) : SameTokens ts.tail us.tail := by
  cases h with
  | nil => exact .nil
  | cons _ hrest => exact hrest

theorem head?_string? (h : SameTokens ts us) :
    (ts.head?.bind fun t => t.token.string?) = us.head?.bind fun u => u.token.string? := by
  cases h with
  | nil => rfl
  | cons hfirst _ => exact congrArg Token.string? hfirst

theorem atEnd (h : SameTokens ts us) : atEnd ts = atEnd us := by
  cases h with
  | nil => rfl
  | cons hfirst hrest =>
    cases hrest with
    | nil => exact congrArg (· == .symbol ';') hfirst
    | cons => rfl

theorem startsWith (h : SameTokens ts us) (keywords : List Text) :
    startsWith keywords ts = startsWith keywords us := by
  induction h generalizing keywords with
  | nil => rfl
  | cons hfirst _ ih =>
    cases keywords with
    | nil => rfl
    | cons keyword keywords => rw [SqlConsole.startsWith, SqlConsole.startsWith, hfirst, ih]

theorem skipToEquals (h : SameTokens ts us) :
    SameTokens (skipToEquals ts) (Statement.skipToEquals us) := by
  induction h with
  | nil => exact .nil
  | @cons t u ts us hfirst hrest ih =>
    have hall : SameTokens (t :: ts) (u :: us) := .cons hfirst hrest
    rw [Statement.skipToEquals, Statement.skipToEquals, hfirst, hall.atEnd]
    split
    · exact hall
    · exact ih

theorem skipDetails (h : SameTokens ts us) (afterDetail : Bool) :
    SameTokens (skipDetails afterDetail ts) (Statement.skipDetails afterDetail us) := by
  induction h generalizing afterDetail with
  | nil => exact .nil
  | @cons t u ts us hfirst hrest ih =>
    have hall : SameTokens (t :: ts) (u :: us) := .cons hfirst hrest
    rw [Statement.skipDetails, Statement.skipDetails, hfirst]
    split
    · exact ih true
    · split
      · exact ih false
      · exact hall

theorem head?_beginsQuery (h : SameTokens ts us) :
    ts.head?.any beginsQuery = us.head?.any beginsQuery := by
  cases h with
  | nil => rfl
  | cons hfirst _ => simp only [List.head?_cons, Option.any_some, beginsQuery, hfirst]

theorem hasQuery (h : SameTokens ts us) (depth : Nat) :
    hasQuery depth ts = Statement.hasQuery depth us := by
  induction h generalizing depth with
  | nil => rfl
  | cons hfirst hrest ih =>
    have hquery := head?_beginsQuery hrest
    rw [Statement.hasQuery, Statement.hasQuery, hfirst, hquery, ih, ih, ih]

/-- Names and flags with tokens behind them, or what is left where one of them is missing: both runs
find the same. -/
inductive Ends {α : Type} : Except (List Located) (α × List Located) →
    Except (List Located) (α × List Located) → Prop where
  | found (a : α) {ts us : List Located} (h : SameTokens ts us) : Ends (.ok (a, ts)) (.ok (a, us))
  | missing {ts us : List Located} (h : SameTokens ts us) : Ends (.error ts) (.error us)

theorem exists_of_pair {t t' : Located} (h : SameTokens (t :: t' :: ts) us) :
    ∃ u u' us', us = u :: u' :: us' ∧ t.token = u.token ∧ t'.token = u'.token ∧
      SameTokens ts us' := by
  cases h with
  | cons hfirst h =>
    cases h with
    | cons hsecond hrest => exact ⟨_, _, _, rfl, hfirst, hsecond, hrest⟩

theorem exists_of_single {t : Located} (h : SameTokens [t] us) :
    ∃ u, us = [u] ∧ t.token = u.token := by
  cases h with
  | cons hfirst h =>
    cases h
    exact ⟨_, rfl, hfirst⟩

theorem moreIdentifiers (h : SameTokens ts us) (separator : Char) :
    Ends (moreIdentifiers separator ts) (SqlConsole.moreIdentifiers separator us) := by
  fun_induction SqlConsole.moreIdentifiers separator ts generalizing us with
  | case1 sep part rest hsep name hname ih =>
    obtain ⟨sep', part', rest', rfl, hfirst, hsecond, hrest⟩ := h.exists_of_pair
    have hmore := ih hrest
    rw [SqlConsole.moreIdentifiers, ← hfirst, if_pos hsep, ← hsecond, hname]
    dsimp only
    generalize SqlConsole.moreIdentifiers separator rest = found at hmore
    generalize SqlConsole.moreIdentifiers separator rest' = found' at hmore
    cases hmore with
    | found names hleft => exact .found (name :: names) hleft
    | missing hleft => exact .missing hleft
  | case2 sep part rest hsep hname =>
    obtain ⟨sep', part', rest', rfl, hfirst, hsecond, hrest⟩ := h.exists_of_pair
    rw [SqlConsole.moreIdentifiers, ← hfirst, if_pos hsep, ← hsecond, hname]
    exact .missing (.cons hsecond hrest)
  | case3 sep part rest hsep =>
    obtain ⟨sep', part', rest', rfl, hfirst, -, -⟩ := h.exists_of_pair
    rw [SqlConsole.moreIdentifiers, ← hfirst, if_neg hsep]
    exact .found [] h
  | case4 sep hsep =>
    obtain ⟨sep', rfl, hfirst⟩ := h.exists_of_single
    rw [SqlConsole.moreIdentifiers, ← hfirst, if_pos hsep]
    exact .missing .nil
  | case5 sep hsep =>
    obtain ⟨sep', rfl, hfirst⟩ := h.exists_of_single
    rw [SqlConsole.moreIdentifiers, ← hfirst, if_neg hsep]
    exact .found [] h
  | case6 =>
    cases h
    exact .found [] .nil

theorem stopFlags (h : SameTokens ts us) (savepoint drain : Bool) :
    Ends (stopFlags savepoint drain ts) (Statement.stopFlags savepoint drain us) := by
  fun_induction Statement.stopFlags savepoint drain ts generalizing us with
  | case1 savepoint drain w flag rest hwith hflag ih =>
    obtain ⟨w', flag', rest', rfl, hfirst, hsecond, hrest⟩ := h.exists_of_pair
    rw [Statement.stopFlags, ← hfirst, if_pos hwith, ← hsecond, if_pos hflag]
    exact ih hrest
  | case2 savepoint drain w flag rest hwith hflag hdrain ih =>
    obtain ⟨w', flag', rest', rfl, hfirst, hsecond, hrest⟩ := h.exists_of_pair
    rw [Statement.stopFlags, ← hfirst, if_pos hwith, ← hsecond, if_neg hflag, if_pos hdrain]
    exact ih hrest
  | case3 savepoint drain w flag rest hwith hflag hdrain =>
    obtain ⟨w', flag', rest', rfl, hfirst, hsecond, hrest⟩ := h.exists_of_pair
    rw [Statement.stopFlags, ← hfirst, if_pos hwith, ← hsecond, if_neg hflag, if_neg hdrain]
    exact .missing (.cons hsecond hrest)
  | case4 savepoint drain w flag rest hwith =>
    obtain ⟨w', flag', rest', rfl, hfirst, -, -⟩ := h.exists_of_pair
    rw [Statement.stopFlags, ← hfirst, if_neg hwith]
    exact .found (savepoint, drain) h
  | case5 savepoint drain w hwith =>
    obtain ⟨w', rfl, hfirst⟩ := h.exists_of_single
    rw [Statement.stopFlags, ← hfirst, if_pos hwith]
    exact .missing .nil
  | case6 savepoint drain w hwith =>
    obtain ⟨w', rfl, hfirst⟩ := h.exists_of_single
    rw [Statement.stopFlags, ← hfirst, if_neg hwith]
    exact .found (savepoint, drain) h
  | case7 savepoint drain =>
    cases h
    exact .found (savepoint, drain) .nil

end SameTokens

/-! ## Steps -/

theorem parallel_here : Parallel (fun _ _ => True) here here := by
  intro src src' ts us hsame
  cases hsame with
  | nil => exact .answers trivial .nil
  | cons hfirst hrest => exact .answers trivial (.cons hfirst hrest)

theorem parallel_goto (h : SameTokens ts us) : Parallel Eq (goto ts) (goto us) :=
  fun _ _ _ _ _ => .answers rfl h

theorem parallel_advance : Parallel Eq advance advance :=
  fun _ _ _ _ hsame => .answers rfl hsame.tail

theorem parallel_eatKeywords (keywords : List Text) :
    Parallel Eq (eatKeywords keywords) (eatKeywords keywords) := by
  intro src src' ts us hsame
  rw [eatKeywords_apply, eatKeywords_apply, hsame.startsWith]
  split
  · exact .answers rfl (List.forall₂_drop _ hsame)
  · exact .answers rfl hsame

theorem parallel_expectKeyword (keyword : Text) :
    Parallel Eq (expectKeyword keyword) (expectKeyword keyword) :=
  (parallel_eatKeywords [keyword]).bind_eq fun _ => .ite (.unexpected _ _) (.result rfl)

theorem parallel_expectSymbol (c : Char) : Parallel Eq (expectSymbol c) (expectSymbol c) := by
  refine .get_bind fun ts us hsame => ?_
  cases hsame with
  | nil => exact .unexpected _ _
  | cons hfirst hrest =>
    dsimp only
    rw [hfirst]
    exact .ite (parallel_goto hrest) (.unexpected _ _)

theorem parallel_expectString (what : Text) :
    Parallel Eq (expectString what) (expectString what) := by
  refine .get_bind fun ts us hsame => ?_
  cases hsame with
  | nil => exact .unexpected _ _
  | cons hfirst hrest =>
    dsimp only
    rw [hfirst]
    split
    · exact (parallel_goto hrest).bind_eq fun _ => .result rfl
    · exact .unexpected _ _

theorem parallel_expectIdentifier : Parallel Eq expectIdentifier expectIdentifier := by
  refine .get_bind fun ts us hsame => ?_
  cases hsame with
  | nil => exact .unexpected _ _
  | cons hfirst hrest =>
    dsimp only
    rw [hfirst]
    split
    · exact (parallel_goto hrest).bind_eq fun _ => .result rfl
    · exact .unexpected _ _

theorem parallel_expectIdentifiers (separator : Char) :
    Parallel Eq (expectIdentifiers separator) (expectIdentifiers separator) := by
  refine parallel_expectIdentifier.bind_eq fun first => .get_bind fun ts us hsame => ?_
  have hmore := hsame.moreIdentifiers separator
  generalize moreIdentifiers separator ts = found at hmore
  generalize moreIdentifiers separator us = found' at hmore
  cases hmore with
  | found names hleft => exact (parallel_goto hleft).bind_eq fun _ => .result rfl
  | missing hleft => exact (parallel_goto hleft).bind_eq fun _ => .unexpected _ _

theorem parallel_expectName : Parallel Eq expectName expectName :=
  (parallel_expectIdentifiers '.').bind_eq fun _ => .result rfl

theorem parallel_expectEnd : Parallel Eq expectEnd expectEnd := by
  refine .get_bind fun ts us hsame => ?_
  rw [hsame.atEnd]
  exact .ite (.unexpected _ _) (.result rfl)

theorem parallel_restText : Parallel (fun _ _ => True) restText restText :=
  .read_bind fun _ _ => parallel_here.bind fun _ _ _ => .result trivial

/-- What follows where something is left. -/
theorem Parallel.unlessAtEnd {what : Text} {m : StatementParser α} {n : StatementParser β}
    (h : Parallel R m n) :
    Parallel R
      (get >>= fun ts => if atEnd ts then StatementParser.unexpected what >>= fun (_ : Unit) => m
        else m)
      (get >>= fun us => if atEnd us then StatementParser.unexpected what >>= fun (_ : Unit) => n
        else n) := by
  refine .get_bind fun ts us hsame => ?_
  rw [hsame.atEnd]
  exact .ite ((Parallel.unexpected (R := Eq) _ _).bind_eq fun _ => h) h

end Statement

end SqlConsole
