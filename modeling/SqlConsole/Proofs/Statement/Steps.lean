import SqlConsole.Proofs.Statement.Opening
/-!
# Steps of reading

What a step can answer is told from its last part (`Yields`).  A step that succeeds does the same
where a terminator follows, and leaves it (`KeepsTerminator`): keywords, names and their separators
are none.
-/

namespace SqlConsole.Statement

open StatementParser

variable {α β : Type} {src : Source} {ts us : List Located}

theorem run_get_bind (f : List Located → StatementParser α) (src : Source) (ts : List Located) :
    (get >>= f) src ts = f ts src ts := rfl

theorem exists_here (src : Source) (ts : List Located) : ∃ span, here src ts = .ok (span, ts) := by
  cases ts with
  | nil => exact ⟨_, rfl⟩
  | cons => exact ⟨_, rfl⟩

/-! ## What a step can answer -/

/-- Whatever a step answers about a statement has a property. -/
def Yields (src : Source) (p : α → Prop) (m : StatementParser α) : Prop :=
  ∀ ts a us, m src ts = .ok (a, us) → p a

namespace Yields

variable {p : α → Prop}

theorem result {a : α} (h : p a) : Yields src p (pure a) := by
  intro ts b us hb
  cases hb
  exact h

/-- What the first step answers is what the second goes on with. -/
theorem seq {q : β → Prop} {m : StatementParser β} {f : β → StatementParser α}
    (hm : Yields src q m) (h : ∀ b, q b → Yields src p (f b)) : Yields src p (m >>= f) := by
  intro ts a us ha
  obtain ⟨b, mid, hb, hrest⟩ := ok_of_run_bind ha
  exact h b (hm ts b mid hb) mid a us hrest

theorem imp {q : α → Prop} {m : StatementParser α} (h : Yields src p m) (hq : ∀ a, p a → q a) :
    Yields src q m :=
  fun ts a us ha => hq a (h ts a us ha)

theorem bind {m : StatementParser β} {f : β → StatementParser α} (h : ∀ b, Yields src p (f b)) :
    Yields src p (m >>= f) :=
  seq (q := fun _ => True) (fun _ _ _ _ => trivial) fun b _ => h b

/-- A step that looks at the statement. -/
theorem read_bind {f : Source → StatementParser α} (h : Yields src p (f src)) :
    Yields src p (read >>= f) := h

theorem unexpected (what : Text) : Yields src p (unexpected what : StatementParser α) :=
  fun _ _ _ h => (eq_of_unexpected h).elim

theorem fault (e : ParseError) : Yields src p (throw e : StatementParser α) := by
  intro ts a us h
  cases h

theorem ite {c : Prop} [Decidable c] {m n : StatementParser α} (hm : Yields src p m)
    (hn : Yields src p n) : Yields src p (if c then m else n) := by
  split
  · exact hm
  · exact hn

end Yields

/-! ## Terminators behind a statement -/

/-- A step that succeeds does the same where a terminator follows. -/
def KeepsTerminator (m : StatementParser α) : Prop :=
  ∀ ⦃src : Source⦄ (src' : Source) ⦃ts us : List Located⦄ ⦃a : α⦄ ⦃last : Located⦄,
    last.token = .symbol ';' → (∀ t ∈ ts, t.token ≠ .symbol ';') → m src ts = .ok (a, us) →
    us <:+ ts ∧ m src' (ts ++ [last]) = .ok (a, us ++ [last])

namespace KeepsTerminator

theorem result (a : α) : KeepsTerminator (pure a) := by
  intro src src' ts us b last hlast hts hb
  cases hb
  exact ⟨List.suffix_rfl, rfl⟩

theorem bind {m : StatementParser α} {f : α → StatementParser β} (hm : KeepsTerminator m)
    (hf : ∀ a, KeepsTerminator (f a)) : KeepsTerminator (m >>= f) := by
  intro src src' ts us b last hlast hts hb
  obtain ⟨a, mid, ha, hrest⟩ := ok_of_run_bind hb
  obtain ⟨hmid, ha'⟩ := hm src' hlast hts ha
  obtain ⟨hus, hrest'⟩ := hf a src' hlast (fun t ht => hts t (hmid.subset ht)) hrest
  exact ⟨hus.trans hmid, (run_bind_ok ha').trans hrest'⟩

theorem unexpected (what : Text) : KeepsTerminator (unexpected what : StatementParser α) := by
  intro src src' ts us a last hlast hts h
  exact (eq_of_unexpected h).elim

theorem ite {c : Prop} [Decidable c] {m n : StatementParser α} (hm : KeepsTerminator m)
    (hn : KeepsTerminator n) : KeepsTerminator (if c then m else n) := by
  split
  · exact hm
  · exact hn

end KeepsTerminator

/-- A terminator is no keyword, so it is not among the keywords in front. -/
theorem startsWith_concat {last : Located} (hlast : last.token = .symbol ';') (keywords : List Text)
    (ts : List Located) : startsWith keywords (ts ++ [last]) = startsWith keywords ts := by
  induction keywords generalizing ts with
  | nil => cases ts <;> rfl
  | cons keyword keywords ih =>
    cases ts with
    | nil => simp [startsWith, hlast, Token.isKeyword]
    | cons t ts => rw [List.cons_append, startsWith, startsWith, ih]

theorem length_of_startsWith {keywords : List Text} {ts : List Located}
    (h : startsWith keywords ts) : keywords.length ≤ ts.length := by
  induction keywords generalizing ts with
  | nil => exact Nat.zero_le _
  | cons keyword keywords ih =>
    cases ts with
    | nil => cases h
    | cons t ts =>
      rw [startsWith, Bool.and_eq_true] at h
      exact Nat.succ_le_succ (ih h.2)

theorem eatKeywords_apply (keywords : List Text) (src : Source) (ts : List Located) :
    eatKeywords keywords src ts =
      if startsWith keywords ts then .ok (true, ts.drop keywords.length) else .ok (false, ts) := by
  show (if startsWith keywords ts then _ else _ : StatementParser Bool) src ts = _
  split <;> rfl

/-- Keywords that are taken stand at the front. -/
theorem eq_of_eatKeywords {keywords : List Text}
    (h : eatKeywords keywords src ts = .ok (true, us)) :
    startsWith keywords ts ∧ us = ts.drop keywords.length := by
  rw [eatKeywords_apply] at h
  split at h
  · next hstarts =>
    cases h
    exact ⟨hstarts, rfl⟩
  · cases h

theorem keepsTerminator_eatKeywords (keywords : List Text) :
    KeepsTerminator (eatKeywords keywords) := by
  intro src src' ts us found last hlast hts h
  rw [eatKeywords_apply] at h ⊢
  rw [startsWith_concat hlast]
  by_cases hstarts : startsWith keywords ts
  · rw [if_pos hstarts] at h ⊢
    cases h
    refine ⟨List.drop_suffix _ _, ?_⟩
    rw [List.drop_append_of_le_length (length_of_startsWith hstarts)]
  · rw [if_neg hstarts] at h ⊢
    cases h
    exact ⟨List.suffix_rfl, rfl⟩

/-- A keyword that is expected is the next token. -/
theorem eq_cons_of_expectKeyword {keyword : Text} {u : Unit}
    (h : expectKeyword keyword src ts = .ok (u, us)) :
    ∃ t, ts = t :: us ∧ t.token.isKeyword keyword := by
  obtain ⟨found, mid, hfound, hcheck⟩ := ok_of_run_bind h
  change eatKeywords [keyword] src ts = _ at hfound
  rw [eatKeywords_apply] at hfound
  by_cases hstarts : startsWith [keyword] ts
  · rw [if_pos hstarts] at hfound
    cases hfound
    cases hcheck
    cases ts with
    | nil => cases hstarts
    | cons t ts => exact ⟨t, rfl, by simpa [startsWith] using hstarts⟩
  · rw [if_neg hstarts] at hfound
    cases hfound
    exact (eq_of_unexpected (show unexpected keyword src ts = _ from hcheck)).elim

theorem keepsTerminator_expectKeyword (keyword : Text) :
    KeepsTerminator (expectKeyword keyword) :=
  .bind (keepsTerminator_eatKeywords [keyword]) fun _ => .ite (.unexpected keyword) (.result ())

theorem keepsTerminator_expectIdentifier : KeepsTerminator expectIdentifier := by
  intro src src' ts us name last hlast hts h
  unfold expectIdentifier at h ⊢
  rw [run_get_bind] at h ⊢
  cases ts with
  | nil => exact (eq_of_unexpected h).elim
  | cons t ts =>
    rw [List.cons_append]
    dsimp only at h ⊢
    cases hname : t.token.identifier? with
    | none =>
      rw [hname] at h
      exact (eq_of_unexpected h).elim
    | some found =>
      rw [hname] at h
      cases h
      exact ⟨List.suffix_cons t us, rfl⟩

theorem moreIdentifiers_concat {separator : Char} (hseparator : separator ≠ ';') {last : Located}
    (hlast : last.token = .symbol ';') {ts us : List Located} {names : List Text}
    (h : moreIdentifiers separator ts = .ok (names, us)) :
    us <:+ ts ∧ moreIdentifiers separator (ts ++ [last]) = .ok (names, us ++ [last]) := by
  fun_induction moreIdentifiers separator ts generalizing names us with
  | case1 sep part rest hsep name hname ih =>
    cases hrest : moreIdentifiers separator rest with
    | error left =>
      rw [hrest] at h
      cases h
    | ok found =>
      rw [hrest] at h
      cases h
      obtain ⟨hsuffix, hmore⟩ := ih hrest
      refine ⟨hsuffix.trans ⟨[sep, part], rfl⟩, ?_⟩
      simp [moreIdentifiers, hsep, hname, hmore, Except.map]
  | case2 => cases h
  | case3 sep part rest hsep =>
    cases h
    exact ⟨List.suffix_rfl, by simp [moreIdentifiers, hsep]⟩
  | case4 => cases h
  | case5 sep hsep =>
    cases h
    exact ⟨List.suffix_rfl, by simp [moreIdentifiers, hsep]⟩
  | case6 =>
    cases h
    have hother : last.token ≠ .symbol separator := by
      rw [hlast]
      intro heq
      exact hseparator (Token.symbol.inj heq).symm
    exact ⟨List.suffix_rfl, by simp [moreIdentifiers, hother]⟩

theorem keepsTerminator_expectIdentifiers {separator : Char} (h : separator ≠ ';') :
    KeepsTerminator (expectIdentifiers separator) := by
  refine .bind keepsTerminator_expectIdentifier fun first => ?_
  intro src src' ts us names last hlast hts hnames
  rw [run_get_bind] at hnames ⊢
  cases hmore : moreIdentifiers separator ts with
  | error left =>
    rw [hmore] at hnames
    exact (eq_of_unexpected (show unexpected "identifier" src left = _ from hnames)).elim
  | ok found =>
    obtain ⟨hsuffix, hmore'⟩ := moreIdentifiers_concat h hlast hmore
    rw [hmore] at hnames
    rw [hmore']
    cases hnames
    exact ⟨hsuffix, rfl⟩

theorem keepsTerminator_expectName : KeepsTerminator expectName :=
  .bind (keepsTerminator_expectIdentifiers (by decide)) fun _ => .result _

theorem atEnd_concat (t last : Located) (ts : List Located) :
    atEnd (t :: ts ++ [last]) = false := by
  cases ts <;> rfl

/-- Where something is left, something is left in front of the terminator. -/
theorem keepsTerminator_unlessAtEnd (what : Text) (a : α) :
    KeepsTerminator (do
      if atEnd (← get) then unexpected what
      return a) := by
  intro src src' ts us b last hlast hts h
  rw [run_get_bind] at h ⊢
  cases hend : atEnd ts with
  | true =>
    rw [hend, if_pos rfl] at h
    obtain ⟨_, mid, hfault, -⟩ := ok_of_run_bind h
    exact (eq_of_unexpected hfault).elim
  | false =>
    rw [hend] at h
    cases h
    cases ts with
    | nil => cases hend
    | cons t ts =>
      rw [atEnd_concat]
      exact ⟨List.suffix_rfl, rfl⟩

end SqlConsole.Statement
