import SqlConsole.Proofs.Statement.Insert
/-!
# Statements without their terminators

The text that is kept of a statement has its tokens at other places and without the terminator
behind them (`UpToTerminator`).  A step that answers over the tokens of the statement answers the
same over those of the text, and what they leave is related in the same way (`Survives`).  Steps are
put together from steps, and so are the proofs.
-/

namespace SqlConsole.Statement

open StatementParser

variable {α β : Type} {src src' : Source} {ts us : List Located}

/-! ## Tokens up to a terminator -/

/-- The same tokens, wherever they stand.  None of them is a terminator, but one may follow those of
the first list. -/
inductive UpToTerminator : List Located → List Located → Prop where
  | nil : UpToTerminator [] []
  | terminator {last : Located} (hlast : last.token = .symbol ';') : UpToTerminator [last] []
  | cons {t u : Located} {ts us : List Located} (htoken : t.token = u.token)
      (hplain : u.token ≠ .symbol ';') (h : UpToTerminator ts us) :
      UpToTerminator (t :: ts) (u :: us)

/-- Tokens with or without a terminator behind them. -/
theorem upToTerminator_of_map {ks : List Token} (hks : ∀ k ∈ ks, k ≠ .symbol ';')
    (hus : us.map (·.token) = ks)
    (hts : ts.map (·.token) = ks ∨ ts.map (·.token) = ks ++ [.symbol ';']) :
    UpToTerminator ts us := by
  induction ks generalizing ts us with
  | nil =>
    obtain rfl := List.map_eq_nil_iff.1 hus
    rcases hts with hts | hts
    · obtain rfl := List.map_eq_nil_iff.1 hts
      exact .nil
    · obtain ⟨last, rest, rfl, hlast, hrest⟩ := List.map_eq_cons_iff.1 hts
      obtain rfl := List.map_eq_nil_iff.1 hrest
      exact .terminator hlast
  | cons k ks ih =>
    obtain ⟨u, us, rfl, rfl, hrest⟩ := List.map_eq_cons_iff.1 hus
    have hplain := hks u.token List.mem_cons_self
    have htail := fun k hk => hks k (List.mem_cons_of_mem u.token hk)
    rcases hts with hts | hts
    · obtain ⟨t, ts, rfl, ht, hts⟩ := List.map_eq_cons_iff.1 hts
      exact .cons ht hplain (ih htail hrest (.inl hts))
    · obtain ⟨t, ts, rfl, ht, hts⟩ := List.map_eq_cons_iff.1 hts
      exact .cons ht hplain (ih htail hrest (.inr hts))

namespace UpToTerminator

theorem tail (h : UpToTerminator ts us) : UpToTerminator ts.tail us.tail := by
  cases h with
  | nil | terminator => exact .nil
  | cons _ _ h => exact h

theorem drop (h : UpToTerminator ts us) (n : Nat) : UpToTerminator (ts.drop n) (us.drop n) := by
  induction n generalizing ts us with
  | zero => exact h
  | succ n ih =>
    rw [← List.drop_tail, ← List.drop_tail]
    exact ih h.tail

/-- A token that is no terminator stands in both lists. -/
theorem exists_cons {t : Located} (h : UpToTerminator (t :: ts) us) (ht : t.token ≠ .symbol ';') :
    ∃ u rest, us = u :: rest ∧ t.token = u.token ∧ u.token ≠ .symbol ';' ∧
      UpToTerminator ts rest := by
  cases h with
  | terminator hlast => exact (ht hlast).elim
  | cons htoken hplain h => exact ⟨_, _, rfl, htoken, hplain, h⟩

theorem atEnd (h : UpToTerminator ts us) : atEnd ts = atEnd us := by
  cases h with
  | nil => rfl
  | terminator hlast => exact beq_iff_eq.2 hlast
  | @cons t u _ _ htoken hplain h =>
    cases h with
    | nil =>
      show (t.token == .symbol ';') = (u.token == .symbol ';')
      rw [htoken]
    | terminator => exact (beq_eq_false_iff_ne.2 hplain).symm
    | cons => rfl

/-- A terminator is no keyword. -/
theorem startsWith (h : UpToTerminator ts us) (keywords : List Text) :
    startsWith keywords ts = startsWith keywords us := by
  induction keywords generalizing ts us with
  | nil => cases ts <;> cases us <;> rfl
  | cons keyword keywords ih =>
    cases h with
    | nil => rfl
    | terminator hlast => simp [SqlConsole.startsWith, hlast, Token.isKeyword]
    | cons htoken _ h => rw [SqlConsole.startsWith, SqlConsole.startsWith, htoken, ih h]

theorem head?_beginsQuery (h : UpToTerminator ts us) :
    ts.head?.any beginsQuery = us.head?.any beginsQuery := by
  cases h with
  | nil => rfl
  | terminator hlast => simp [beginsQuery, hlast, Token.isKeyword]
  | cons htoken => simp [beginsQuery, htoken]

theorem hasQuery (h : UpToTerminator ts us) (depth : Nat) :
    hasQuery depth ts = hasQuery depth us := by
  induction h generalizing depth with
  | nil => rfl
  | terminator hlast => simp [Statement.hasQuery, hlast, Token.isKeyword]
  | cons htoken _ h ih =>
    simp only [Statement.hasQuery, htoken, h.head?_beginsQuery, ih]

theorem moreIdentifiers {separator : Char} {names : List Text} {left : List Located}
    (h : UpToTerminator ts us) (hseparator : separator ≠ ';')
    (hnames : moreIdentifiers separator ts = .ok (names, left)) :
    ∃ left', moreIdentifiers separator us = .ok (names, left') ∧ UpToTerminator left left' := by
  have hplain {t : Located} (ht : t.token = .symbol separator) : t.token ≠ .symbol ';' := by
    rw [ht]
    exact fun heq => hseparator (Token.symbol.inj heq)
  fun_induction SqlConsole.moreIdentifiers separator ts generalizing us names left with
  | case1 sep part rest hsep name hname ih =>
    obtain ⟨sep', us, rfl, hsame, -, h⟩ := h.exists_cons (hplain hsep)
    have hpart : part.token ≠ .symbol ';' := by
      intro hpart
      rw [hpart] at hname
      cases hname
    obtain ⟨part', us, rfl, hsame', -, h⟩ := h.exists_cons hpart
    cases hrest : SqlConsole.moreIdentifiers separator rest with
    | error left =>
      rw [hrest] at hnames
      cases hnames
    | ok found =>
      rw [hrest] at hnames
      cases hnames
      obtain ⟨left', hmore, hleft⟩ := ih h hrest
      refine ⟨left', ?_, hleft⟩
      rw [SqlConsole.moreIdentifiers, if_pos (hsame ▸ hsep), ← hsame', hname]
      simp only [hmore]
      rfl
  | case2 => cases hnames
  | case3 sep part rest hsep =>
    cases hnames
    refine ⟨us, ?_, h⟩
    cases h with
    | @cons _ sep' _ us htoken _ h =>
      rw [htoken] at hsep
      cases us with
      | nil => rw [SqlConsole.moreIdentifiers, if_neg hsep]
      | cons => rw [SqlConsole.moreIdentifiers, if_neg hsep]
  | case4 => cases hnames
  | case5 sep hsep =>
    cases hnames
    refine ⟨us, ?_, h⟩
    cases h with
    | terminator => rfl
    | @cons _ sep' _ us htoken _ h =>
      rw [htoken] at hsep
      cases h
      rw [SqlConsole.moreIdentifiers, if_neg hsep]
  | case6 =>
    cases hnames
    cases h
    exact ⟨[], rfl, .nil⟩

end UpToTerminator

/-! ## Steps that survive -/

/-- Where a first step answers over the tokens of a statement, a second one answers the same over
those of another text. -/
def Survives (src src' : Source) (m n : StatementParser α) : Prop :=
  ∀ ⦃ts us left : List Located⦄ ⦃a : α⦄, UpToTerminator ts us → m src ts = .ok (a, left) →
    ∃ left', n src' us = .ok (a, left') ∧ UpToTerminator left left'

namespace Survives

theorem result (a : α) : Survives src src' (pure a) (pure a) := by
  intro ts us left b h hb
  cases hb
  exact ⟨us, rfl, h⟩

theorem bind {m n : StatementParser α} {f g : α → StatementParser β} (hm : Survives src src' m n)
    (hf : ∀ a, Survives src src' (f a) (g a)) : Survives src src' (m >>= f) (n >>= g) := by
  intro ts us left b h hb
  obtain ⟨a, mid, ha, hrest⟩ := ok_of_run_bind hb
  obtain ⟨mid', ha', hmid⟩ := hm h ha
  obtain ⟨left', hrest', hleft⟩ := hf a hmid hrest
  exact ⟨left', (run_bind_ok ha').trans hrest', hleft⟩

/-- A step that looks at the tokens that are left. -/
theorem get_bind {f g : List Located → StatementParser α}
    (h : ∀ ts us, UpToTerminator ts us → Survives src src' (f ts) (g us)) :
    Survives src src' (get >>= f) (get >>= g) :=
  fun ts us _ _ hts => h ts us hts hts

/-- A step that looks at the body of the statement. -/
theorem body_bind (hbody : src.body = src'.body) {f : Text → StatementParser α}
    (h : ∀ s, Survives src src' (f s) (f s)) :
    Survives src src' (read >>= fun src => f src.body) (read >>= fun src => f src.body) := by
  intro ts us left a hts ha
  change f src.body src ts = _ at ha
  show ∃ left', f src'.body src' us = _ ∧ _
  rw [← hbody]
  exact h src.body hts ha

theorem unexpected (what : Text) (n : StatementParser α) : Survives src src' (unexpected what) n :=
  fun _ _ _ _ _ ha => (eq_of_unexpected ha).elim

theorem ite {c : Prop} [Decidable c] {m m' n n' : StatementParser α} (hm : Survives src src' m n)
    (hm' : Survives src src' m' n') :
    Survives src src' (if c then m else m') (if c then n else n') := by
  split
  · exact hm
  · exact hm'

end Survives

theorem survives_goto (h : UpToTerminator ts us) : Survives src src' (goto ts) (goto us) := by
  intro _ _ left a _ ha
  cases ha
  exact ⟨us, rfl, h⟩

theorem survives_advance : Survives src src' advance advance := by
  intro ts us left a h ha
  cases ha
  exact ⟨us.tail, rfl, h.tail⟩

theorem survives_eatKeywords (keywords : List Text) :
    Survives src src' (eatKeywords keywords) (eatKeywords keywords) := by
  intro ts us left found h hfound
  rw [eatKeywords_apply] at hfound ⊢
  rw [← h.startsWith]
  by_cases hstarts : startsWith keywords ts
  · rw [if_pos hstarts] at hfound ⊢
    cases hfound
    exact ⟨_, rfl, h.drop keywords.length⟩
  · rw [if_neg hstarts] at hfound ⊢
    cases hfound
    exact ⟨us, rfl, h⟩

theorem survives_expectKeyword (keyword : Text) :
    Survives src src' (expectKeyword keyword) (expectKeyword keyword) :=
  (survives_eatKeywords [keyword]).bind fun _ => .ite (.unexpected _ _) (.result ())

theorem survives_expectIdentifier : Survives src src' expectIdentifier expectIdentifier := by
  refine .get_bind fun ts us h => ?_
  cases h with
  | nil => exact .unexpected _ _
  | terminator hlast =>
    dsimp only
    rw [hlast]
    exact .unexpected _ _
  | cons htoken _ h =>
    dsimp only
    rw [htoken]
    split
    · exact (survives_goto h).bind fun _ => .result _
    · exact .unexpected _ _

theorem survives_expectIdentifiers {separator : Char} (hseparator : separator ≠ ';') :
    Survives src src' (expectIdentifiers separator) (expectIdentifiers separator) := by
  refine survives_expectIdentifier.bind fun first => ?_
  intro ts us left names h hnames
  rw [run_get_bind] at hnames ⊢
  cases hmore : moreIdentifiers separator ts with
  | error rest =>
    rw [hmore] at hnames
    exact (eq_of_unexpected (show unexpected "identifier" src rest = _ from hnames)).elim
  | ok found =>
    rw [hmore] at hnames
    cases hnames
    obtain ⟨left', hmore', hleft⟩ := h.moreIdentifiers hseparator hmore
    rw [hmore']
    exact ⟨left', rfl, hleft⟩

theorem survives_expectName : Survives src src' expectName expectName :=
  (survives_expectIdentifiers (by decide)).bind fun _ => .result _

theorem survives_expectEnd : Survives src src' expectEnd expectEnd := by
  refine .get_bind fun ts us h => ?_
  rw [h.atEnd]
  exact .ite (.unexpected _ _) (.result ())

/-! ## Statements that survive -/

theorem survives_insertHeading : Survives src src' insertHeading insertHeading := by
  have htarget (kind : ModifyKind) : Survives src src'
      (do
        let _ ← eatKeyword "TABLE"
        let target ← expectName
        if atEnd (← get) then unexpected "query or VALUES"
        return (kind, target))
      (do
        let _ ← eatKeyword "TABLE"
        let target ← expectName
        if atEnd (← get) then unexpected "query or VALUES"
        return (kind, target)) := by
    refine (survives_eatKeywords ["TABLE"]).bind fun _ => survives_expectName.bind fun target => ?_
    refine .get_bind fun ts us h => ?_
    rw [h.atEnd]
    exact .ite ((Survives.unexpected (α := Unit) _ _).bind fun _ => .result _) (.result _)
  refine (survives_expectKeyword "INSERT").bind fun _ =>
    (survives_eatKeywords ["INTO"]).bind fun _ => .ite ?_ ?_
  · exact (Survives.result _).bind htarget
  · refine (survives_eatKeywords ["OVERWRITE"]).bind fun _ => .ite ?_ ?_
    · exact (Survives.result _).bind htarget
    · exact (Survives.unexpected _ _).bind htarget

theorem survives_showCreate : Survives src src' showCreate showCreate := by
  have hend (op : Operation) :
      Survives src src' (do expectEnd; return op) (do expectEnd; return op) :=
    survives_expectEnd.bind fun _ => .result op
  refine survives_advance.bind fun _ => (survives_expectKeyword "CREATE").bind fun _ => ?_
  refine (survives_eatKeywords ["TABLE"]).bind fun _ => .ite ?_ ?_
  · exact survives_expectName.bind fun _ => (Survives.result _).bind hend
  · refine (survives_eatKeywords ["VIEW"]).bind fun _ => .ite ?_ ?_
    · exact survives_expectName.bind fun _ => (Survives.result _).bind hend
    · exact (Survives.unexpected _ _).bind hend

theorem survives_objectKind : Survives src src' objectKind objectKind :=
  (survives_eatKeywords ["TABLE"]).bind fun _ => .ite (.result _) <|
  (survives_eatKeywords ["VIEW"]).bind fun _ => .ite (.result _) <|
  (survives_eatKeywords ["FUNCTION"]).bind fun _ => .ite (.result _) <|
  (survives_eatKeywords ["DATABASE"]).bind fun _ => .ite (.result _) <|
  (survives_eatKeywords ["CATALOG"]).bind fun _ => .ite (.result _) (.unexpected _ _)

theorem survives_definition (hbody : src.body = src'.body) (verb : Text) (guard : List Text) :
    Survives src src' (definition verb guard) (definition verb guard) :=
  (survives_expectKeyword verb).bind fun _ =>
    (survives_eatKeywords ["OR", "REPLACE"]).bind fun _ =>
    (survives_eatKeywords ["TEMPORARY"]).bind fun _ =>
    (survives_eatKeywords ["SYSTEM"]).bind fun _ =>
    survives_objectKind.bind fun _ => (survives_eatKeywords guard).bind fun _ =>
    survives_expectName.bind fun _ => .body_bind hbody fun _ => .result _

theorem survives_create (hbody : src.body = src'.body) : Survives src src' create create := by
  refine (survives_definition hbody "CREATE" _).bind fun d => .get_bind fun ts us h => ?_
  rw [h.hasQuery]
  exact .ite (.result _) (.result _)

theorem survives_use (hbody : src.body = src'.body) : Survives src src' use use := by
  have hend (target : UseTarget) : Survives src src'
      (do expectEnd; return Operation.use target (← read).body)
      (do expectEnd; return Operation.use target (← read).body) :=
    survives_expectEnd.bind fun _ => .body_bind hbody fun _ => .result _
  refine survives_advance.bind fun _ => (survives_eatKeywords ["CATALOG"]).bind fun _ => ?_
  refine .ite ?_ ((survives_eatKeywords ["MODULES"]).bind fun _ => .ite ?_ ?_)
  · exact survives_expectIdentifier.bind fun _ => (Survives.result _).bind hend
  · exact (survives_expectIdentifiers (by decide)).bind fun _ => (Survives.result _).bind hend
  · exact survives_expectName.bind fun _ => (Survives.result _).bind hend

/-- Whether statements with this first word are kept whole, if anything is kept of them. -/
def Opening.keepsBody : Opening → Bool
  | .query | .showing | .create | .drop | .alter | .use | .passed => true
  | _ => false

theorem survives_ofOpening {inner inner' : Text → Except ParseError (Option Operation)}
    {opening : Opening} (h : opening.keepsBody) (hbody : src.body = src'.body) :
    Survives src src' (ofOpening inner opening) (ofOpening inner' opening) := by
  cases opening with
  | query | passed => exact .body_bind hbody fun _ => .result _
  | showing =>
    refine .get_bind fun ts us hts => ?_
    rw [hts.startsWith]
    exact .ite survives_showCreate (.body_bind hbody fun _ => .result _)
  | create => exact survives_create hbody
  | drop | alter => exact (survives_definition hbody _ _).bind fun _ => .result _
  | use => exact survives_use hbody
  | _ => cases h

end SqlConsole.Statement
