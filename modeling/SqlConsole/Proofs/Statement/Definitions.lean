import SqlConsole.Proofs.Statement.Names
import SqlConsole.Proofs.Statement.Parallel
/-!
# How definitions are read

A `CREATE`, `DROP` or `ALTER` is read keyword by keyword up to its name.  A guard behind the kind of
object is heard whatever modifiers stand in front of the kind (`cases_of_isGuarded`).  A `CREATE
TABLE` with a quoted name keeps the value of the name and the whole statement, whatever stands
behind the name, as long as that does not go on with the name and is no query (`parse_createTable`).
-/

namespace SqlConsole.Statement

open Piece StatementParser

variable {src : Source} {ts us : List Located} {keywords behind : List Text}

/-! ## Keywords that may be left out -/

theorem startsWith_append :
    startsWith (keywords ++ behind) ts =
      (startsWith keywords ts && startsWith behind (ts.drop keywords.length)) := by
  induction keywords generalizing ts with
  | nil => rw [List.nil_append, startsWith, Bool.true_and, List.length_nil, List.drop_zero]
  | cons keyword keywords ih =>
    cases ts with
    | nil => rfl
    | cons t ts =>
      rw [List.cons_append, startsWith, startsWith, ih, Bool.and_assoc, List.length_cons,
        List.drop_succ_cons]

/-- Keywords that may be left out. -/
def optional (wanted : Bool) (keywords : List Text) : List Text := if wanted then keywords else []

/-- Keywords begin with another one. -/
def Differ (keywords : List Text) (first : Text) : Prop :=
  ∃ other rest, keywords = other :: rest ∧ Text.upper other ≠ Text.upper first

theorem Differ.optional {first other : Text} (h : Differ behind first)
    (hne : Text.upper other ≠ Text.upper first) (wanted : Bool) (keywords : List Text) :
    Differ (optional wanted (other :: keywords) ++ behind) first := by
  cases wanted with
  | true => exact ⟨other, _, rfl, hne⟩
  | false => exact h

/-- Keywords that are there if they are wanted, in front of others that begin differently. -/
theorem eatKeywords_optional {first : Text} (wanted : Bool)
    (hts : startsWith (optional wanted (first :: keywords) ++ behind) ts)
    (hbehind : Differ behind first) (src : Source) :
    ∃ us, eatKeywords (first :: keywords) src ts = .ok (wanted, us) ∧ startsWith behind us := by
  cases wanted with
  | true =>
    rw [optional, if_pos rfl, startsWith_append, Bool.and_eq_true] at hts
    refine ⟨_, ?_, hts.2⟩
    rw [eatKeywords_apply, if_pos hts.1]
  | false =>
    rw [optional, if_neg Bool.false_ne_true, List.nil_append] at hts
    obtain ⟨other, rest, rfl, hne⟩ := hbehind
    have hnot : ¬ startsWith (first :: keywords) ts := by
      cases ts with
      | nil => cases hts
      | cons t ts =>
        rw [startsWith, Bool.and_eq_true] at hts
        rw [startsWith, not_isKeyword_of_isKeyword hne hts.1]
        exact Bool.false_ne_true
    refine ⟨ts, ?_, hts⟩
    rw [eatKeywords_apply, if_neg hnot]

/-- A keyword that stands in front is the one that is there. -/
theorem startsWith_of_ne {first other : Text} (hne : Text.upper first ≠ Text.upper other)
    (hts : startsWith (first :: behind) ts) : startsWith [other] ts = false := by
  cases ts with
  | nil => cases hts
  | cons t ts =>
    rw [startsWith, Bool.and_eq_true] at hts
    rw [startsWith, not_isKeyword_of_isKeyword hne hts.1, Bool.false_and]

theorem startsWith_first {first : Text} (hts : startsWith (first :: behind) ts) :
    startsWith [first] ts ∧ startsWith behind ts.tail := by
  cases ts with
  | nil => cases hts
  | cons t ts =>
    rw [startsWith, Bool.and_eq_true] at hts
    exact ⟨by rw [startsWith, hts.1]; rfl, hts.2⟩

theorem expectKeyword_apply {keyword : Text} (hts : startsWith (keyword :: behind) ts)
    (src : Source) : expectKeyword keyword src ts = .ok ((), ts.tail) := by
  have heat : eatKeyword keyword src ts = .ok (true, ts.drop 1) := by
    rw [eatKeyword, eatKeywords_apply, if_pos (startsWith_first hts).1]
    rfl
  rw [expectKeyword, run_bind_ok heat, List.drop_one]
  rfl

theorem eatKeyword_apply_of_ne {first other : Text} (hne : Text.upper first ≠ Text.upper other)
    (hts : startsWith (first :: behind) ts) (src : Source) :
    eatKeyword other src ts = .ok (false, ts) := by
  rw [eatKeyword, eatKeywords_apply, startsWith_of_ne hne hts]
  rfl

theorem objectKind_apply {kind : ObjectKind} (hts : startsWith (kind.keyword :: behind) ts)
    (src : Source) : objectKind src ts = .ok (kind, ts.tail) := by
  have hthis : eatKeyword kind.keyword src ts = .ok (true, ts.tail) := by
    rw [eatKeyword, eatKeywords_apply, if_pos (startsWith_first hts).1, List.length_singleton,
      List.drop_one]
  have hother {word : Text} (hne : Text.upper kind.keyword ≠ Text.upper word) :
      eatKeyword word src ts = .ok (false, ts) := eatKeyword_apply_of_ne hne hts src
  -- The kinds in front of this one are looked for, and not found.
  cases kind with
  | table => exact run_bind_ok hthis
  | view =>
    refine (run_bind_ok (hother (by decide))).trans ?_
    exact run_bind_ok hthis
  | function =>
    refine (run_bind_ok (hother (by decide))).trans ?_
    refine (run_bind_ok (hother (by decide))).trans ?_
    exact run_bind_ok hthis
  | database =>
    refine (run_bind_ok (hother (by decide))).trans ?_
    refine (run_bind_ok (hother (by decide))).trans ?_
    refine (run_bind_ok (hother (by decide))).trans ?_
    exact run_bind_ok hthis
  | catalog =>
    refine (run_bind_ok (hother (by decide))).trans ?_
    refine (run_bind_ok (hother (by decide))).trans ?_
    refine (run_bind_ok (hother (by decide))).trans ?_
    refine (run_bind_ok (hother (by decide))).trans ?_
    exact run_bind_ok hthis

/-! ## Headings -/

/-- What may stand in front of the kind of object. -/
structure Modifiers where
  orReplace : Bool
  temporary : Bool
  system : Bool

def Modifiers.words (m : Modifiers) : List Text :=
  optional m.orReplace ["OR", "REPLACE"] ++
    (optional m.temporary ["TEMPORARY"] ++ optional m.system ["SYSTEM"])

/-- The keywords in front of the name of a definition. -/
def heading (verb : Text) (modifiers : Modifiers) (kind : ObjectKind) (guard : List Text) :
    List Text :=
  verb :: (modifiers.words ++ kind.keyword :: guard)

/-- Behind a heading only the name is read. -/
theorem definition_of_heading {verb : Text} {modifiers : Modifiers} {kind : ObjectKind}
    {guard : List Text} (hts : startsWith (heading verb modifiers kind guard) ts) (src : Source) :
    ∃ us, definition verb guard src ts =
      (expectName >>= fun name => pure ⟨kind, name, true, src.body⟩) src us := by
  have hverb := expectKeyword_apply hts src
  have hrest := (startsWith_first hts).2
  rw [Modifiers.words, List.append_assoc, List.append_assoc] at hrest
  have hkinds {first : Text} (hne : Text.upper kind.keyword ≠ Text.upper first) :
      Differ (kind.keyword :: guard) first := ⟨_, _, rfl, hne⟩
  have hsystem : Differ (kind.keyword :: guard) "SYSTEM" := hkinds (by cases kind <;> decide)
  have htemporary : Differ (optional modifiers.system ["SYSTEM"] ++ kind.keyword :: guard)
      "TEMPORARY" := (hkinds (by cases kind <;> decide)).optional (by decide) _ _
  have hreplace : Differ (optional modifiers.temporary ["TEMPORARY"] ++
      (optional modifiers.system ["SYSTEM"] ++ kind.keyword :: guard)) "OR" :=
    ((hkinds (by cases kind <;> decide)).optional (by decide) _ _).optional (by decide) _ _
  obtain ⟨a, hreplace, ha⟩ := eatKeywords_optional modifiers.orReplace hrest hreplace src
  obtain ⟨b, htemporary, hb⟩ := eatKeywords_optional modifiers.temporary ha htemporary src
  obtain ⟨d, hsystem, hd⟩ := eatKeywords_optional modifiers.system hb hsystem src
  have hkind := objectKind_apply hd src
  have hguard : eatKeywords guard src d.tail = .ok (true, d.tail.drop guard.length) := by
    rw [eatKeywords_apply, if_pos (startsWith_first hd).2]
  refine ⟨d.tail.drop guard.length, (run_bind_ok hverb).trans ?_⟩
  refine (run_bind_ok hreplace).trans ((run_bind_ok htemporary).trans ?_)
  refine (run_bind_ok hsystem).trans ((run_bind_ok hkind).trans ?_)
  exact run_bind_ok hguard

/-- A text begins as a `CREATE … IF NOT EXISTS` or as a `DROP … IF EXISTS`. -/
def IsGuarded (t : Text) : Prop :=
  ∃ src modifiers kind, Source.ofText t = .ok src ∧
    (startsWith (heading "CREATE" modifiers kind ["IF", "NOT", "EXISTS"]) src.tokens ∨
      startsWith (heading "DROP" modifiers kind ["IF", "EXISTS"]) src.tokens)

/-- Whether a text is guarded can be read off its tokens. -/
theorem isGuarded_of_startsWith {t : Text} (modifiers : Modifiers) (kind : ObjectKind)
    (h : (Source.ofText t).toOption.any fun src =>
      startsWith (heading "CREATE" modifiers kind ["IF", "NOT", "EXISTS"]) src.tokens ||
        startsWith (heading "DROP" modifiers kind ["IF", "EXISTS"]) src.tokens) : IsGuarded t := by
  cases hsrc : Source.ofText t with
  | error e =>
    rw [hsrc] at h
    cases h
  | ok src =>
    rw [hsrc] at h
    exact ⟨src, modifiers, kind, hsrc, Bool.or_eq_true_iff.1 h⟩

/-- A word that spells a keyword opens what the keyword opens. -/
theorem exists_word_of_isKeyword {keyword : Text} {k : Token} (h : k.isKeyword keyword) :
    ∃ w, k = .word w ∧ Opening.ofWord? w = Opening.ofWord? keyword := by
  cases k with
  | word w =>
    have hupper : Text.upper w = Text.upper keyword := beq_iff_eq.1 h
    exact ⟨w, rfl, by rw [Opening.ofWord?, Opening.ofWord?, hupper]⟩
  | quoted | string | number | symbol => cases h

/-- A statement that begins with a keyword is read as the keyword says. -/
theorem ofOpening_of_startsWith {t keyword : Text} {opening : Opening} {op : Operation}
    (hsrc : Source.ofText t = .ok src) (hts : startsWith (keyword :: behind) src.tokens)
    (hopening : Opening.ofWord? keyword = some opening) (h : parse t = .ok (some op)) :
    ∃ left, ofOpening (inside t) opening src src.tokens = .ok (op, left) := by
  obtain ⟨src', k, ts, left, hsrc', htokens, -, -, hfirst⟩ := parse_eq_ok_some_iff.1 h
  obtain rfl : src = src' := Except.ok.inj (hsrc.symm.trans hsrc')
  rw [htokens, startsWith, Bool.and_eq_true] at hts
  obtain ⟨w, hword, hsame⟩ := exists_word_of_isKeyword hts.1
  rw [firstWord_of_word hword (hsame.trans hopening)] at hfirst
  obtain ⟨op', mid, hop, hrest⟩ := ok_of_run_bind hfirst
  cases hrest
  exact ⟨left, htokens ▸ hop⟩

/-- **A guard is heard**, except in front of a query. -/
theorem cases_of_isGuarded {t : Text} {op : Operation} (hguard : IsGuarded t)
    (h : parse t = .ok (some op)) :
    (∃ d, op = .create d ∧ d.guarded) ∨ (∃ d, op = .drop d ∧ d.guarded) ∨
      ∃ m, op = .createTableAs m ∧ m.kind = .createTableAs := by
  obtain ⟨src, modifiers, kind, hsrc, hcreate | hdrop⟩ := hguard
  · obtain ⟨left, hop⟩ := ofOpening_of_startsWith hsrc hcreate rfl h
    obtain ⟨us, hread⟩ := definition_of_heading hcreate src
    obtain ⟨d, mid, hd, hrest⟩ := ok_of_run_bind hop
    rw [hread] at hd
    obtain ⟨name, behind, -, hname⟩ := ok_of_run_bind hd
    cases hname
    rw [run_get_bind] at hrest
    split at hrest
    · cases hrest
      exact .inr (.inr ⟨_, rfl, rfl⟩)
    · cases hrest
      exact .inl ⟨_, rfl, rfl⟩
  · obtain ⟨left, hop⟩ := ofOpening_of_startsWith hsrc hdrop rfl h
    obtain ⟨us, hread⟩ := definition_of_heading hdrop src
    obtain ⟨d, mid, hd, hrest⟩ := ok_of_run_bind hop
    rw [hread] at hd
    obtain ⟨name, behind, -, hname⟩ := ok_of_run_bind hd
    cases hname
    cases hrest
    exact .inr (.inl ⟨_, rfl, rfl⟩)

/-! ## Tables with quoted names -/

/-- A text that can stand behind the name of a table: it neither goes on with the name nor begins
another statement, and the table is not to be filled from a query. -/
structure FollowsName (rest : Text) : Prop where
  closed : Closed rest
  apart : rest.head? ≠ some '`'
  undotted : (tokens rest).head? ≠ some (.symbol '.')
  single : .symbol ';' ∉ (tokens rest).dropLast
  plain : hasQuery 0 (locate .start (cut rest).pieces) = false

/-- What stands in front of the name of a table that is created. -/
def tableFront : Text := "CREATE TABLE "

/-- The statement that creates a table whose name is a quoted value. -/
def createTable (value rest : Text) : Text := tableFront ++ (quote '`' value ++ rest)

theorem cut_tableFront : (cut tableFront).openEnd = none ∧
    (cut tableFront).pieces.getLast? = some (.blank ' ') ∧
    tokens tableFront = [.word "CREATE", .word "TABLE"] := by decide +kernel

variable {rest : Text}

theorem cut_createTable (hrest : FollowsName rest) (value : Text) :
    cut (createTable value rest) =
      ⟨(cut tableFront).pieces ++ .token (.quoted value) (quote '`' value) :: (cut rest).pieces,
        (cut rest).openEnd⟩ := by
  have hseam : ∀ p ∈ (cut tableFront).pieces.getLast?, Seam p (quote '`' value ++ rest) := by
    intro p hp
    rw [cut_tableFront.2.1] at hp
    obtain rfl := Option.some.inj hp
    exact fun d _ => rfl
  rw [createTable, cut_append cut_tableFront.1 hseam, cut_quote_append value hrest.apart]

theorem tokens_createTable (hrest : FollowsName rest) (value : Text) :
    tokens (createTable value rest) =
      .word "CREATE" :: .word "TABLE" :: .quoted value :: tokens rest := by
  have hfront : (cut tableFront).pieces.filterMap token? = [.word "CREATE", .word "TABLE"] :=
    cut_tableFront.2.2
  rw [tokens, cut_createTable hrest, List.filterMap_append, hfront]
  rfl

/-- **A quoted value is read as the name** of the table. -/
theorem parse_createTable (hrest : FollowsName rest) (value : Text) :
    ∃ src, Source.ofText (createTable value rest) = .ok src ∧
      parse (createTable value rest) =
        .ok (some (.create ⟨.table, value, false, src.body⟩)) := by
  have hclosed : Closed (createTable value rest) := by
    rw [Closed, cut_createTable hrest]
    exact hrest.closed
  obtain ⟨src, hsrc⟩ := exists_source hclosed
  refine ⟨src, hsrc, ?_⟩
  have hkinds := (map_token_of_ofText hsrc).2.trans (tokens_createTable hrest value)
  have hsingle : ∀ t ∈ src.tokens.dropLast, t.token ≠ .symbol ';' := by
    intro t ht hterminator
    have hmem : t.token ∈ src.tokens.dropLast.map (·.token) := List.mem_map_of_mem ht
    rw [List.map_dropLast, hkinds, hterminator] at hmem
    cases hbehind : tokens rest with
    | nil =>
      rw [hbehind] at hmem
      exact absurd hmem (by simp)
    | cons k ks =>
      have hlast := hrest.single
      rw [hbehind] at hmem hlast
      rw [List.dropLast_cons_cons, List.dropLast_cons_cons, List.dropLast_cons_cons] at hmem
      exact hlast (by simpa using hmem)
  obtain ⟨a, ts, hall, hcreate⟩ := exists_cons_of_tokens hkinds
  obtain ⟨b, ts, rfl, htable⟩ := exists_cons_of_tokens hcreate
  obtain ⟨us, hname, hus⟩ :=
    expectName_apply (List.cons_ne_nil value []) htable hrest.undotted src
  rw [dotted_singleton] at hname
  obtain ⟨c, ts, rfl, -⟩ := exists_cons_of_tokens htable
  have hsame : SameTokens us (locate .start (cut rest).pieces) := by
    rw [sameTokens_iff, hus, map_token_locate]
  -- A quoted value is no keyword, so nothing is taken in front of it.
  have hread : definition "CREATE" ["IF", "NOT", "EXISTS"] src
      (⟨.word "CREATE", a⟩ :: ⟨.word "TABLE", b⟩ :: ⟨.quoted value, c⟩ :: ts) =
        (expectName >>= fun name => pure ⟨.table, name, false, src.body⟩) src
          (⟨.quoted value, c⟩ :: ts) := rfl
  have hdefinition := hread.trans (run_bind_ok hname)
  have hcreates : Statement.create src
      (⟨.word "CREATE", a⟩ :: ⟨.word "TABLE", b⟩ :: ⟨.quoted value, c⟩ :: ts) =
        .ok (.create ⟨.table, value, false, src.body⟩, us) := by
    refine (run_bind_ok hdefinition).trans ((run_get_bind _ _ _).trans ?_)
    rw [hsame.hasQuery, hrest.plain]
    rfl
  have hopening : Opening.ofWord? "CREATE" = some .create := rfl
  refine parse_eq_ok_some_iff.2 ⟨src, _, _, us, hsrc, hall, rfl,
    rejectInnerTerminators_of (.inr hsingle) _, ?_⟩
  rw [firstWord_of_word rfl hopening]
  exact run_bind_ok hcreates

end SqlConsole.Statement
