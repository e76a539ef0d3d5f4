import SqlConsole.Proofs.Statement.Block
/-!
# Where a statement is faulty

A fault is raised at a token of the statement or at its end, and what it says about the token there
is true (`Raised`).  Every step of reading keeps to that (`Blames`): it leaves tokens from the end
of those that it was given, so what it looks at belongs to the statement.  The only other faults are
those of the statements inside of a block (`Source.innerStatements`), which are handed on as they
are.

A text that is not parsed is not read to its end as tokens, or its fault is raised at one of its own
places, or the fault is that of a statement inside of it (`cases_of_parse_error`).
-/

namespace SqlConsole

/-- The place of the first of some tokens, or the end of the text. -/
def Source.place (src : Source) : List Located → Span
  | k :: _ => k.span
  | [] => src.finish.span

/-- The texts inside of a block that are parsed by themselves: those between the words that begin it
and its last word `END`. -/
def Source.innerStatements (src : Source) : List Text :=
  if startsWith ["EXECUTE", "STATEMENT", "SET", "BEGIN"] src.tokens then
    let start := (src.place (src.tokens.drop 4)).start.offset
    match Statement.lastEnd? start src.tokens with
    | some stop => Script.split (src.textBetween start stop)
    | none => []
  else []

namespace Statement

open StatementParser

variable {α β : Type} {src : Source} {ts us : List Located} {P : ParseError → Prop}

/-! ## Faults of a statement -/

/-- The faults that can be found at a token of a statement or at its end. -/
inductive Raised (src : Source) : ParseError → Prop where
  /-- A token stands where something else was expected. -/
  | unexpected {k : Located} (hk : k ∈ src.tokens) (what : Text) :
      Raised src ⟨.unexpected what k.token.name, k.span⟩
  /-- The statement is over where something else was expected. -/
  | endOfStatement (what : Text) : Raised src ⟨.endOfStatement what, src.finish.span⟩
  /-- A terminator has something behind it, and the statement is no block. -/
  | severalStatements {k : Located} (hk : k ∈ src.tokens.dropLast)
      (hterminator : k.token = .symbol ';')
      (hfirst : startsWith ["EXECUTE", "STATEMENT"] src.tokens = false) :
      Raised src ⟨.severalStatements, k.span⟩
  /-- No statement begins with the word. -/
  | unsupported {k : Located} {w : Text} (hk : k ∈ src.tokens) (hword : k.token = .word w) :
      Raised src ⟨.unsupported w, k.span⟩
  /-- A statement inside of a block is no insert; the fault is found where the block begins. -/
  | notAnInsert (s : Text) {rest : List Located} (hrest : rest <:+ src.tokens) :
      Raised src ⟨.notAnInsert s, src.place rest⟩

/-- A fault of some kind, or an answer with tokens left from the end of the statement. -/
inductive Told (P : ParseError → Prop) (src : Source) :
    Except ParseError (α × List Located) → Prop where
  | fault {e : ParseError} (he : P e) : Told P src (.error e)
  | answer (a : α) {us : List Located} (hus : us <:+ src.tokens) : Told P src (.ok (a, us))

/-- A step finds faults of some kind only, and leaves tokens from the end of the statement. -/
def Blames (P : ParseError → Prop) (src : Source) (m : StatementParser α) : Prop :=
  ∀ ⦃ts : List Located⦄, ts <:+ src.tokens → Told P src (m src ts)

namespace Blames

theorem result (a : α) : Blames P src (pure a : StatementParser α) := by
  intro ts hts
  exact .answer a hts

theorem fault {e : ParseError} (he : P e) : Blames P src (throw e : StatementParser α) := by
  intro ts _
  exact .fault he

theorem bind {m : StatementParser α} {f : α → StatementParser β} (hm : Blames P src m)
    (hf : ∀ a, Blames P src (f a)) : Blames P src (m >>= f) := by
  intro ts hts
  have hfirst := hm hts
  rw [run_bind]
  generalize m src ts = found at hfirst
  cases hfirst with
  | fault he => exact .fault he
  | answer a hus => exact hf a hus

/-- A step that looks at the tokens that are left. -/
theorem get_bind {f : List Located → StatementParser α}
    (h : ∀ ts, ts <:+ src.tokens → Blames P src (f ts)) : Blames P src (get >>= f) := by
  intro ts hts
  exact h ts hts hts

/-- A step that looks at the statement. -/
theorem read_bind {f : Source → StatementParser α} (h : Blames P src (f src)) :
    Blames P src (read >>= f) := h

theorem ite {c : Prop} [Decidable c] {m n : StatementParser α} (hm : Blames P src m)
    (hn : Blames P src n) : Blames P src (if c then m else n) := by
  split
  · exact hm
  · exact hn

theorem imp {Q : ParseError → Prop} {m : StatementParser α} (h : Blames P src m)
    (hPQ : ∀ e, P e → Q e) : Blames Q src m := by
  intro ts hts
  have hm := h hts
  generalize m src ts = found at hm ⊢
  cases hm with
  | fault he => exact .fault (hPQ _ he)
  | answer a hus => exact .answer a hus

/-- The fault names the token that is not what was expected. -/
theorem unexpected (what : Text) :
    Blames (Raised src) src (unexpected what : StatementParser α) := by
  intro ts hts
  cases ts with
  | nil => exact .fault (.endOfStatement what)
  | cons k ts => exact .fault (.unexpected (hts.subset List.mem_cons_self) what)

end Blames

/-! ## Steps -/

theorem here_apply (src : Source) (ts : List Located) : here src ts = .ok (src.place ts, ts) := by
  cases ts <;> rfl

theorem blames_here : Blames P src here := by
  intro ts hts
  rw [here_apply]
  exact .answer _ hts

theorem blames_goto (h : us <:+ src.tokens) : Blames P src (goto us) := by
  intro ts _
  exact .answer () h

theorem blames_advance : Blames P src advance := by
  intro ts hts
  exact .answer () ((List.tail_suffix ts).trans hts)

theorem blames_eatKeywords (keywords : List Text) : Blames P src (eatKeywords keywords) := by
  intro ts hts
  rw [eatKeywords_apply]
  split
  · exact .answer true ((List.drop_suffix _ ts).trans hts)
  · exact .answer false hts

theorem blames_expectKeyword (keyword : Text) :
    Blames (Raised src) src (expectKeyword keyword) :=
  (blames_eatKeywords [keyword]).bind fun _ => .ite (.unexpected keyword) (.result ())

theorem blames_expectSymbol (c : Char) : Blames (Raised src) src (expectSymbol c) := by
  refine .get_bind fun ts hts => ?_
  cases ts with
  | nil => exact .unexpected _
  | cons k ts => exact .ite (blames_goto ((List.suffix_cons k ts).trans hts)) (.unexpected _)

theorem blames_expectString (what : Text) : Blames (Raised src) src (expectString what) := by
  refine .get_bind fun ts hts => ?_
  cases ts with
  | nil => exact .unexpected _
  | cons k ts =>
    dsimp only
    split
    · exact (blames_goto ((List.suffix_cons k ts).trans hts)).bind fun _ => .result _
    · exact .unexpected _

theorem blames_expectIdentifier : Blames (Raised src) src expectIdentifier := by
  refine .get_bind fun ts hts => ?_
  cases ts with
  | nil => exact .unexpected _
  | cons k ts =>
    dsimp only
    split
    · exact (blames_goto ((List.suffix_cons k ts).trans hts)).bind fun _ => .result _
    · exact .unexpected _

/-- Identifiers are taken from the front, up to the place where one is missing. -/
theorem suffix_of_moreIdentifiers (separator : Char) (ts : List Located) :
    match moreIdentifiers separator ts with
    | .ok (_, us) => us <:+ ts
    | .error us => us <:+ ts := by
  fun_induction moreIdentifiers separator ts with
  | case1 sep part rest hsep name hname ih =>
    have hpair : rest <:+ sep :: part :: rest := ⟨[sep, part], rfl⟩
    cases hmore : moreIdentifiers separator rest with
    | ok found =>
      rw [hmore] at ih
      exact List.IsSuffix.trans ih hpair
    | error us =>
      rw [hmore] at ih
      exact List.IsSuffix.trans ih hpair
  | case2 sep part rest => exact List.suffix_cons sep (part :: rest)
  | case4 sep => exact List.suffix_cons sep []
  | case3 | case5 | case6 => exact List.suffix_rfl

theorem blames_expectIdentifiers (separator : Char) :
    Blames (Raised src) src (expectIdentifiers separator) := by
  refine blames_expectIdentifier.bind fun first => .get_bind fun ts hts => ?_
  have hleft := suffix_of_moreIdentifiers separator ts
  split
  · next names us hmore =>
    rw [hmore] at hleft
    exact (blames_goto (List.IsSuffix.trans hleft hts)).bind fun _ => .result _
  · next us hmore =>
    rw [hmore] at hleft
    exact (blames_goto (List.IsSuffix.trans hleft hts)).bind fun _ => .unexpected _

theorem blames_expectName : Blames (Raised src) src expectName :=
  (blames_expectIdentifiers '.').bind fun _ => .result _

theorem blames_expectEnd : Blames (Raised src) src expectEnd :=
  .get_bind fun _ _ => .ite (.unexpected _) (.result ())

theorem blames_restText : Blames P src restText :=
  .read_bind (blames_here.bind fun _ => .result _)

/-- What follows where something is left. -/
theorem Blames.unlessAtEnd {what : Text} {m : StatementParser α} (h : Blames (Raised src) src m) :
    Blames (Raised src) src
      (get >>= fun ts => if atEnd ts then StatementParser.unexpected what >>= fun (_ : Unit) => m
        else m) :=
  .get_bind fun _ _ => .ite ((Blames.unexpected (α := Unit) what).bind fun _ => h) h

/-! ## Statements -/

theorem blames_bareCommand (op : Operation) : Blames (Raised src) src (bareCommand op) :=
  blames_advance.bind fun _ => blames_expectEnd.bind fun _ => .result op

theorem suffix_skipToEquals (ts : List Located) : skipToEquals ts <:+ ts := by
  fun_induction skipToEquals ts with
  | case1 => exact List.suffix_rfl
  | case2 => exact List.suffix_rfl
  | case3 t ts _ ih => exact ih.trans (List.suffix_cons t ts)

theorem blames_propertyKey : Blames (Raised src) src propertyKey := by
  refine .get_bind fun ts hts => ?_
  split
  · exact blames_advance.bind fun _ => .result _
  · refine blames_here.bind fun _ => .get_bind fun ts hts => ?_
    refine (blames_goto ((suffix_skipToEquals ts).trans hts)).bind fun _ => ?_
    exact .read_bind (blames_here.bind fun _ => .result _)

theorem blames_lastValue : Blames (Raised src) src lastValue := by
  refine .get_bind fun ts hts => ?_
  split
  · exact blames_advance.bind fun _ => blames_expectEnd.bind fun _ => .result _
  · exact blames_restText

theorem blames_set : Blames (Raised src) src set := by
  refine blames_advance.bind fun _ => .get_bind fun ts hts => .ite (.result _) ?_
  refine blames_propertyKey.bind fun key => (blames_expectSymbol '=').bind fun _ => ?_
  exact .unlessAtEnd (blames_lastValue.bind fun _ => .result _)

theorem blames_reset : Blames (Raised src) src reset :=
  blames_advance.bind fun _ => .get_bind fun _ _ =>
    .ite (.result _) (blames_lastValue.bind fun _ => .result _)

theorem blames_insertHeading : Blames (Raised src) src insertHeading := by
  have htarget (kind : ModifyKind) : Blames (Raised src) src (do
      let _ ← eatKeyword "TABLE"
      let target ← expectName
      if atEnd (← get) then unexpected "query or VALUES"
      return (kind, target)) :=
    (blames_eatKeywords ["TABLE"]).bind fun _ => blames_expectName.bind fun _ =>
      .unlessAtEnd (.result _)
  refine (blames_expectKeyword "INSERT").bind fun _ => ?_
  refine (blames_eatKeywords ["INTO"]).bind fun _ => .ite ?_ ?_
  · exact (Blames.result _).bind htarget
  · refine (blames_eatKeywords ["OVERWRITE"]).bind fun _ => .ite ?_ ?_
    · exact (Blames.result _).bind htarget
    · exact (Blames.unexpected _).bind htarget

theorem blames_insert : Blames (Raised src) src insert := by
  rw [insert_eq]
  exact blames_here.bind fun _ => blames_insertHeading.bind fun _ => .read_bind (.result _)

theorem suffix_skipDetails (afterDetail : Bool) (ts : List Located) :
    skipDetails afterDetail ts <:+ ts := by
  fun_induction skipDetails afterDetail ts with
  | case1 => exact List.suffix_rfl
  | case2 _ t ts _ ih => exact ih.trans (List.suffix_cons t ts)
  | case3 _ t ts _ _ ih => exact ih.trans (List.suffix_cons t ts)
  | case4 => exact List.suffix_rfl

theorem blames_explain : Blames (Raised src) src explain := by
  have hstatement : Blames (Raised src) src (do
      if atEnd (← get) then unexpected "statement to explain"
      return Operation.explain (← restText)) :=
    .unlessAtEnd (blames_restText.bind fun _ => .result _)
  refine blames_advance.bind fun _ => (blames_eatKeywords ["PLAN", "FOR"]).bind fun _ => ?_
  refine .ite (.get_bind fun ts hts => ?_) hstatement
  exact (blames_goto ((suffix_skipDetails false ts).trans hts)).bind fun _ => hstatement

theorem blames_showCreate : Blames (Raised src) src showCreate := by
  have hend (op : Operation) : Blames (Raised src) src (do expectEnd; return op) :=
    blames_expectEnd.bind fun _ => .result op
  refine blames_advance.bind fun _ => (blames_expectKeyword "CREATE").bind fun _ => ?_
  refine (blames_eatKeywords ["TABLE"]).bind fun _ => .ite ?_ ?_
  · exact blames_expectName.bind fun _ => (Blames.result _).bind hend
  · refine (blames_eatKeywords ["VIEW"]).bind fun _ => .ite ?_ ?_
    · exact blames_expectName.bind fun _ => (Blames.result _).bind hend
    · exact (Blames.unexpected _).bind hend

theorem blames_objectKind : Blames (Raised src) src objectKind :=
  (blames_eatKeywords ["TABLE"]).bind fun _ => .ite (.result _) <|
  (blames_eatKeywords ["VIEW"]).bind fun _ => .ite (.result _) <|
  (blames_eatKeywords ["FUNCTION"]).bind fun _ => .ite (.result _) <|
  (blames_eatKeywords ["DATABASE"]).bind fun _ => .ite (.result _) <|
  (blames_eatKeywords ["CATALOG"]).bind fun _ => .ite (.result _) (.unexpected _)

theorem blames_definition (verb : Text) (guard : List Text) :
    Blames (Raised src) src (definition verb guard) :=
  (blames_expectKeyword verb).bind fun _ => (blames_eatKeywords ["OR", "REPLACE"]).bind fun _ =>
    (blames_eatKeywords ["TEMPORARY"]).bind fun _ => (blames_eatKeywords ["SYSTEM"]).bind fun _ =>
    blames_objectKind.bind fun _ => (blames_eatKeywords guard).bind fun _ =>
    blames_expectName.bind fun _ => .read_bind (.result _)

theorem blames_create : Blames (Raised src) src create :=
  (blames_definition "CREATE" _).bind fun _ => .get_bind fun _ _ => .ite (.result _) (.result _)

theorem blames_use : Blames (Raised src) src use := by
  have hend (target : UseTarget) : Blames (Raised src) src (do
      expectEnd
      return Operation.use target (← read).body) :=
    blames_expectEnd.bind fun _ => .read_bind (.result _)
  refine blames_advance.bind fun _ => (blames_eatKeywords ["CATALOG"]).bind fun _ => ?_
  refine .ite ?_ ((blames_eatKeywords ["MODULES"]).bind fun _ => .ite ?_ ?_)
  · exact blames_expectIdentifier.bind fun _ => (Blames.result _).bind hend
  · exact (blames_expectIdentifiers ',').bind fun _ => (Blames.result _).bind hend
  · exact blames_expectName.bind fun _ => (Blames.result _).bind hend

theorem blames_jarPath : Blames (Raised src) src jarPath :=
  blames_advance.bind fun _ => (blames_expectKeyword "JAR").bind fun _ =>
    (blames_expectString _).bind fun _ => blames_expectEnd.bind fun _ => .result _

theorem blames_moduleName : Blames (Raised src) src moduleName :=
  blames_advance.bind fun _ => (blames_expectKeyword "MODULE").bind fun _ =>
    blames_expectIdentifier

/-- Flags are taken from the front, up to the place where one is missing. -/
theorem suffix_of_stopFlags (savepoint drain : Bool) (ts : List Located) :
    match stopFlags savepoint drain ts with
    | .ok (_, us) => us <:+ ts
    | .error us => us <:+ ts := by
  fun_induction stopFlags savepoint drain ts with
  | case1 savepoint drain w flag rest _ _ ih | case2 savepoint drain w flag rest _ _ _ ih =>
    have hpair : rest <:+ w :: flag :: rest := ⟨[w, flag], rfl⟩
    split at ih
    · exact List.IsSuffix.trans ih hpair
    · exact List.IsSuffix.trans ih hpair
  | case3 savepoint drain w flag rest => exact List.suffix_cons w (flag :: rest)
  | case5 savepoint drain w => exact List.suffix_cons w []
  | case4 | case6 | case7 => exact List.suffix_rfl

theorem blames_stopJob : Blames (Raised src) src stopJob := by
  refine blames_advance.bind fun _ => (blames_expectKeyword "JOB").bind fun _ => ?_
  refine (blames_expectString _).bind fun job => .get_bind fun ts hts => ?_
  have hleft := suffix_of_stopFlags false false ts
  split
  · next us hflags =>
    rw [hflags] at hleft
    exact (blames_goto (List.IsSuffix.trans hleft hts)).bind fun _ => .unexpected _
  · next savepoint drain us hflags =>
    rw [hflags] at hleft
    exact (blames_goto (List.IsSuffix.trans hleft hts)).bind fun _ =>
      blames_expectEnd.bind fun _ => .result _

/-! ## Blocks -/

variable {inner : Text → Except ParseError (Option Operation)}

/-- The insertions of some statements fail with the fault of one of the statements, or since one of
them is no insert. -/
theorem cases_of_insertsOf_error {place : Span} {ss : List Text} {e : ParseError}
    (h : insertsOf inner place ss = .error e) :
    (∃ s ∈ ss, inner s = .error e) ∨ ∃ s, e = ⟨.notAnInsert s, place⟩ := by
  induction ss with
  | nil => cases h
  | cons s ss ih =>
    have hlater (hrest : insertsOf inner place ss = .error e) :
        (∃ u ∈ s :: ss, inner u = .error e) ∨ ∃ u, e = ⟨.notAnInsert u, place⟩ :=
      (ih hrest).imp_left fun ⟨u, hu, hfault⟩ => ⟨u, List.mem_cons_of_mem s hu, hfault⟩
    rw [insertsOf] at h
    cases hs : inner s with
    | error e' =>
      rw [hs] at h
      cases h
      exact .inl ⟨s, List.mem_cons_self, hs⟩
    | ok found =>
      rw [hs] at h
      cases found with
      | none => exact hlater h
      | some op =>
        cases op with
        | insert m =>
          change (insertsOf inner place ss).map (m :: ·) = _ at h
          cases hrest : insertsOf inner place ss with
          | ok ms =>
            rw [hrest] at h
            cases h
          | error e' =>
            rw [hrest] at h
            cases h
            exact hlater hrest
        | _ =>
          cases h
          exact .inr ⟨_, rfl⟩

/-- The faults of a statement, and those of the statements inside of it. -/
def RaisedWithin (inner : Text → Except ParseError (Option Operation)) (src : Source)
    (e : ParseError) : Prop :=
  Raised src e ∨ ∃ s ∈ src.innerStatements, inner s = .error e

theorem blames_closeBlock {found : Except ParseError (List Modify)}
    (h : ∀ e, found = .error e → RaisedWithin inner src e) :
    Blames (RaisedWithin inner src) src (closeBlock found) := by
  cases found with
  | error e => exact .fault (h e rfl)
  | ok ms =>
    rw [closeBlock_ok]
    exact (blames_expectEnd.imp fun _ => .inl).bind fun _ => .result _

/-- Behind the words that begin it, a block hands on the faults of its statements. -/
theorem told_block
    (hstarts : startsWith ["EXECUTE", "STATEMENT", "SET", "BEGIN"] src.tokens) :
    Told (RaisedWithin inner src) src (block inner src (src.tokens.drop 4)) := by
  have hrest : src.tokens.drop 4 <:+ src.tokens := List.drop_suffix 4 src.tokens
  rw [block_apply (here_apply src _)]
  cases hend : lastEnd? (src.place (src.tokens.drop 4)).start.offset src.tokens with
  | none => exact .fault (.inl (.endOfStatement "END"))
  | some stop =>
    have hinner : src.innerStatements =
        Script.split (src.textBetween (src.place (src.tokens.drop 4)).start.offset stop) := by
      rw [Source.innerStatements, if_pos hstarts]
      simp only [hend]
    dsimp only
    rw [← hinner]
    refine blames_closeBlock (fun e he => ?_)
      ((List.tail_suffix _).trans ((List.dropWhile_suffix _).trans hrest))
    rcases cases_of_insertsOf_error he with hfault | ⟨s, rfl⟩
    · exact .inr hfault
    · exact .inl (.notAnInsert s hrest)

theorem isKeyword_execute {w : Text} (h : Opening.ofWord? w = some .execute) :
    (Token.word w).isKeyword "EXECUTE" := by
  have hall : ∀ entry ∈ openings, entry.2 = .execute → entry.1 = "EXECUTE" := by decide
  obtain ⟨before, behind, hopenings, -⟩ := List.lookup_eq_some_iff.1 h
  have hmem : (Text.upper w, Opening.execute) ∈ openings := by
    rw [hopenings]
    exact List.mem_append_right _ List.mem_cons_self
  exact beq_iff_eq.2 (hall _ hmem rfl)

theorem told_execute {k : Located} (htokens : src.tokens = k :: ts)
    (hk : k.token.isKeyword "EXECUTE") :
    Told (RaisedWithin inner src) src (execute inner src src.tokens) := by
  have hrest : ts <:+ src.tokens := htokens ▸ List.suffix_cons k ts
  have hadvance : advance src src.tokens = .ok ((), ts) := by
    rw [htokens]
    rfl
  unfold execute
  rw [run_bind_ok hadvance, run_bind, eatKeywords_apply]
  by_cases hstarts : startsWith ["STATEMENT", "SET", "BEGIN"] ts
  · rw [if_pos hstarts]
    have hdrop : ts.drop 3 = src.tokens.drop 4 := by
      rw [htokens]
      rfl
    have hfour : startsWith ["EXECUTE", "STATEMENT", "SET", "BEGIN"] src.tokens := by
      rw [htokens, startsWith, hk, hstarts]
      rfl
    show Told _ src (block inner src (ts.drop 3))
    rw [hdrop]
    exact told_block hfour
  · rw [if_neg hstarts]
    have hinsert : Blames (Raised src) src (do
        if startsWith ["INSERT"] (← get) then return Operation.insert (← insert)
        else unexpected "STATEMENT SET or INSERT") :=
      .get_bind fun _ _ => .ite (blames_insert.bind fun _ => .result _) (.unexpected _)
    exact hinsert.imp (fun _ => .inl) hrest

/-! ## Whole statements -/

theorem blames_ofOpening {opening : Opening} (h : opening ≠ .execute) :
    Blames (Raised src) src (ofOpening inner opening) := by
  cases opening with
  | quit | clear | help | endSet => exact blames_bareCommand _
  | set => exact blames_set
  | reset => exact blames_reset
  | insert => exact blames_insert.bind fun _ => .result _
  | query | passed => exact .read_bind (.result _)
  | explain => exact blames_explain
  | beginSet =>
    exact blames_advance.bind fun _ => (blames_expectKeyword "STATEMENT").bind fun _ =>
      (blames_expectKeyword "SET").bind fun _ => blames_expectEnd.bind fun _ => .result _
  | execute => exact (h rfl).elim
  | addJar | removeJar => exact blames_jarPath.bind fun _ => .result _
  | showing => exact .get_bind fun _ _ => .ite blames_showCreate (.read_bind (.result _))
  | create => exact blames_create
  | drop => exact (blames_definition "DROP" _).bind fun _ => .result _
  | alter => exact (blames_definition "ALTER" _).bind fun _ => .result _
  | use => exact blames_use
  | load => exact blames_moduleName.bind fun _ => .result _
  | unload => exact blames_moduleName.bind fun _ => blames_expectEnd.bind fun _ => .result _
  | stop => exact blames_stopJob

theorem told_firstWord {k : Located} (htokens : src.tokens = k :: ts) :
    Told (RaisedWithin inner src) src (firstWord inner k src src.tokens) := by
  have hk : k ∈ src.tokens := by
    rw [htokens]
    exact List.mem_cons_self
  have hwhole : src.tokens <:+ src.tokens := List.suffix_rfl
  have hunexpected : Blames (RaisedWithin inner src) src
      (unexpected "statement keyword" : StatementParser (Option Operation)) :=
    (Blames.unexpected _).imp fun _ => .inl
  cases htoken : k.token with
  | word w =>
    cases hopening : Opening.ofWord? w with
    | none =>
      unfold firstWord
      rw [htoken]
      simp only [hopening]
      exact .fault (.inl (.unsupported hk htoken))
    | some opening =>
      rw [firstWord_of_word htoken hopening, run_bind]
      have hop : Told (RaisedWithin inner src) src (ofOpening inner opening src src.tokens) := by
        by_cases hexecute : opening = .execute
        · subst hexecute
          exact told_execute htokens (htoken ▸ isKeyword_execute hopening)
        · exact (blames_ofOpening hexecute).imp (fun _ => .inl) hwhole
      generalize ofOpening inner opening src src.tokens = found at hop
      cases hop with
      | fault he => exact .fault he
      | answer op hus => exact .answer (some op) hus
  | symbol c =>
    by_cases hc : c = '('
    · subst hc
      unfold firstWord
      rw [htoken]
      exact .answer _ hwhole
    · rw [firstWord_of_symbol hc htoken]
      exact hunexpected hwhole
  | quoted | string | number =>
    unfold firstWord
    rw [htoken]
    exact hunexpected hwhole

theorem raised_of_rejectInnerTerminators {e : ParseError}
    (h : rejectInnerTerminators src ts = .error e) : Raised src e := by
  rw [rejectInnerTerminators_apply] at h
  cases hstarts : startsWith ["EXECUTE", "STATEMENT"] src.tokens with
  | true =>
    rw [hstarts] at h
    cases h
  | false =>
    rw [hstarts] at h
    cases hfind : src.tokens.dropLast.find? (·.token == .symbol ';') with
    | none =>
      rw [hfind] at h
      cases h
    | some t =>
      rw [hfind] at h
      cases h
      have hterminator : t.token = .symbol ';' := by simpa using List.find?_some hfind
      exact .severalStatements (List.mem_of_find?_eq_some hfind) hterminator hstarts

/-- The faults of a statement are its own or those of the statements inside of it. -/
theorem told_operation : Told (RaisedWithin inner src) src (operation inner src src.tokens) := by
  have hwhole : src.tokens <:+ src.tokens := List.suffix_rfl
  cases hend : atEnd src.tokens with
  | true =>
    rw [operation_of_atEnd _ _ hend]
    exact .answer none hwhole
  | false =>
    cases htokens : src.tokens with
    | nil =>
      rw [htokens] at hend
      cases hend
    | cons k ts =>
      rw [htokens] at hend
      cases hreject : rejectInnerTerminators src (k :: ts) with
      | error e =>
        rw [operation_of_not_atEnd hend, run_bind, hreject]
        exact .fault (.inl (raised_of_rejectInnerTerminators hreject))
      | ok found =>
        obtain ⟨⟨⟩, left⟩ := found
        obtain ⟨rfl, -⟩ := eq_of_rejectInnerTerminators hreject
        rw [operation_eq_firstWord hend hreject, ← htokens]
        exact told_firstWord htokens

/-- A text that is not parsed is not read as tokens, or it has a fault of its own, or the fault of
a shorter text inside of it. -/
theorem cases_of_parse_error {t : Text} {e : ParseError} (h : parse t = .error e) :
    (∃ what span, Lexed.ofText t = .error (what, span) ∧ e = ⟨.unclosed what, span⟩) ∨
      ∃ src, Source.ofText t = .ok src ∧
        (Raised src e ∨ ∃ s ∈ src.innerStatements, s.length < t.length ∧ parse s = .error e) := by
  rw [parse_eq] at h
  cases hsrc : Source.ofText t with
  | error e' =>
    rw [hsrc] at h
    cases h
    unfold Source.ofText at hsrc
    cases hlexed : Lexed.ofText t with
    | ok lexed =>
      rw [hlexed] at hsrc
      cases hsrc
    | error found =>
      rw [hlexed] at hsrc
      cases hsrc
      exact .inl ⟨found.1, found.2, rfl, rfl⟩
  | ok src =>
    rw [hsrc] at h
    change (operation (inside t) src src.tokens).bind _ = _ at h
    have htold : Told (RaisedWithin (inside t) src) src (operation (inside t) src src.tokens) :=
      told_operation
    generalize operation (inside t) src src.tokens = found at h htold
    refine .inr ⟨src, rfl, ?_⟩
    cases htold with
    | answer a hus => cases h
    | fault he =>
      cases h
      refine he.imp_right fun ⟨s, hs, hfault⟩ => ⟨s, hs, ?_⟩
      unfold inside at hfault
      split at hfault
      · next hlength => exact ⟨hlength, hfault⟩
      · cases hfault

end Statement

end SqlConsole
