import SqlConsole.Proofs.Statement.Insert
import SqlConsole.Proofs.Statement.Parallel
/-!
# What is left of a statement without its texts

What a statement asks for may hold texts of it as they stand.  `Operation.outline` is the operation
without them.  Statements with the same tokens agree on it, whatever their layout
(`agree_ofOpening`); where they are blocks, so do they if their blocks do (`agree_operation`).
-/

namespace SqlConsole

/-! ## Outlines -/

/-- A modification without the text that spells it. -/
def Modify.outline (m : Modify) : Modify := { m with statement := [] }

/-- A definition without the text that spells it. -/
def Definition.outline (d : Definition) : Definition := { d with statement := [] }

namespace Token

/-- Whether the first of some tokens is a string literal. -/
def literalFirst (ks : List Token) : Bool := ks.head?.any fun k => k.string?.isSome

/-- The tokens behind the first `=`. -/
def behindEquals (ks : List Token) : List Token := (ks.dropWhile (· != .symbol '=')).tail

end Token

/-- An operation without the texts that are taken from its statement as they stand: the statement
itself, and the key and the value of a property unless they are string literals.  These are told
from the tokens of the statement. -/
def Operation.outline (ks : List Token) : Operation → Operation
  | .set key value =>
    .set (if Token.literalFirst ks.tail then key else key.map fun _ => [])
      (if Token.literalFirst (Token.behindEquals ks.tail) then value else value.map fun _ => [])
  | .reset key => .reset (if Token.literalFirst ks.tail then key else key.map fun _ => [])
  | .insert m => .insert m.outline
  | .createTableAs m => .createTableAs m.outline
  | .query _ => .query []
  | .explain _ => .explain []
  | .statementSet ms => .statementSet (ms.map Modify.outline)
  | .create d => .create d.outline
  | .drop d => .drop d.outline
  | .alter d => .alter d.outline
  | .use target _ => .use target []
  | .other _ => .other []
  | op => op

/-- Operations of statements with the same tokens that differ at most in texts taken as they
stand. -/
def Operation.Alike (ks : List Token) (x y : Operation) : Prop := x.outline ks = y.outline ks

namespace Statement

open StatementParser

variable {src src' : Source} {ts us : List Located}

/-! ## Statements -/

theorem parallel_bareCommand (op : Operation) :
    Parallel Eq (bareCommand op) (bareCommand op) :=
  parallel_advance.bind_eq fun _ => parallel_expectEnd.bind_eq fun _ => .result rfl

theorem parallel_insertHeading : Parallel Eq insertHeading insertHeading := by
  have htarget (kind : ModifyKind) : Parallel Eq
      (do
        let _ ← eatKeyword "TABLE"
        let target ← expectName
        if atEnd (← get) then unexpected "query or VALUES"
        return (kind, target))
      (do
        let _ ← eatKeyword "TABLE"
        let target ← expectName
        if atEnd (← get) then unexpected "query or VALUES"
        return (kind, target)) :=
    (parallel_eatKeywords ["TABLE"]).bind_eq fun _ => parallel_expectName.bind_eq fun target =>
      .unlessAtEnd (.result rfl)
  refine (parallel_expectKeyword "INSERT").bind_eq fun _ =>
    (parallel_eatKeywords ["INTO"]).bind_eq fun _ => .ite ?_ ?_
  · exact (Parallel.result rfl).bind_eq htarget
  · refine (parallel_eatKeywords ["OVERWRITE"]).bind_eq fun _ => .ite ?_ ?_
    · exact (Parallel.result rfl).bind_eq htarget
    · exact (Parallel.unexpected _ _).bind_eq htarget

theorem parallel_insert : Parallel (fun m n => m.outline = n.outline) insert insert := by
  rw [insert_eq]
  refine parallel_here.bind fun _ _ _ => parallel_insertHeading.bind_eq fun heading => ?_
  exact .read_bind fun _ _ => .result rfl

theorem parallel_explain (ks : List Token) :
    Parallel (Operation.Alike ks) explain explain := by
  have hstatement : Parallel (Operation.Alike ks)
      (do
        if atEnd (← get) then unexpected "statement to explain"
        return Operation.explain (← restText))
      (do
        if atEnd (← get) then unexpected "statement to explain"
        return Operation.explain (← restText)) :=
    .unlessAtEnd (parallel_restText.bind fun _ _ _ => .result rfl)
  refine parallel_advance.bind_eq fun _ => (parallel_eatKeywords ["PLAN", "FOR"]).bind_eq fun _ => ?_
  refine .ite (.get_bind fun ts us hsame => ?_) hstatement
  exact (parallel_goto (hsame.skipDetails false)).bind_eq fun _ => hstatement

theorem parallel_showCreate : Parallel Eq showCreate showCreate := by
  have hend (op : Operation) : Parallel Eq (do expectEnd; return op) (do expectEnd; return op) :=
    parallel_expectEnd.bind_eq fun _ => .result rfl
  refine parallel_advance.bind_eq fun _ => (parallel_expectKeyword "CREATE").bind_eq fun _ => ?_
  refine (parallel_eatKeywords ["TABLE"]).bind_eq fun _ => .ite ?_ ?_
  · exact parallel_expectName.bind_eq fun _ => (Parallel.result rfl).bind_eq hend
  · refine (parallel_eatKeywords ["VIEW"]).bind_eq fun _ => .ite ?_ ?_
    · exact parallel_expectName.bind_eq fun _ => (Parallel.result rfl).bind_eq hend
    · exact (Parallel.unexpected _ _).bind_eq hend

theorem parallel_objectKind : Parallel Eq objectKind objectKind :=
  (parallel_eatKeywords ["TABLE"]).bind_eq fun _ => .ite (.result rfl) <|
  (parallel_eatKeywords ["VIEW"]).bind_eq fun _ => .ite (.result rfl) <|
  (parallel_eatKeywords ["FUNCTION"]).bind_eq fun _ => .ite (.result rfl) <|
  (parallel_eatKeywords ["DATABASE"]).bind_eq fun _ => .ite (.result rfl) <|
  (parallel_eatKeywords ["CATALOG"]).bind_eq fun _ => .ite (.result rfl) (.unexpected _ _)

theorem parallel_definition (verb : Text) (guard : List Text) :
    Parallel (fun d e => d.outline = e.outline) (definition verb guard) (definition verb guard) :=
  (parallel_expectKeyword verb).bind_eq fun _ =>
    (parallel_eatKeywords ["OR", "REPLACE"]).bind_eq fun _ =>
    (parallel_eatKeywords ["TEMPORARY"]).bind_eq fun _ =>
    (parallel_eatKeywords ["SYSTEM"]).bind_eq fun _ =>
    parallel_objectKind.bind_eq fun _ => (parallel_eatKeywords guard).bind_eq fun _ =>
    parallel_expectName.bind_eq fun _ => .read_bind fun _ _ => .result rfl

theorem parallel_create (ks : List Token) :
    Parallel (Operation.Alike ks) create create := by
  refine (parallel_definition "CREATE" _).bind fun d e hde => .get_bind fun ts us hsame => ?_
  obtain ⟨object, name, guarded, statement⟩ := d
  obtain ⟨object', name', guarded', statement'⟩ := e
  obtain ⟨rfl, rfl, rfl, -⟩ := Definition.mk.inj hde
  rw [hsame.hasQuery]
  exact .ite (.result rfl) (.result rfl)

theorem parallel_use (ks : List Token) :
    Parallel (Operation.Alike ks) use use := by
  have hend (target : UseTarget) : Parallel (Operation.Alike ks)
      (do expectEnd; return Operation.use target (← read).body)
      (do expectEnd; return Operation.use target (← read).body) :=
    parallel_expectEnd.bind_eq fun _ => .read_bind fun _ _ => .result rfl
  refine parallel_advance.bind_eq fun _ => (parallel_eatKeywords ["CATALOG"]).bind_eq fun _ => ?_
  refine .ite ?_ ((parallel_eatKeywords ["MODULES"]).bind_eq fun _ => .ite ?_ ?_)
  · exact parallel_expectIdentifier.bind_eq fun _ => (Parallel.result rfl).bind_eq hend
  · exact (parallel_expectIdentifiers ',').bind_eq fun _ => (Parallel.result rfl).bind_eq hend
  · exact parallel_expectName.bind_eq fun _ => (Parallel.result rfl).bind_eq hend

theorem parallel_jarPath : Parallel Eq jarPath jarPath :=
  parallel_advance.bind_eq fun _ => (parallel_expectKeyword "JAR").bind_eq fun _ =>
    (parallel_expectString "jar path").bind_eq fun _ => parallel_expectEnd.bind_eq fun _ =>
    .result rfl

theorem parallel_moduleName : Parallel Eq moduleName moduleName :=
  parallel_advance.bind_eq fun _ => (parallel_expectKeyword "MODULE").bind_eq fun _ =>
    parallel_expectIdentifier

theorem parallel_stopJob : Parallel Eq stopJob stopJob := by
  refine parallel_advance.bind_eq fun _ => (parallel_expectKeyword "JOB").bind_eq fun _ =>
    (parallel_expectString "job id").bind_eq fun job => .get_bind fun ts us hsame => ?_
  have hflags := hsame.stopFlags false false
  generalize stopFlags false false ts = found at hflags
  generalize stopFlags false false us = found' at hflags
  cases hflags with
  | missing hleft => exact (parallel_goto hleft).bind_eq fun _ => .unexpected _ _
  | found flags hleft =>
    exact (parallel_goto hleft).bind_eq fun _ => parallel_expectEnd.bind_eq fun _ => .result rfl

/-! ## Properties -/

theorem literalFirst_map (ts : List Located) : Token.literalFirst (ts.map (·.token)) =
    (ts.head?.bind fun t => t.token.string?).isSome := by
  cases ts <;> rfl

/-- A value is the same in both runs if it is a string literal. -/
theorem agree_lastValue (h : SameTokens ts us) :
    Agree (fun v w => Token.literalFirst (ts.map (·.token)) → v = w) (lastValue src ts)
      (lastValue src' us) := by
  unfold lastValue
  rw [run_get_bind, run_get_bind, literalFirst_map, h.head?_string?]
  cases us.head?.bind (·.token.string?) with
  | none =>
    have hrest : Agree (fun _ _ => True) (restText src ts) (restText src' us) := parallel_restText h
    exact hrest.imp fun _ _ _ hliteral => by cases hliteral
  | some value =>
    have hlast : Parallel Eq (do advance; expectEnd; return value : StatementParser Text)
        (do advance; expectEnd; return value) :=
      parallel_advance.bind_eq fun _ => parallel_expectEnd.bind_eq fun _ => .result rfl
    exact (hlast h).imp fun _ _ heq _ => heq

/-- A key is the same in both runs if it is a string literal. -/
theorem agree_propertyKey (h : SameTokens ts us) :
    Agree (fun key key' => Token.literalFirst (ts.map (·.token)) → key = key')
      (propertyKey src ts) (propertyKey src' us) := by
  unfold propertyKey
  rw [run_get_bind, run_get_bind, literalFirst_map, h.head?_string?]
  cases us.head?.bind (·.token.string?) with
  | none =>
    have htext : Parallel (fun _ _ => True)
        (do
          let start := (← here).start.offset
          goto (skipToEquals (← get))
          return (← read).textBetween start (← here).start.offset : StatementParser Text)
        (do
          let start := (← here).start.offset
          goto (skipToEquals (← get))
          return (← read).textBetween start (← here).start.offset) :=
      parallel_here.bind fun _ _ _ => .get_bind fun _ _ hleft =>
        (parallel_goto hleft.skipToEquals).bind_eq fun _ => .read_bind fun _ _ =>
        parallel_here.bind fun _ _ _ => .result trivial
    exact (htext h).imp fun _ _ _ hliteral => by cases hliteral
  | some key =>
    have hkey : Parallel Eq (do advance; return key : StatementParser Text)
        (do advance; return key) :=
      parallel_advance.bind_eq fun _ => .result rfl
    exact (hkey h).imp fun _ _ heq _ => heq

/-- Behind a key stands what follows the literal, or the `=`. -/
theorem left_of_propertyKey {key : Text} (h : propertyKey src ts = .ok (key, us)) :
    us = if Token.literalFirst (ts.map (·.token)) then ts.tail else skipToEquals ts := by
  unfold propertyKey at h
  rw [run_get_bind] at h
  rw [literalFirst_map]
  cases hliteral : ts.head?.bind (·.token.string?) with
  | some value =>
    rw [hliteral] at h
    cases h
    rfl
  | none =>
    obtain ⟨span, hspan⟩ := exists_here src ts
    obtain ⟨span', hspan'⟩ := exists_here src (skipToEquals ts)
    rw [hliteral] at h
    obtain ⟨_, mid, hmid, h⟩ := ok_of_run_bind h
    obtain ⟨-, rfl⟩ := Prod.mk.inj (Except.ok.inj (hspan.symm.trans hmid))
    obtain ⟨_, mid, hmid, h⟩ := ok_of_run_bind h
    cases hmid
    obtain ⟨_, mid, hmid, h⟩ := ok_of_run_bind h
    cases hmid
    obtain ⟨_, mid, hmid, h⟩ := ok_of_run_bind h
    cases hmid
    obtain ⟨_, mid, hmid, h⟩ := ok_of_run_bind h
    obtain ⟨-, rfl⟩ := Prod.mk.inj (Except.ok.inj (hspan'.symm.trans hmid))
    cases h
    rfl

theorem eq_cons_of_expectSymbol {c : Char} {v : Unit} (h : expectSymbol c src ts = .ok (v, us)) :
    ∃ t, ts = t :: us ∧ t.token = .symbol c := by
  unfold expectSymbol at h
  rw [run_get_bind] at h
  cases ts with
  | nil => exact (eq_of_unexpected h).elim
  | cons t ts =>
    dsimp only at h
    split at h
    · next htoken =>
      cases h
      exact ⟨t, rfl, htoken⟩
    · exact (eq_of_unexpected h).elim

theorem behindEquals_skipToEquals {t : Located} (h : skipToEquals ts = t :: us)
    (ht : t.token = .symbol '=') :
    Token.behindEquals (ts.map (·.token)) = us.map (·.token) := by
  induction ts with
  | nil => cases h
  | cons first ts ih =>
    rw [skipToEquals] at h
    by_cases hfirst : first.token = .symbol '='
    · rw [if_pos (by simp [hfirst])] at h
      obtain ⟨rfl, rfl⟩ := List.cons.inj h
      simp [Token.behindEquals, hfirst]
    · split at h
      · obtain ⟨rfl, rfl⟩ := List.cons.inj h
        exact (hfirst ht).elim
      · rw [← ih h]
        simp [Token.behindEquals, hfirst]

/-- Behind the key of a property and its `=` stands the value. -/
theorem behindEquals_of_key {key : Text} {mid left : List Located} {v : Unit}
    (hkey : propertyKey src ts = .ok (key, mid)) (hequals : expectSymbol '=' src mid = .ok (v, left)) :
    left.map (·.token) = Token.behindEquals (ts.map (·.token)) := by
  obtain ⟨t, rfl, ht⟩ := eq_cons_of_expectSymbol hequals
  have hleft := left_of_propertyKey hkey
  split at hleft
  · next hliteral =>
    rw [literalFirst_map] at hliteral
    cases ts with
    | nil => cases hleft
    | cons first ts =>
      obtain rfl : t :: left = ts := hleft
      have hfirst : first.token ≠ .symbol '=' := by
        intro heq
        simp [heq, Token.string?] at hliteral
      simp [Token.behindEquals, hfirst, ht]
  · exact (behindEquals_skipToEquals hleft.symm ht).symm

theorem agree_reset {t u : Located} (h : SameTokens (t :: ts) (u :: us)) :
    Agree (Operation.Alike ((t :: ts).map (·.token))) (reset src (t :: ts))
      (reset src' (u :: us)) := by
  refine (parallel_advance h).bind fun _ _ mid mid' hmid hmid' _ hsame => ?_
  cases hmid
  cases hmid'
  rw [run_get_bind, run_get_bind, hsame.atEnd]
  split
  · exact .answers rfl hsame
  · refine (agree_lastValue hsame).bind fun key key' left left' _ _ hkey hleft => .answers ?_ hleft
    change Operation.reset _ = Operation.reset _
    split
    · next hliteral => rw [hkey hliteral]
    · rfl

theorem agree_set {t u : Located} (h : SameTokens (t :: ts) (u :: us)) :
    Agree (Operation.Alike ((t :: ts).map (·.token))) (set src (t :: ts))
      (set src' (u :: us)) := by
  refine (parallel_advance h).bind fun _ _ mid mid' hmid hmid' _ hsame => ?_
  cases hmid
  cases hmid'
  rw [run_get_bind, run_get_bind, hsame.atEnd]
  split
  · exact .answers rfl hsame
  refine (agree_propertyKey hsame).bind fun key key' mid mid' hkey _ hkeys hmid => ?_
  refine (parallel_expectSymbol '=' hmid).bind fun _ _ left left' hequals _ _ hleft => ?_
  have hbehind := behindEquals_of_key hkey hequals
  rw [run_get_bind, run_get_bind, hleft.atEnd]
  split
  · exact ((Parallel.unexpected (R := fun _ _ => False) _ _) hleft).bind
      fun _ _ _ _ _ _ hfalse => hfalse.elim
  · refine (agree_lastValue hleft).bind fun value value' rest rest' _ _ hvalues hrest =>
      .answers ?_ hrest
    rw [hbehind] at hvalues
    have hkey' : Token.literalFirst (ts.map (·.token)) → key = key' := hkeys
    change Operation.set _ _ = Operation.set _ _
    congr 1
    · split
      · next hliteral => rw [hkey' hliteral]
      · rfl
    · split
      · next hliteral => rw [hvalues hliteral]
      · rfl

/-! ## Whole statements -/

variable {inner inner' : Text → Except ParseError (Option Operation)}

theorem agree_rejectInnerTerminators (htokens : SameTokens src.tokens src'.tokens)
    (h : SameTokens ts us) :
    Agree Eq (rejectInnerTerminators src ts) (rejectInnerTerminators src' us) := by
  have hfind : ∀ {ts us : List Located}, SameTokens ts us →
      ((ts.find? (·.token == .symbol ';')).isSome = (us.find? (·.token == .symbol ';')).isSome) := by
    intro ts us hsame
    induction hsame with
    | nil => rfl
    | cons hfirst _ ih =>
      rw [List.find?_cons, List.find?_cons, hfirst]
      split
      · rfl
      · exact ih
  have hinit : SameTokens src.tokens.dropLast src'.tokens.dropLast := by
    rw [sameTokens_iff, List.map_dropLast, List.map_dropLast, sameTokens_iff.1 htokens]
  have hinner := hfind hinit
  rw [rejectInnerTerminators_apply, rejectInnerTerminators_apply, htokens.startsWith]
  split
  · exact .answers rfl h
  · cases hts : src.tokens.dropLast.find? (·.token == .symbol ';') with
    | none =>
      rw [hts] at hinner
      rw [Option.isSome_eq_false_iff.1 hinner.symm |> Option.isNone_iff_eq_none.1]
      exact .answers rfl h
    | some t =>
      rw [hts] at hinner
      obtain ⟨u, hu⟩ := Option.isSome_iff_exists.1 hinner.symm
      rw [hu]
      exact .faults _ _

/-- **All statements but blocks agree on their outline.** -/
theorem agree_ofOpening {t u : Located} (opening : Opening) (h : SameTokens (t :: ts) (u :: us))
    (hexecute : opening = .execute → Agree (Operation.Alike ((t :: ts).map (·.token)))
      (execute inner src (t :: ts)) (execute inner' src' (u :: us))) :
    Agree (Operation.Alike ((t :: ts).map (·.token))) (ofOpening inner opening src (t :: ts))
      (ofOpening inner' opening src' (u :: us)) := by
  generalize hks : (t :: ts).map (·.token) = ks at hexecute
  have hlift {α : Type} {R : α → α → Prop} {m : StatementParser α} {f : α → Operation}
      (hm : Parallel R m m) (hf : ∀ a b, R a b → Operation.Alike ks (f a) (f b)) :
      Agree (Operation.Alike ks) ((do return f (← m) : StatementParser Operation) src (t :: ts))
        ((do return f (← m) : StatementParser Operation) src' (u :: us)) :=
    (hm.bind fun a b hab => .result (hf a b hab)) h
  have hbody {f : Text → Operation} (hf : ∀ a b, Operation.Alike ks (f a) (f b)) :
      Parallel (Operation.Alike ks) (do return f (← read).body : StatementParser Operation)
        (do return f (← read).body) :=
    .read_bind fun _ _ => .result (hf _ _)
  have hsame {m : StatementParser Operation} (hm : Parallel Eq m m) :
      Agree (Operation.Alike ks) (m src (t :: ts)) (m src' (u :: us)) :=
    (hm h).imp fun _ _ heq => congrArg (Operation.outline ks) heq
  have hdefinition {d e : Definition} {f : Definition → Operation}
      (hf : ∀ d, (f d).outline ks = f d.outline) (hde : d.outline = e.outline) :
      Operation.Alike ks (f d) (f e) := by
    rw [Operation.Alike, hf, hf, hde]
  cases opening with
  | quit | clear | help | endSet => exact hsame (parallel_bareCommand _)
  | set =>
    rw [← hks]
    exact agree_set h
  | reset =>
    rw [← hks]
    exact agree_reset h
  | insert => exact hlift parallel_insert fun _ _ hmn => congrArg Operation.insert hmn
  | query => exact hbody (f := .query) (fun _ _ => rfl) h
  | passed => exact hbody (f := .other) (fun _ _ => rfl) h
  | explain => exact parallel_explain ks h
  | beginSet =>
    refine hsame (parallel_advance.bind_eq fun _ => ?_)
    exact (parallel_expectKeyword _).bind_eq fun _ => (parallel_expectKeyword _).bind_eq fun _ =>
      parallel_expectEnd.bind_eq fun _ => .result rfl
  | execute => exact hexecute rfl
  | addJar | removeJar => exact hsame (parallel_jarPath.bind_eq fun _ => .result rfl)
  | showing =>
    have hshowing : Parallel (Operation.Alike ks) (ofOpening inner .showing)
        (ofOpening inner' .showing) := by
      refine .get_bind fun ts us hleft => ?_
      rw [hleft.startsWith]
      refine .ite (fun _ _ _ _ hleft => ?_) (hbody (f := .other) fun _ _ => rfl)
      exact (parallel_showCreate hleft).imp fun _ _ heq => congrArg (Operation.outline ks) heq
    exact hshowing h
  | create => exact parallel_create ks h
  | drop => exact hlift (parallel_definition _ _) fun _ _ => hdefinition fun _ => rfl
  | alter => exact hlift (parallel_definition _ _) fun _ _ => hdefinition fun _ => rfl
  | use => exact parallel_use ks h
  | load => exact hsame (parallel_moduleName.bind_eq fun _ => .result rfl)
  | unload =>
    exact hsame (parallel_moduleName.bind_eq fun _ => parallel_expectEnd.bind_eq fun _ =>
      .result rfl)
  | stop => exact hsame parallel_stopJob

/-- Neither is there an operation, or both are alike. -/
abbrev Found (ks : List Token) : Option Operation → Option Operation → Prop :=
  Option.Rel (Operation.Alike ks)

theorem agree_firstWord {t u : Located} (h : SameTokens (t :: ts) (u :: us))
    (hexecute : ∀ w, t.token = .word w → Opening.ofWord? w = some .execute →
      Agree (Operation.Alike ((t :: ts).map (·.token))) (execute inner src (t :: ts))
        (execute inner' src' (u :: us))) :
    Agree (Found ((t :: ts).map (·.token))) (firstWord inner t src (t :: ts))
      (firstWord inner' u src' (u :: us)) := by
  have hfirst : t.token = u.token := (List.forall₂_cons.1 h).1
  have hunexpected : Agree (Found ((t :: ts).map (·.token)))
      ((StatementParser.unexpected "statement keyword" : StatementParser _) src (t :: ts))
      ((StatementParser.unexpected "statement keyword" : StatementParser _) src' (u :: us)) :=
    Parallel.unexpected _ _ h
  cases htoken : u.token with
  | word w =>
    rw [htoken] at hfirst
    cases hopening : Opening.ofWord? w with
    | some opening =>
      rw [firstWord_of_word hfirst hopening, firstWord_of_word htoken hopening]
      refine (agree_ofOpening opening h fun heq => ?_).bind fun _ _ _ _ _ _ hab hmid =>
        .answers (.some hab) hmid
      exact hexecute w hfirst (heq ▸ hopening)
    | none =>
      simp only [firstWord, hfirst, htoken, hopening]
      exact Parallel.fault _ _ h
  | symbol c =>
    rw [htoken] at hfirst
    by_cases hc : c = '('
    · subst hc
      simp only [firstWord, hfirst, htoken]
      exact .answers (.some rfl) h
    · rw [firstWord_of_symbol hc hfirst, firstWord_of_symbol hc htoken]
      exact hunexpected
  | quoted | string | number =>
    simp only [firstWord, hfirst, htoken]
    exact hunexpected

/-- Statements with the same tokens agree on their outline if they do so where they are blocks. -/
theorem agree_operation (h : SameTokens src.tokens src'.tokens)
    (hexecute : ∀ t ts w, src.tokens = t :: ts → t.token = .word w →
      Opening.ofWord? w = some .execute → Agree (Operation.Alike (src.tokens.map (·.token)))
        (execute inner src src.tokens) (execute inner' src' src'.tokens)) :
    Agree (Found (src.tokens.map (·.token))) (operation inner src src.tokens)
      (operation inner' src' src'.tokens) := by
  have hreject := agree_rejectInnerTerminators h h
  cases hend : atEnd src.tokens with
  | true =>
    have hend' : atEnd src'.tokens = true := h.atEnd ▸ hend
    rw [operation_of_atEnd _ _ hend, operation_of_atEnd _ _ hend']
    exact .answers .none h
  | false =>
    have hend' : atEnd src'.tokens = false := h.atEnd ▸ hend
    generalize hts : src.tokens = ts at h hend hreject hexecute ⊢
    generalize hus : src'.tokens = us at h hend' hreject hexecute ⊢
    cases h with
    | nil => cases hend
    | @cons t u ts us hfirst hrest =>
      have hall : SameTokens (t :: ts) (u :: us) := .cons hfirst hrest
      rw [operation_of_not_atEnd hend, operation_of_not_atEnd hend']
      refine hreject.bind fun _ _ mid mid' hmid hmid' _ _ => ?_
      obtain ⟨rfl, -⟩ := eq_of_rejectInnerTerminators hmid
      obtain ⟨rfl, -⟩ := eq_of_rejectInnerTerminators hmid'
      exact agree_firstWord hall fun w => hexecute t ts w rfl

end Statement

end SqlConsole
