import SqlConsole.Proofs.Statement.Faults
import SqlConsole.Proofs.Text.Range
/-!
# Parsing with everything checked

Three things could keep the parser from coming to an end in order (`Mishap`).  It takes parts of the
text between byte offsets, which have to be in range.  It skips to the `END` of a block with a
cursor that stays behind the last token, so it would skip for ever if the word were not there.  And
it parses the statements inside of a block by itself, which have to be shorter than the block.

`Checked.parse` reads statements as `Statement.parse` does, and gives up at the first mishap: each
step that takes a part of the text, skips or goes into a block is written down again with its check.
The steps that do none of that are taken as they are.  A checked step agrees with the step that it
stands for (`Agrees`) if it does the same without a mishap; steps are put together from steps, and
so are the proofs.
-/

namespace SqlConsole.Statement

/-- What would keep the parser from coming to an end in order. -/
inductive Mishap where
  /-- A part of the text is wanted between two offsets that are not in range. -/
  | outOfRange (start stop : Nat)
  /-- The end of a block is looked for behind the last token, again and again. -/
  | endless
  /-- A statement inside of a block is not shorter than the block. -/
  | notShorter (inner : Text)
  deriving DecidableEq, Repr

/-- A step of reading that gives up at a mishap. -/
abbrev CheckedParser := ReaderT Source (StateT (List Located) (ExceptT ParseError (Except Mishap)))

/-- A step in which there is nothing to check. -/
instance : MonadLift StatementParser CheckedParser where
  monadLift m := fun src ts => ExceptT.mk (.ok (m src ts))

/-- How texts are parsed with everything checked. -/
abbrev CheckedParse := Text → Except Mishap (Except ParseError (Option Operation))

namespace Checked

open StatementParser

def giveUp {α : Type} (what : Mishap) : CheckedParser α := fun _ _ => ExceptT.mk (.error what)

/-! ## Parts of the statement -/

/-- The part of the statement between two offsets in range, trimmed. -/
def textBetween (start stop : Nat) : CheckedParser Text := do
  let src ← read
  if Text.InRange src.text start (min stop src.bodyEnd) then return src.textBetween start stop
  else giveUp (.outOfRange start (min stop src.bodyEnd))

def body : CheckedParser Text := do textBetween 0 (← read).bodyEnd

def restText : CheckedParser Text := do
  let src ← read
  let start := (← here).start.offset
  textBetween (min start src.bodyEnd) src.bodyEnd

/-! ## The end of a block -/

/-- Whether the next token is the word `END` at an offset. -/
def isAtEnd (stop : Nat) : List Located → Bool
  | [] => false
  | t :: _ => t.token.isKeyword "END" && t.span.start.offset == stop

/-- The tokens from the end of a block on.  There are none where the end is not in front of the
cursor, and the loop to it would have no end. -/
def skipToEnd (stop : Nat) : List Located → Option (List Located)
  | [] => none
  | t :: ts => if isAtEnd stop (t :: ts) then some (t :: ts) else skipToEnd stop ts

/-! ## Statements -/

def propertyKey : CheckedParser Text := do
  match (← get).head?.bind (·.token.string?) with
  | some key => advance; return key
  | none =>
    let start := (← here).start.offset
    goto (skipToEquals (← get))
    textBetween start (← here).start.offset

def lastValue : CheckedParser Text := do
  match (← get).head?.bind (·.token.string?) with
  | some value => advance; expectEnd; return value
  | none => restText

def set : CheckedParser Operation := do
  advance
  if atEnd (← get) then return .set none none
  let key ← propertyKey
  expectSymbol '='
  if atEnd (← get) then unexpected "value"
  let value ← lastValue
  return .set (some (Text.trim key)) (some (Text.trim value))

def reset : CheckedParser Operation := do
  advance
  if atEnd (← get) then return .reset none
  let key ← lastValue
  return .reset (some (Text.trim key))

def insert : CheckedParser Modify := do
  let start := (← here).start.offset
  let heading ← insertHeading
  let src ← read
  return ⟨heading.1, heading.2, ← textBetween start src.bodyEnd⟩

def insertsOf (parse : CheckedParse) (place : Span) :
    List Text → ExceptT ParseError (Except Mishap) (List Modify)
  | [] => return []
  | s :: rest => do
    match ← ExceptT.mk (parse s) with
    | none => insertsOf parse place rest
    | some (.insert m) => return m :: (← insertsOf parse place rest)
    | some _ => throwThe ParseError ⟨.notAnInsert (Text.dropTerminators s), place⟩

def block (parse : CheckedParse) : CheckedParser Operation := do
  let src ← read
  let place ← here
  let start := place.start.offset
  match lastEnd? start src.tokens with
  | none => throwThe ParseError ⟨.endOfStatement "END", src.finish.span⟩
  | some stop =>
    let modifies ← insertsOf parse place (Script.split (← textBetween start stop))
    match skipToEnd stop (← get) with
    | some rest => goto rest
    | none => giveUp .endless
    advance
    expectEnd
    return .statementSet modifies

def execute (parse : CheckedParse) : CheckedParser Operation := do
  advance
  if ← eatKeywords ["STATEMENT", "SET", "BEGIN"] then block parse
  else if startsWith ["INSERT"] (← get) then return .insert (← insert)
  else unexpected "STATEMENT SET or INSERT"

def explain : CheckedParser Operation := do
  advance
  if !(← eatKeywords ["PLAN", "FOR"]) then goto (skipDetails false (← get))
  if atEnd (← get) then unexpected "statement to explain"
  return .explain (← restText)

def definition (verb : Text) (guard : List Text) : CheckedParser Definition := do
  expectKeyword verb
  let _ ← eatKeywords ["OR", "REPLACE"]
  let _ ← eatKeyword "TEMPORARY"
  let _ ← eatKeyword "SYSTEM"
  let object ← objectKind
  let guarded ← eatKeywords guard
  let name ← expectName
  return ⟨object, name, guarded, ← body⟩

def create : CheckedParser Operation := do
  let d ← definition "CREATE" ["IF", "NOT", "EXISTS"]
  if d.object = .table && hasQuery 0 (← get) then
    return .createTableAs ⟨.createTableAs, d.name, d.statement⟩
  return .create d

def use : CheckedParser Operation := do
  advance
  let target ← do
    if ← eatKeyword "CATALOG" then pure (.catalog (← expectIdentifier))
    else if ← eatKeyword "MODULES" then pure (.modules (← expectIdentifiers ','))
    else pure (.database (← expectName))
  expectEnd
  return .use target (← body)

def ofOpening (parse : CheckedParse) : Opening → CheckedParser Operation
  | .set => set
  | .reset => reset
  | .insert => return .insert (← insert)
  | .query => return .query (← body)
  | .explain => explain
  | .execute => execute parse
  | .showing => do
    if startsWith ["SHOW", "CREATE"] (← get) then showCreate else return .other (← body)
  | .create => create
  | .drop => return .drop (← definition "DROP" ["IF", "EXISTS"])
  | .alter => return .alter (← definition "ALTER" ["IF", "EXISTS"])
  | .use => use
  | .passed => return .other (← body)
  -- the others cut nothing out and parse nothing inside of them
  | opening => Statement.ofOpening (fun _ => .ok none) opening

def firstWord (parse : CheckedParse) (t : Located) : CheckedParser (Option Operation) :=
  match t.token with
  | .word w =>
    match Opening.ofWord? w with
    | some opening => return some (← ofOpening parse opening)
    | none => throwThe ParseError ⟨.unsupported w, t.span⟩
  | .symbol '(' => return some (.query (← body))
  | _ => liftM (unexpected "statement keyword" : StatementParser (Option Operation))

theorem firstWord_of_symbol {parse : CheckedParse} {t : Located} {c : Char} (hc : c ≠ '(')
    (htoken : t.token = .symbol c) :
    firstWord parse t =
      liftM (unexpected "statement keyword" : StatementParser (Option Operation)) := by
  unfold firstWord
  rw [htoken]
  split
  · next heq => cases heq
  · next heq => exact (hc (Token.symbol.inj heq)).elim
  · rfl

def operation (parse : CheckedParse) : CheckedParser (Option Operation) := do
  if atEnd (← get) then return none
  rejectInnerTerminators
  match (← get) with
  | [] => return none
  | t :: _ => firstWord parse t

/-- The operation that a text asks for, or the first mishap. -/
def parse (t : Text) : Except Mishap (Except ParseError (Option Operation)) :=
  match Source.ofText t with
  | .error e => .ok (.error e)
  | .ok src =>
    let inner s := if _h : s.length < t.length then parse s else .error (.notShorter s)
    ((operation inner).run src |>.run src.tokens).run.map (·.map Prod.fst)
termination_by t.length

/-- The checked parser of the statements inside of a statement. -/
def inside (t : Text) : CheckedParse := fun s =>
  if s.length < t.length then parse s else .error (.notShorter s)

theorem parse_eq (t : Text) : parse t =
    match Source.ofText t with
    | .error e => .ok (.error e)
    | .ok src => (operation (inside t) src src.tokens).run.map (·.map Prod.fst) := by
  rw [parse]
  rfl

end Checked

/-! ## Agreement -/

open StatementParser

variable {α β : Type} {src : Source} {ts us : List Located} {P : ParseError → Prop}

theorem checked_bind (c : CheckedParser α) (d : α → CheckedParser β) (src : Source)
    (ts : List Located) :
    (c >>= d) src ts =
      match c src ts with
      | .ok (.ok (a, us)) => d a src us
      | .ok (.error e) => .ok (.error e)
      | .error what => .error what := by
  show (c src ts >>= fun p => d p.1 src p.2) = _
  rcases c src ts with _ | _ | _ <;> rfl

theorem lift_apply (m : StatementParser α) (src : Source) (ts : List Located) :
    (liftM m : CheckedParser α) src ts = .ok (m src ts) := rfl

/-- From some tokens on, a checked step does what a step does, which leaves tokens from the end of
the statement. -/
structure AgreesAt (src : Source) (ts : List Located) (c : CheckedParser α)
    (m : StatementParser α) : Prop where
  same : c src ts = .ok (m src ts)
  suffix : ∀ a us, m src ts = .ok (a, us) → us <:+ src.tokens

/-- A checked step does what a step does, wherever in the statement it begins. -/
def Agrees (src : Source) (c : CheckedParser α) (m : StatementParser α) : Prop :=
  ∀ ⦃ts : List Located⦄, ts <:+ src.tokens → AgreesAt src ts c m

namespace AgreesAt

variable {c c' : CheckedParser α} {m m' : StatementParser α} {d : α → CheckedParser β}
  {f : α → StatementParser β}

theorem bind (hm : AgreesAt src ts c m)
    (hf : ∀ a us, us <:+ src.tokens → m src ts = .ok (a, us) → AgreesAt src us (d a) (f a)) :
    AgreesAt src ts (c >>= d) (m >>= f) := by
  cases hfirst : m src ts with
  | error e =>
    refine ⟨?_, fun b us hb => ?_⟩
    · rw [checked_bind, hm.same, run_bind, hfirst]
    · rw [run_bind, hfirst] at hb
      cases hb
  | ok found =>
    obtain ⟨a, us⟩ := found
    have hrest := hf a us (hm.suffix a us hfirst) hfirst
    refine ⟨?_, fun b vs hb => hrest.suffix b vs ?_⟩
    · rw [checked_bind, hm.same, hfirst, run_bind, hfirst]
      exact hrest.same
    · rwa [run_bind, hfirst] at hb

theorem ite {p : Prop} [Decidable p] (hc : p → AgreesAt src ts c m)
    (hd : ¬ p → AgreesAt src ts c' m') :
    AgreesAt src ts (if p then c else c') (if p then m else m') := by
  split
  · next h => exact hc h
  · next h => exact hd h

theorem get_bind {d : List Located → CheckedParser β} {f : List Located → StatementParser β}
    (h : AgreesAt src ts (d ts) (f ts)) : AgreesAt src ts (get >>= d) (get >>= f) :=
  ⟨h.same, h.suffix⟩

theorem here_bind {d : Span → CheckedParser β} {f : Span → StatementParser β}
    (h : AgreesAt src ts (d (src.place ts)) (f (src.place ts))) :
    AgreesAt src ts (liftM here >>= d) (here >>= f) := by
  refine ⟨?_, fun a us ha => h.suffix a us ?_⟩
  · rw [run_bind_ok (here_apply src ts), ← h.same, checked_bind, lift_apply, here_apply]
  · rwa [run_bind_ok (here_apply src ts)] at ha

theorem goto_bind {d : Unit → CheckedParser β} {f : Unit → StatementParser β}
    (h : AgreesAt src us (d ()) (f ())) : AgreesAt src ts (liftM (goto us) >>= d) (goto us >>= f) :=
  ⟨h.same, h.suffix⟩

theorem read_bind {d : Source → CheckedParser β} {f : Source → StatementParser β}
    (h : AgreesAt src ts (d src) (f src)) : AgreesAt src ts (read >>= d) (read >>= f) :=
  ⟨h.same, h.suffix⟩

/-- Only one of the two steps looks at the statement. -/
theorem of_read {f : Source → StatementParser α} (h : AgreesAt src ts c (f src)) :
    AgreesAt src ts c (read >>= f) :=
  ⟨h.same, h.suffix⟩

/-- A result that was found apart from the tokens. -/
theorem found_bind {found : Except ParseError α}
    (hf : ∀ a, found = .ok a → AgreesAt src ts (d a) (f a)) :
    AgreesAt src ts
      (liftM (ExceptT.mk (.ok found) : ExceptT ParseError (Except Mishap) α) >>= d)
      (liftM found >>= f) := by
  cases found with
  | error e => exact ⟨rfl, fun a us ha => by cases ha⟩
  | ok a => exact ⟨(hf a rfl).same, (hf a rfl).suffix⟩

end AgreesAt

namespace Agrees

variable {c c' : CheckedParser α} {m m' : StatementParser α} {d : α → CheckedParser β}
  {f : α → StatementParser β}

theorem result (a : α) : Agrees src (pure a) (pure a) := by
  intro ts hts
  refine ⟨rfl, fun b us hb => ?_⟩
  cases hb
  exact hts

theorem fault (e : ParseError) :
    Agrees src (throwThe ParseError e : CheckedParser α) (throw e) := by
  intro ts _
  refine ⟨rfl, fun b us hb => ?_⟩
  cases hb

/-- A step in which there is nothing to check. -/
theorem lift (h : Blames P src m) : Agrees src (liftM m) m := by
  intro ts hts
  refine ⟨rfl, fun a us ha => ?_⟩
  have htold := h hts
  rw [ha] at htold
  cases htold with
  | answer _ hus => exact hus

theorem bind (hm : Agrees src c m) (hf : ∀ a, Agrees src (d a) (f a)) :
    Agrees src (c >>= d) (m >>= f) :=
  fun _ hts => (hm hts).bind fun a _ hus _ => hf a hus

theorem get_bind {d : List Located → CheckedParser β} {f : List Located → StatementParser β}
    (h : ∀ ts, ts <:+ src.tokens → Agrees src (d ts) (f ts)) :
    Agrees src (get >>= d) (get >>= f) :=
  fun ts hts => .get_bind (h ts hts hts)

theorem read_bind {d : Source → CheckedParser β} {f : Source → StatementParser β}
    (h : Agrees src (d src) (f src)) : Agrees src (read >>= d) (read >>= f) :=
  fun _ hts => .read_bind (h hts)

theorem ite {p : Prop} [Decidable p] (hc : Agrees src c m) (hd : Agrees src c' m') :
    Agrees src (if p then c else c') (if p then m else m') :=
  fun _ hts => .ite (fun _ => hc hts) fun _ => hd hts

/-- What follows where something is left. -/
theorem unlessAtEnd {what : Text} (h : Agrees src c m) :
    Agrees src
      (get >>= fun ts => if atEnd ts then liftM (unexpected what) >>= fun (_ : Unit) => c else c)
      (get >>= fun ts => if atEnd ts then unexpected what >>= fun (_ : Unit) => m else m) :=
  .get_bind fun _ _ => .ite ((lift (Blames.unexpected (α := Unit) what)).bind fun _ => h) h

end Agrees

end SqlConsole.Statement
