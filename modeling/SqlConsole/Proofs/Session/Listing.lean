import SqlConsole.Proofs.Gateway.Settled
import SqlConsole.Proofs.Session.Batches
import SqlConsole.Proofs.Session.Terms
import SqlConsole.Proofs.Statement.Setting
/-!
# The list of properties can be replayed

Setting and resetting properties keeps them settled, whatever is set and whether it is accepted
(`dispatchAll_settling`).  So each entry that `SET` lists is a statement that sets the property to
what it is (`Statement.parse_assignment`), and all of them together make another session agree with
the listed one (`replay_settled`).  `Replayable` says so of a session, and `replayable_dispatchAll`
shows it of every session that has set and reset properties only.
-/

namespace SqlConsole.Session

open Statement

/-! ## Setting and resetting -/

/-- The terms of setting and resetting properties: the defaults stay, settled properties stay
settled, and the statement set stays as it is. -/
def settling : Terms Local where
  event _ := True
  gateway g d := d.defaults = g.defaults ∧ (g.overrides.Settled → d.overrides.Settled)
  set := Eq
  stop _ := True

theorem settling_sound : settling.Sound where
  console := ⟨trivial, fun _ => trivial, trivial, fun _ _ => trivial⟩
  dispatched _ := trivial
  gateway := ⟨fun _ => ⟨rfl, id⟩, fun h h' => ⟨h'.1.trans h.1, h'.2 ∘ h.2⟩⟩
  set := ⟨fun _ => rfl, Eq.trans⟩
  denied _ := trivial
  statementSet _ := trivial

theorem settling_grants {r : Request} (hr : r.IsSetting) : settling.Grants r where
  asked := trivial
  gateway token g i := Local.settled_handle hr token g i
  reply _ _ _ _ _ := .inl fun _ => trivial
  crash _ _ := trivial

theorem eq_of_kind {op : Operation} (h : op.kind = .set ∨ op.kind = .reset) :
    (∃ key value, op = .set key value) ∨ ∃ key, op = .reset key := by
  cases op with
  | set key value => exact .inl ⟨key, value, rfl⟩
  | reset key => exact .inr ⟨key, rfl⟩
  | _ => rcases h with h | h <;> cases h

/-- Keys and values are trimmed before the gateway sees them. -/
theorem isSetting_of_asks {op : Operation} (hop : op.kind = .set ∨ op.kind = .reset) {r : Request}
    (h : op.Asks r) : r.IsSetting := by
  obtain ⟨key, value, rfl⟩ | ⟨key, rfl⟩ := eq_of_kind hop
  · -- Without a key or a value the properties are listed, and nothing is asked.
    rcases key with _ | key <;> rcases value with _ | value
    all_goals cases h
    exact ⟨Text.trim_trim key, Text.trim_trim value⟩
  · cases key <;> cases h <;> trivial

theorem dispatch_settling {op : Operation} (hop : op.kind = .set ∨ op.kind = .reset)
    (token : CancelToken) (s : Session Local) : settling.Within s (dispatch op token s).2 := by
  have hplain : op.isPlain := by
    obtain ⟨key, value, rfl⟩ | ⟨key, rfl⟩ := eq_of_kind hop <;> rfl
  refine (dispatch_within settling_sound op token s fun _ => ?_).1
  exact meets_perform_of_isPlain settling_sound hplain
    (fun r hr => settling_grants (isSetting_of_asks hop hr))
    (fun _ => ⟨fun _ => trivial, trivial⟩) token

/-- Whatever is set or reset, in whatever order, what is settled stays so. -/
theorem dispatchAll_settling {steps : List (Operation × CancelToken)}
    (hsteps : ∀ step ∈ steps, step.1.kind = .set ∨ step.1.kind = .reset) (s : Session Local) :
    settling.Within s (dispatchAll steps s) := by
  induction steps generalizing s with
  | nil => exact settling_sound.leads.refl s
  | cons step steps ih =>
    have hfirst := dispatch_settling (hsteps step List.mem_cons_self) step.2 s
    have hrest := ih (fun u hu => hsteps u (List.mem_cons_of_mem step hu)) (dispatch step.1 step.2 s).2
    exact settling_sound.leads.trans hfirst hrest

/-! ## Listing -/

section

variable {σ φ α : Type}

theorem writeLine_of_room {s : Session σ} (h : s.console.sink.room = none) (t : Text) :
    writeLine t s = (.ok (), { s with console := { s.console with
      sink := ⟨s.console.sink.written ++ (t ++ ['\n']), none⟩ } }) := by
  have hwrite : Console.writeLine t s.console = (.ok (), { s.console with
      sink := ⟨s.console.sink.written ++ (t ++ ['\n']), none⟩ }) := by
    rw [Console.writeLine, Console.write_apply, Console.put_of_room h]
    rfl
  rw [writeLine, atConsole, hwrite]

/-- Lines are written one behind the other. -/
theorem forM_writeLine (f : α → Text) (as : List α) {s : Session σ}
    (h : s.console.sink.room = none) :
    (as.forM fun a => writeLine (f a)) s = (.ok (), { s with console := { s.console with
      sink := ⟨s.console.sink.written ++ as.flatMap fun a => f a ++ ['\n'], none⟩ } }) := by
  induction as generalizing s with
  | nil =>
    obtain ⟨_, ⟨⟨written, _⟩, _, _, _, _, _⟩, _⟩ := s
    cases h
    rw [List.flatMap_nil, List.append_nil]
    rfl
  | cons a as ih =>
    have hline := writeLine_of_room h (f a)
    have hok : (writeLine (f a) s).1 = .ok () := by rw [hline]
    change (writeLine (f a) >>= fun _ => as.forM fun a => writeLine (f a)) s = _
    rw [run_bind_ok hok, hline, ih rfl, List.flatMap_cons, List.append_assoc]

/-- Where no statement set is open, properties may be listed and set in every mode. -/
theorem admits_set [Gateway.Over σ φ] {s : Session σ} (hclosed : s.statementSet = .closed)
    (key value : Option Text) : admits (.set key value) s = .ok () := by
  unfold admits Guard.check Guard.checkMode
  rw [hclosed]
  cases s.mode <;> rfl

variable [ResultSource φ] [Gateway.Over σ φ]

omit [ResultSource φ] in
theorem listProperties_apply {s : Session σ} (h : s.console.sink.room = none)
    (hsome : s.properties.isEmpty = false) :
    listProperties s = (.ok (), { s with console := { s.console with
      sink := ⟨s.console.sink.written ++
        s.properties.toList.flatMap fun e => propertyEntry e.1 e.2 ++ ['\n'], none⟩ } }) := by
  change (if s.properties.isEmpty then _
    else s.properties.toList.forM fun e => writeLine (propertyEntry e.1 e.2) : SessionM σ Unit) s = _
  rw [hsome, if_neg Bool.false_ne_true]
  exact forM_writeLine (fun e : Text × Text => propertyEntry e.1 e.2) s.properties.toList h

/-- `SET` lists the properties one behind the other. -/
theorem dispatch_list {s : Session σ} (hclosed : s.statementSet = .closed)
    (h : s.console.sink.room = none) (hsome : s.properties.isEmpty = false) (token : CancelToken) :
    (dispatch (.set none none) token s).1 = .ok () ∧
      (dispatch (.set none none) token s).2.console.sink.written = s.console.sink.written ++
        s.properties.toList.flatMap fun e => propertyEntry e.1 e.2 ++ ['\n'] := by
  have hlisted := listProperties_apply
    (s := { s with console := s.console.note (.dispatched (.set none none)) }) h hsome
  rw [dispatch_apply, admits_set hclosed]
  dsimp only [perform]
  rw [hlisted]
  exact ⟨rfl, rfl⟩

end

/-! ## Replaying -/

section

variable {key value : Text} {s : Session Local}

/-- A settled property that is set has its value then, and nothing else is different. -/
theorem setProperty_apply (hsettled : Property.Settled key value) (token : CancelToken) :
    setProperty key value token s = inform Message.propertySet { s with
      gateway := { s.gateway with overrides := s.gateway.overrides.insert key value }
      console := s.console.note (.asked (.setProperty key value)) } := by
  have hask (attempt : Text) : ask (.setProperty key value) token attempt s = (.ok (), { s with
      gateway := { s.gateway with overrides := s.gateway.overrides.insert key value }
      console := s.console.note (.asked (.setProperty key value)) }) := by
    have hhandle : Gateway.handle (.setProperty key value) token s.gateway
        s.console.interrupts = _ :=
      Local.handle_setProperty_of_accepted hsettled.accepted token _ _
    unfold ask
    rw [hhandle]
    rfl
  unfold setProperty
  dsimp only
  rw [hsettled.key_trimmed, hsettled.value_trimmed]
  exact (run_bind_ok (congrArg Prod.fst (hask _))).trans (by rw [hask])

theorem dispatch_setProperty (hsettled : Property.Settled key value)
    (hclosed : s.statementSet = .closed) (token : CancelToken) :
    (dispatch (.set (some key) (some value)) token s).2.gateway =
        { s.gateway with overrides := s.gateway.overrides.insert key value } ∧
      (dispatch (.set (some key) (some value)) token s).2.statementSet = .closed ∧
      (s.console.sink.room = none →
        (dispatch (.set (some key) (some value)) token s).1 = .ok ()) := by
  rw [dispatch_apply, admits_set hclosed]
  dsimp only [perform]
  rw [setProperty_apply hsettled]
  refine ⟨rfl, hclosed, fun h => inform_of_room ?_ _⟩
  exact h

end

/-- Operations that all succeed, one behind the other. -/
def Succeed {σ φ : Type} [ResultSource φ] [Gateway.Over σ φ] :
    List (Operation × CancelToken) → Session σ → Prop
  | [], _ => True
  | (op, token) :: steps, s =>
    (dispatch op token s).1 = .ok () ∧ Succeed steps (dispatch op token s).2

/-- The operation that sets a listed property. -/
def replaying (entry : Text × Text) : Operation := .set (some entry.1) (some entry.2)

/-- **Settled properties are set one behind the other**, whatever the session was like before. -/
theorem replay_settled {entries : List (Text × Text)}
    (hsettled : ∀ e ∈ entries, Property.Settled e.1 e.2) {steps : List (Operation × CancelToken)}
    (hsteps : steps.map (·.1) = entries.map replaying) {s : Session Local}
    (hclosed : s.statementSet = .closed) :
    (dispatchAll steps s).gateway =
        { s.gateway with overrides := s.gateway.overrides.insertMany entries } ∧
      (s.console.sink.room = none → Succeed steps s) := by
  -- Each entry is inserted into what the entries before it left; the statement set stays closed, so
  -- the guard admits them all.
  induction entries generalizing steps s with
  | nil =>
    obtain rfl := List.map_eq_nil_iff.1 hsteps
    exact ⟨by rw [Std.TreeMap.insertMany_nil]; rfl, fun _ => trivial⟩
  | cons entry entries ih =>
    obtain ⟨⟨op, token⟩, rest, rfl, rfl, hrest⟩ := List.map_eq_cons_iff.1 hsteps
    obtain ⟨hgateway, hclosed', hok⟩ :=
      dispatch_setProperty (hsettled entry List.mem_cons_self) hclosed token
    obtain ⟨hreplayed, hsucceed⟩ :=
      ih (fun e he => hsettled e (List.mem_cons_of_mem entry he)) hrest hclosed'
    refine ⟨?_, fun h => ⟨hok h, hsucceed (dispatch_room h _ token).1⟩⟩
    change (dispatchAll rest _).gateway = _
    rw [Std.TreeMap.insertMany_cons]
    exact hreplayed.trans (by rw [hgateway])

/-- What the list of the properties of a session is good for. -/
structure Replayable (s : Session Local) (entries : List (Text × Text)) : Prop where
  /-- The entries are the effective properties. -/
  mem_iff : ∀ key value, (key, value) ∈ entries ↔ s.properties[key]? = some value
  /-- They are in the order of their keys. -/
  sorted : entries.Pairwise fun a b => a.1 < b.1
  /-- Whatever order the properties come in, no other list of them is in that order. -/
  unique : ∀ others : List (Text × Text), (others.Pairwise fun a b => a.1 < b.1) →
    (∀ key value, (key, value) ∈ others ↔ s.properties[key]? = some value) → others = entries
  /-- `SET` prints one line for each entry. -/
  printed : s.console.sink.room = none → ∀ token, (dispatch (.set none none) token s).1 = .ok () ∧
    (dispatch (.set none none) token s).2.console.sink.written =
      s.console.sink.written ++ entries.flatMap fun e => propertyEntry e.1 e.2 ++ ['\n']
  /-- What is printed is read back as the statement that sets the property. -/
  read : ∀ key value, (key, value) ∈ entries →
    Script.split (assignment key value) = [assignment key value] ∧
      Statement.parse (assignment key value) = .ok (some (.set (some key) (some value)))
  /-- In any other session without an open statement set, the statements together succeed, and each
  listed property is effective behind them. -/
  replayed : ∀ (other : Session Local) (steps : List (Operation × CancelToken)),
    other.statementSet = .closed → steps.map (·.1) = entries.map replaying →
    (other.console.sink.room = none → Succeed steps other) ∧
      ∀ key value, (key, value) ∈ entries →
        (dispatchAll steps other).properties[key]? = some value

theorem replayable_of_settled {s : Session Local} (hclosed : s.statementSet = .closed)
    (hsettled : s.properties.Settled) (hsome : s.properties.isEmpty = false) :
    Replayable s s.properties.toList := by
  have hmem (key value : Text) :
      (key, value) ∈ s.properties.toList ↔ s.properties[key]? = some value :=
    Std.TreeMap.mem_toList_iff_getElem?_eq_some
  have hentries (key value : Text) (h : (key, value) ∈ s.properties.toList) :
      Property.Settled key value := hsettled key value ((hmem key value).1 h)
  have hsorted := Properties.sorted_toList s.properties
  refine ⟨hmem, hsorted, fun others hothers hsame => ?_, fun h => dispatch_list hclosed h hsome,
    fun key value h => ⟨split_assignment key value, ?_⟩, fun other steps hclosed' hsteps => ?_⟩
  · refine Properties.eq_of_sorted hothers hsorted fun e => ?_
    exact (hsame e.1 e.2).trans (hmem e.1 e.2).symm
  · have hproperty := hentries key value h
    rw [parse_assignment, hproperty.key_trimmed, hproperty.value_trimmed]
  · obtain ⟨hgateway, hsucceed⟩ := replay_settled (fun e he => hentries e.1 e.2 he) hsteps hclosed'
    refine ⟨hsucceed, fun key value h => ?_⟩
    change (dispatchAll steps other).gateway.properties[key]? = _
    rw [hgateway]
    exact Local.properties_insertMany hsorted h other.gateway

/-- **The list of properties can be replayed.**  Where the defaults are settled, whatever is set and
reset, and whether it succeeds or not: what `SET` lists are the effective properties, and the
statements made of the list give them to any other session. -/
theorem replayable_dispatchAll {defaults : Properties} (hdefaults : defaults.Settled)
    (savepointDir : Text) (ids : JobIds) (console : Console) (mode : Mode)
    {steps : List (Operation × CancelToken)}
    (hsteps : ∀ step ∈ steps, step.1.kind = .set ∨ step.1.kind = .reset) :
    let s := dispatchAll steps (start (Local.ofDefaults defaults savepointDir ids) console mode)
    Replayable s s.properties.toList := by
  intro s
  have hwithin : settling.Within _ s := dispatchAll_settling hsteps _
  obtain ⟨hkept, hoverrides⟩ := hwithin.gateway
  refine replayable_of_settled hwithin.set.symm ?_ (Local.isEmpty_properties hkept)
  refine Local.settled_properties ?_ (hoverrides .empty)
  rw [hkept]
  exact Local.settled_builtinDefaults.union hdefaults

/-- Defaults with signs in their key and value. -/
def signedDefaults : Properties :=
  (∅ : Properties).insert "it's -- a key;" "= /* ''\n;"

theorem settled_signedDefaults : signedDefaults.Settled :=
  Properties.Settled.empty.insert ⟨by decide +kernel, by decide +kernel, rfl⟩

/-- A property with blanks around it, one that is refused, and one that was never set. -/
theorem replayable_signedDefaults :
    let steps : List (Operation × CancelToken) := [
      (.set (some " table.dml-sync") (some "true\n"), 0),
      (.set (some "sql-client.verbose") (some "maybe"), 1), (.reset (some "it's"), 2)]
    let s := dispatchAll steps (start (Local.ofDefaults signedDefaults Local.defaultSavepointDir {})
      (.ofSink .unlimited false .transcript) .interactive)
    signedDefaults.Settled ∧ (∀ step ∈ steps, step.1.kind = .set ∨ step.1.kind = .reset) ∧
      Replayable s s.properties.toList :=
  ⟨settled_signedDefaults, by decide,
    replayable_dispatchAll settled_signedDefaults _ _ _ _ (by decide)⟩

end SqlConsole.Session
