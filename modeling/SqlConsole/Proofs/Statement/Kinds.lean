import SqlConsole.Proofs.Statement.Steps
/-!
# What a first word leads to

The first word of a statement leaves few kinds of operation open (`Opening.kinds`): whatever follows
the word, an operation that is found is of one of them (`kind_of_ofOpening`).
-/

namespace SqlConsole.Statement

open StatementParser

variable {src : Source} {ts us : List Located}

/-- The kinds of operation that statements with this first word ask for. -/
def Opening.kinds : Opening → List Operation.Kind
  | .quit => [.quit]
  | .clear => [.clear]
  | .help => [.help]
  | .set => [.set]
  | .reset => [.reset]
  | .insert => [.insert]
  | .query => [.query]
  | .explain => [.explain]
  | .beginSet => [.beginStatementSet]
  | .endSet => [.endStatementSet]
  | .execute => [.insert, .statementSet]
  | .addJar => [.addJar]
  | .removeJar => [.removeJar]
  | .showing => [.showCreateTable, .showCreateView, .other]
  | .create => [.create, .createTableAs]
  | .drop => [.drop]
  | .alter => [.alter]
  | .use => [.use]
  | .load => [.loadModule]
  | .unload => [.unloadModule]
  | .stop => [.stopJob]
  | .passed => [.other]

/-- An operation of one of some kinds. -/
def OfKind (kinds : List Operation.Kind) (op : Operation) : Prop := op.kind ∈ kinds

theorem yields_bareCommand {kinds : List Operation.Kind} {op : Operation} (h : OfKind kinds op) :
    Yields src (OfKind kinds) (bareCommand op) :=
  .bind fun _ => .bind fun _ => .result h

theorem yields_set : Yields src (OfKind [.set]) set := by
  have hvalue (key : Text) : Yields src (OfKind [.set]) (do
      let value ← lastValue
      return .set (some (Text.trim key)) (some (Text.trim value))) :=
    .bind fun _ => .result (.head _)
  refine .bind fun _ => .bind fun _ => .ite (.result (.head _)) ?_
  exact .bind fun key => .bind fun _ => .bind fun _ => .ite (.bind fun _ => hvalue key) (hvalue key)

theorem yields_reset : Yields src (OfKind [.reset]) reset :=
  .bind fun _ => .bind fun _ => .ite (.result (.head _)) (.bind fun _ => .result (.head _))

theorem yields_explain : Yields src (OfKind [.explain]) explain := by
  have hrest : Yields src (OfKind [.explain]) (do return .explain (← restText)) :=
    .bind fun _ => .result (.head _)
  have hstatement : Yields src (OfKind [.explain]) (do
      if atEnd (← get) then unexpected "statement to explain"
      return .explain (← restText)) :=
    .bind fun _ => .ite (.bind fun _ => hrest) hrest
  refine .bind fun _ => .bind fun _ => .ite (.bind fun _ => .bind fun _ => hstatement) hstatement

theorem yields_block (inner : Text → Except ParseError (Option Operation)) :
    Yields src (OfKind [.statementSet]) (block inner) := by
  refine .bind fun src => .bind fun place => ?_
  dsimp only
  split
  · exact .fault _
  · exact .bind fun _ => .bind fun _ => .bind fun _ => .bind fun _ => .bind fun _ =>
      .result (.head _)

theorem yields_execute (inner : Text → Except ParseError (Option Operation)) :
    Yields src (OfKind [.insert, .statementSet]) (execute inner) := by
  refine .bind fun _ => .bind fun _ => .ite ?_ (.bind fun _ => .ite ?_ (.unexpected _))
  · exact (yields_block inner).imp fun _ h => List.mem_cons_of_mem _ h
  · exact .bind fun _ => .result (.head _)

theorem yields_showCreate : Yields src (OfKind [.showCreateTable, .showCreateView]) showCreate := by
  have hend (op : Operation) (h : OfKind [.showCreateTable, .showCreateView] op) :
      Yields src (OfKind [.showCreateTable, .showCreateView]) (do expectEnd; return op) :=
    .bind fun _ => .result h
  refine .bind fun _ => .bind fun _ => .bind fun _ => .ite (.bind fun _ => ?_) ?_
  · exact .seq (.result (.head _)) hend
  · refine .bind fun _ => .ite (.bind fun _ => ?_) ?_
    · exact .seq (.result (.tail _ (.head _))) hend
    · exact .seq (.unexpected "TABLE or VIEW") hend

theorem yields_create : Yields src (OfKind [.create, .createTableAs]) create :=
  .bind fun _ => .bind fun _ => .ite (.result (.tail _ (.head _))) (.result (.head _))

theorem yields_use : Yields src (OfKind [.use]) use := by
  have hend (target : UseTarget) : Yields src (OfKind [.use]) (do
      expectEnd
      return .use target (← read).body) :=
    .bind fun _ => .bind fun _ => .result (.head _)
  refine .bind fun _ => .bind fun _ => .ite (.bind fun _ => .bind hend) (.bind fun _ => ?_)
  exact .ite (.bind fun _ => .bind hend) (.bind fun _ => .bind hend)

theorem yields_stopJob : Yields src (OfKind [.stopJob]) stopJob := by
  refine .bind fun _ => .bind fun _ => .bind fun job => .bind fun left => ?_
  split
  · exact .bind fun _ => .unexpected "SAVEPOINT or DRAIN"
  · exact .bind fun _ => .bind fun _ => .result (.head _)

theorem yields_ofOpening (inner : Text → Except ParseError (Option Operation))
    (opening : Opening) : Yields src (OfKind opening.kinds) (ofOpening inner opening) := by
  cases opening with
  | quit | clear | help | endSet => exact yields_bareCommand (.head _)
  | set => exact yields_set
  | reset => exact yields_reset
  | insert | query | passed | addJar | removeJar | drop | alter | load =>
    exact .bind fun _ => .result (.head _)
  | explain => exact yields_explain
  | beginSet =>
    exact .bind fun _ => .bind fun _ => .bind fun _ => .bind fun _ => .result (.head _)
  | execute => exact yields_execute inner
  | showing =>
    refine .bind fun _ => .ite ?_ (.bind fun _ => .result (.tail _ (.tail _ (.head _))))
    exact yields_showCreate.imp fun _ h => List.mem_append_left [Operation.Kind.other] h
  | create => exact yields_create
  | use => exact yields_use
  | unload => exact .bind fun _ => .bind fun _ => .result (.head _)
  | stop => exact yields_stopJob

/-- The first word of a statement tells what kinds of operation it can ask for. -/
theorem kind_of_ofOpening {inner : Text → Except ParseError (Option Operation)} {opening : Opening}
    {op : Operation} (h : ofOpening inner opening src ts = .ok (op, us)) :
    op.kind ∈ opening.kinds :=
  yields_ofOpening inner opening ts op us h

end SqlConsole.Statement
