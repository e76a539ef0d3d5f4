import SqlConsole.Proofs.Session.Stable
/-!
# The steps that operations are made of

Whatever an operation does, it is put together from a few steps: a text is written, the gateway is
asked, a result is shown, a statement set is put in the place of another, the session is told to
end (`Built`).  So what each step keeps, every operation keeps, by one induction over how it is put
together (`built_perform`).
-/

namespace SqlConsole.Session

variable {σ φ α β : Type} [ResultSource φ] [Gateway.Over σ φ]

/-- Programs that are put together from the steps of a session, for the statement with a token.  A
result is shown only where a query has just been answered with it. -/
inductive Built (token : CancelToken) : {α : Type} → SessionM σ α → Prop
  | pure {α : Type} (a : α) : Built token (Pure.pure a)
  | throw {α : Type} (stop : Stop) : Built token (MonadExcept.throw stop : SessionM σ α)
  | write (t : Text) : Built token (atConsole (Console.write t))
  | put (statementSet : StatementSet) : Built token (putStatementSet statementSet)
  | halt : Built token (modify fun s => { s with running := false })
  | ask (r : Request) (attempt : Text) : Built token (ask r token attempt)
  | showing {α : Type} (statement attempt : Text) {f : ResultMode → SessionM σ α}
    (hf : ∀ mode, Built token (f mode)) :
    Built token (Session.ask (.query statement) token attempt >>= fun (d : Descriptor φ) =>
      atConsole (View.present d.mode d token) >>= fun _ => f d.mode)
  | read {α : Type} {f : Session σ → SessionM σ α} (hf : ∀ s, Built token (f s)) :
    Built token (get >>= f)
  | bind {α β : Type} {m : SessionM σ α} {f : α → SessionM σ β} (hm : Built token m)
    (hf : ∀ a, Built token (f a)) : Built token (m >>= f)

omit [ResultSource φ] [Gateway.Over σ φ] in
/-- Steps at the console are steps of the session. -/
theorem atConsole_bind (m : ConsoleM α) (f : α → ConsoleM β) :
    atConsole (σ := σ) (m >>= f) = atConsole m >>= fun a => atConsole (f a) := by
  funext s
  rw [Respects.run_bind, atConsole, Respects.run_bind, atConsole]
  rcases m s.console with ⟨_ | _, _⟩ <;> rfl

namespace Built

variable {token : CancelToken} {m n : SessionM σ α}

theorem ite {p : Prop} [Decidable p] (hm : Built token m) (hn : Built token n) :
    Built token (if p then m else n) := by
  by_cases hp : p
  · rwa [if_pos hp]
  · rwa [if_neg hp]

theorem forM {f : β → SessionM σ PUnit} (hf : ∀ b, Built token (f b)) (bs : List β) :
    Built token (bs.forM f) := by
  induction bs with
  | nil => exact .pure _
  | cons b bs ih => exact (hf b).bind fun _ => ih

theorem writeLine (t : Text) : Built token (writeLine (σ := σ) t) := .write _

theorem inform (message : Text) : Built token (inform (σ := σ) message) :=
  .read fun _ => .write _

theorem draw (line : Except Crash Text) : Built token (atConsole (σ := σ) (Console.draw line)) := by
  cases line with
  | ok t => exact .write _
  | error why => exact .throw (.crash why)

theorem drawAll (lines : List (Except Crash Text)) :
    Built token (atConsole (σ := σ) (lines.forM Console.draw)) := by
  induction lines with
  | nil => exact .pure ()
  | cons line lines ih =>
    have hlines : (line :: lines).forM Console.draw =
      Console.draw line >>= fun _ => lines.forM Console.draw := rfl
    rw [hlines, atConsole_bind]
    exact (draw line).bind fun _ => ih

theorem clear : Built token (atConsole (σ := σ) Console.clear) := by
  have hclear : Console.clear = get >>= fun c =>
      if c.lines = .transcript then Console.write (List.replicate Console.clearLines '\n')
      else Pure.pure () := by
    refine congrArg (get >>= ·) (funext fun c => ?_)
    cases c.lines <;> rfl
  have hread (f : Console → ConsoleM Unit) :
      atConsole (σ := σ) (get >>= f) = get >>= fun s => atConsole (f s.console) := rfl
  rw [hclear, hread]
  refine .read fun s => ?_
  split
  · exact .write _
  · exact .pure ()

theorem withStatementSet (change : StatementSet → Except StatementSet.Error α) :
    Built token (withStatementSet (σ := σ) change) := by
  refine .read fun s => ?_
  split
  · exact .pure _
  · exact .throw _

/-- The gateway is asked for something, and it is said that this was done. -/
theorem askThen (r : Request) (attempt message : Text) :
    Built token (Session.ask (σ := σ) r token attempt >>= fun _ => Session.inform message) :=
  (Built.ask r attempt).bind fun _ => inform message

theorem submit (ms : List Modify) : Built token (submit (σ := σ) ms token) := by
  have hacknowledge (sync : Bool) (result : TableResult) :
      Built token (acknowledge (σ := σ) sync result) := by
    unfold acknowledge
    split
    · exact .throw _
    · exact .ite (inform _) ((inform _).bind fun _ => writeLine _)
  rw [submit_eq]
  refine (inform _).bind fun _ => .read fun s => ?_
  refine (Built.ite (inform _) (.pure _)).bind fun _ => ?_
  exact (Built.ask _ _).bind fun result => hacknowledge _ result

theorem insert (m : Modify) : Built token (insert (σ := σ) m token) := by
  refine .read fun s => .ite ?_ (submit _)
  exact (withStatementSet _).bind fun set => (Built.put set).bind fun _ => inform _

theorem endStatementSet : Built token (endStatementSet (σ := σ) token) := by
  have hends : Session.endStatementSet (σ := σ) token =
      get >>= fun s => finish token s.statementSet.collected :=
    funext (endStatementSet_apply token)
  rw [hends]
  refine .read fun s => ?_
  cases s.statementSet.collected with
  | none => exact .throw _
  | some ms => exact (Built.put _).bind fun _ => .ite (inform _) (submit ms)

theorem listProperties : Built token (listProperties (σ := σ)) :=
  .read fun _ => .ite (inform _) (.forM (fun _ => writeLine _) _)

theorem query (statement : Text) : Built token (query (σ := σ) statement token) := by
  have hbehind (mode : ResultMode) : Built token
      (if mode ≠ .tableau then Session.inform Message.resultQuit else Pure.pure () :
        SessionM σ Unit) := .ite (inform _) (.pure _)
  exact .showing statement _ hbehind

theorem printContent (op : Operation) : Built token (printContent (σ := σ) op token) := by
  refine (Built.ask _ _).bind fun (result : TableResult) => ?_
  split
  · exact .throw _
  · exact .throw _
  · exact writeLine _

theorem printResult (op : Operation) : Built token (printResult (σ := σ) op token) :=
  (Built.ask _ _).bind fun _ => .ite (drawAll _) (inform _)

theorem stopJob (job : Text) (savepoint drain : Bool) :
    Built token (stopJob (σ := σ) job savepoint drain token) := by
  refine (Built.ask _ _).bind fun (path : Option Text) => .ite (inform _) ?_
  cases path with
  | some path => exact inform _
  | none => exact .throw _

end Built

/-- **Every operation is put together from the steps of a session.** -/
theorem built_perform (op : Operation) (token : CancelToken) :
    Built token (perform (σ := σ) op token) := by
  cases op with
  | quit => exact (Built.inform _).bind fun _ => .halt
  | clear => exact .clear
  | help => exact .writeLine _
  | set key value =>
    cases key with
    | none => exact .listProperties
    | some key =>
      cases value with
      | none => exact .listProperties
      | some value => exact .askThen _ _ _
  | reset key =>
    cases key with
    | none => exact .askThen _ _ _
    | some key => exact .askThen _ _ _
  | insert m | createTableAs m => exact .insert m
  | query statement => exact .query statement
  | explain | showCreateTable | showCreateView => exact .printContent _
  | beginStatementSet =>
    exact (Built.withStatementSet _).bind fun set => (Built.put set).bind fun _ => .inform _
  | endStatementSet => exact .endStatementSet
  | statementSet ms => exact .submit ms
  | removeJar path => exact .askThen _ _ _
  | stopJob job savepoint drain => exact .stopJob job savepoint drain
  | addJar | create | drop | alter | use | loadModule | unloadModule | other =>
    exact .printResult _

end SqlConsole.Session
