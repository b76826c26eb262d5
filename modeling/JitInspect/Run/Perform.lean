import JitInspect.Run.Execute

/-!
# Runs

A run passes the gates, resolves the project, builds it, executes the plan and prepares the listing
for the user. Between these stages, and after every command, it stops if it was cancelled. However
it ends, it has a result, unless the user interrupts the program; and it deletes its temporary
files, unless publishing a native program has failed and they may tell why.
-/

namespace JitInspect

/-- How a run ended. -/
inductive RunStatus where
  | completed
  | failed
  | cancelled
  deriving DecidableEq, Repr

/-- The word for the status. -/
def RunStatus.name : RunStatus → Text
  | completed => "completed"
  | failed => "failed"
  | cancelled => "cancelled"

/-- What a run hands back. -/
structure RunResult where
  status : RunStatus
  /-- The listing, or what is said of the failure. -/
  output : Text
  phases : List FlowGraph.Phase := []
  /-- The key of the strategy, if the options choose one. -/
  strategy : Option Text := none
  /-- The phases of a dump of the code generator. -/
  dumpPhases : List Text := []
  deriving DecidableEq, Repr

/-- The result of a run that was cancelled before it began. -/
def RunResult.cancelledEarly : RunResult :=
  { status := .cancelled, output := Failure.cancelledMessage }

namespace Request

/-- Passes the gates. -/
def pass (w : Workshop) (r : Request) : Action (Strategy × SymbolInfo × RuntimeLayout) := do
  let strategy ← Action.lift Failure.ofArguments (Strategy.select w.host r.settings)
  let info? := r.symbol.bind fun s => s.info.toOption
  let layout ← Action.lift Failure.ofGate
    (Gate.check w.host (← get).disk r.symbol info? r.settings strategy.route)
  match info? with
  | some info => pure (strategy, info, layout)
  | none => throw (.ofGate .unknownSymbol)

/-- Passes the gates and resolves the project. -/
def toJob (w : Workshop) (r : Request) : Action Job := do
  let (strategy, info, layout) ← r.pass w
  Action.checkpoint
  let project ← Action.lift Failure.ofResolve
    (ResolvedProject.resolve (← get).disk r.project r.settings)
  pure { settings := r.settings, strategy, info, layout, project }

/-- The result of a run that came to its end. -/
def finished (j : Job) (l : Listed) (shown : Text) (phases : List FlowGraph.Phase) : RunResult :=
  if l.failed then
    { status := .failed, output := shown, strategy := some j.strategy.key }
  else
    { status := .completed, output := shown, phases, strategy := some j.strategy.key,
      dumpPhases := if j.settings.dump then Listing.dumpPhases l.raw else [] }

/-- Prepares what the execution gave for the user. -/
def present (w : Workshop) (j : Job) (file : Option Text) (l : Listed) : Action RunResult := do
  if l.failed then pure (finished j l l.shown [])
  else
    let shown ← j.shown l.raw l.shown
    let phases ← Job.phases w file
    pure (finished j l shown phases)

/-- Executes the plan of a job and prepares what this gives for the user. -/
def list (w : Workshop) (j : Job) : Action RunResult := do
  let file ← j.flowGraphFile w
  let l ← j.execute w file
  Action.checkpoint
  present w j file l

/-- Builds the project of a job if its strategy needs that, and executes the plan. -/
def work (w : Workshop) (j : Job) : Action RunResult :=
  if j.strategy.route.needsBuild then do
    j.build w
    Action.checkpoint
    list w j
  else list w j

/-- Goes through all stages. -/
def stages (w : Workshop) (r : Request) : Action RunResult := do
  let j ← r.toJob w
  Action.checkpoint
  work w j

/-- The key of the strategy that the options choose, if they choose one. -/
def strategyKey (w : Workshop) (r : Request) : Option Text :=
  (Strategy.select w.host r.settings).toOption.map Strategy.key

/-- The result of a run that a failure ended; none when the user interrupted the program. -/
def ended? (w : Workshop) (r : Request) : Failure → Option RunResult
  | .interrupted => none
  | .cancelled m => some { status := .cancelled, output := m, strategy := r.strategyKey w }
  | .rejected m => some { status := .failed, output := m, strategy := r.strategyKey w }
  | .tool o => some { status := .failed, output := o, strategy := r.strategyKey w }
  | .unforeseen u => some { status := .failed, output := u.report, strategy := r.strategyKey w }

/-- Whether the temporary files of a failed run are kept: a tool failed that publishes a native
program. -/
def keepsFiles (w : Workshop) (r : Request) : Failure → Bool
  | .tool _ => r.strategyKey w = some Route.nativePublish.key
  | _ => false

/-- Deletes the temporary files of the run. -/
def cleanUp : Action Unit := do
  (← get).toDelete.forM Action.delete

/-- Deletes the temporary files of a run that ended, unless they are kept. -/
def cleanUpAfter (w : Workshop) (r : Request) : Except Failure RunResult → Action Unit
  | .ok _ => cleanUp
  | .error f => if r.keepsFiles w f then pure () else cleanUp

/-- What a run hands back when its stages have ended. -/
def handBack (w : Workshop) (r : Request) : Except Failure RunResult → Except Failure RunResult
  | .ok x => .ok x
  | .error f =>
    match r.ended? w f with
    | some x => .ok x
    | none => .error f

/-- Runs a request to its end. -/
def run (w : Workshop) (r : Request) : Action RunResult := do
  modify fun x => { x with toDelete := [] }
  let result : Except Failure RunResult ←
    tryCatch (Except.ok <$> r.stages w) fun f => pure (.error f)
  r.cleanUpAfter w result
  Action.lift id (r.handBack w result)

end Request

end JitInspect
