import JitInspect.FlowGraph.Dump
import JitInspect.Listing.Condense
import JitInspect.Listing.DumpPhases
import JitInspect.Run.Build

/-!
# Executing the plan

The plan of the strategy is executed. What it prints is the listing, unless it prints errors. The
compiler for native programs writes the listing into a file instead. At the end the listing is
condensed, and the flow graphs are split into phases.
-/

namespace JitInspect

/-- What the execution gave. -/
structure Listed where
  /-- The listing as it was printed. -/
  raw : Text
  /-- What is shown to the user. -/
  shown : Text
  failed : Bool := false

/-- The command of a plan. -/
def Plan.command (p : Plan) : Command :=
  { executable := p.executable, args := p.args, environment := p.environment,
    folder := some p.folder }

namespace Job

/-- What the plan is made from. -/
def planInputs (j : Job) (environment : Variables) (properties : Option Path) : PlanInputs :=
  { info := j.info, project := j.project, settings := j.settings, layout := j.layout, environment,
    properties }

/-- Reports the plan's progress and starts its command. -/
def startPlan (w : Workshop) (j : Job) (inputs : PlanInputs) : Action Printed := do
  let plan ← Action.lift Failure.ofPlan (j.strategy.plan w.host inputs)
  Action.report plan.status
  let printed ← Action.start plan.command
  Action.checkpoint
  pure printed

/-- The listing that a command printed. Errors are shown below it. -/
def listed (p : Printed) : Listed :=
  if p.ok then { raw := p.output, shown := p.output }
  else { raw := p.output, shown := p.output ++ "\nERROR:\n" ++ p.errors, failed := true }

/-- What is said when the compiler for native programs writes no listing. -/
def noNativeListing : Text :=
  "JitDisasm didn't produce any output :(. Make sure your method is not inlined by the code generator\n" ++
  "(it's a good idea to mark it as [MethodImpl(MethodImplOptions.NoInlining)]) and is reachable from Main() as\n" ++
  "NativeAOT may delete unused methods. Also, JitDisasm doesn't work well for Main() in NativeAOT mode."

/-- The listing that the compiler for native programs wrote into a file, unless it printed errors. -/
def nativeListing (file : Text) (printed : Printed) : Action Listed := do
  if !printed.ok then throw (.tool printed.errors)
  else if !(← get).disk.holdsFile file then
    throw (.tool (noNativeListing ++ "\n\n\n" ++ printed.output))
  else
    let listing ← Action.readText file
    pure { raw := listing, shown := listing }

/-- Publishes a native program and reads the listing from the file that its compiler writes. The
compiler creates the file, so that its absence means that there is no listing. -/
def executeNative (w : Workshop) (j : Job) (environment : Variables) : Action Listed := do
  let file ← Action.temporaryFile w.host ".asm"
  Action.delete file
  let properties ← Action.temporaryFile w.host ".props"
  Action.deleteLater [file, properties]
  let environment := Knobs.set environment (w.host.defaults.knobStart ++ "JitStdOutFile") file
  Action.writeText properties (Knobs.nativeProperties w.host environment)
  let printed ← j.startPlan w (j.planInputs environment (some (Path.ofText properties)))
  nativeListing file printed

/-- What the name of a flow-graph dump ends with. The code generator adds it to the name that it is
given. -/
def dumpExtension : Text := ".dot"

/-- The file for the flow graphs, when the user asks for them. -/
def flowGraphFile (w : Workshop) (j : Job) : Action (Option Text) := do
  if j.settings.flowGraphs then
    let file ← Action.temporaryFile w.host []
    Action.deleteLater [file, file ++ dumpExtension]
    pure (some file)
  else pure none

/-- Executes the plan. -/
def execute (w : Workshop) (j : Job) (file : Option Text) : Action Listed := do
  let environment := Knobs.environment w.host j.strategy j.info j.settings j.layout file
  if j.strategy.route = .nativePublish then j.executeNative w environment
  else do
    let printed ← j.startPlan w (j.planInputs environment none)
    pure (listed printed)

/-- How the listing of a strategy is read. -/
def source (j : Job) : Listing.Source :=
  match j.strategy.route with
  | .runApp _ => .withProgramOutput
  | _ => .generatorOnly

/-- The listing as it is shown: condensed, if the strategy's listings can be. -/
def shown (j : Job) (raw asIs : Text) : Action Text := do
  if j.strategy.condenses then
    let (t, records) := Listing.condense j.settings.minimalComments j.source raw
    records.forM Action.log
    pure t
  else pure asIs

/-- What is said of a dump that holds no flow graphs. -/
def noDump (file : Text) : Text :=
  "Oops, JitDumpFgFile ('" ++ file ++ "') doesn't exist or is empty :(\n" ++
    "Make sure the method is actually compiled (e.g. not inlined)."

/-- The text of a dump; one that does not exist is empty. -/
def dumpText (file : Text) : Action Text :=
  tryCatch (Action.readText file) fun f =>
    match f with
    | .unforeseen (.file e) => if e.isMissing then pure [] else throw f
    | f => throw f

/-- Splits a dump into phases, in a new folder. -/
def splitDump (w : Workshop) (file : Text) : Action (List FlowGraph.Phase) := do
  let dump ← dumpText file
  if Text.blank dump then throw (.tool (noDump file))
  else
    let name ← Action.identifier
    let s ← Action.change (FlowGraph.splitInto (w.graphs.child name) dump)
    s.warnings.forM Action.log
    pure s.phases

/-- The phases of the flow graphs, when the user asks for them. -/
def phases (w : Workshop) (file : Option Text) : Action (List FlowGraph.Phase) :=
  match file with
  | none => pure []
  | some file => do
    Action.report "Splitting flow graphs..."
    splitDump w (file ++ dumpExtension)

end Job

end JitInspect
