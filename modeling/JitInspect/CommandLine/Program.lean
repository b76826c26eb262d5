import JitInspect.CommandLine.Overrides
import JitInspect.CommandLine.Subcommand
import JitInspect.Project.Load
import JitInspect.Render.Turns
import JitInspect.Session.Basic

/-!
# The program

The program reads its command line and does what the user asks for. What other programs may read is
printed, and all else is reported: progress, what is wrong with the input, and where the flow graphs
are. How it went is told by the exit code.
-/

namespace JitInspect

namespace CommandLine

/-- How the program ends. -/
inductive ExitCode where
  | completed
  | failed
  /-- The command line could not be read. -/
  | misused
  | cancelled
  deriving DecidableEq, Repr

/-- The number that is given to the system. -/
def ExitCode.number : ExitCode → Nat
  | completed => 0
  | failed => 1
  | misused => 2
  | cancelled => 130

/-- What the program is run in. -/
structure Terminal where
  shop : Workshop
  /-- What is typed or piped into the program, unless it cannot be decoded. -/
  input : Option Text := some []
  /-- How long a run took, in seconds, as the user is told. -/
  duration : Text

/-- Tells what is wrong with the input. -/
def complain (message : Text) : Action ExitCode := do
  Action.report ("Error: " ++ message)
  pure .failed

/-- What a question about the disk says; a fault of the system is told to the user. -/
def askOrComplain {α : Type} (question : Disk → Except FileFault α)
    (next : α → Action ExitCode) : Action ExitCode := do
  match question (← get).disk with
  | .ok a => next a
  | .error f => if f.isSystem then complain f.message else throw (.ofFile f)

/-! ### The listing of a symbol -/

/-- What is wrong with a request for a listing. -/
inductive RequestFault where
  | typeName (f : TypeName.Fault)
  | override (f : NoEquals)
  | options (fs : List FieldFault)
  | project (f : LoadFault)
  deriving DecidableEq, Repr

namespace RequestFault

/-- What is said of the fault. -/
def message : RequestFault → Text
  | typeName f => f.message
  | override f => f.message
  | options fs => faultReport "Configuration" fs
  | project f => f.message

/-- The faults that the program does not foresee: the project file has an encoding that is not
known, or the system refuses to look for it or to read it. -/
def unforeseen? : RequestFault → Option Unforeseen
  | project (.encoding f) => if f.isName then some (.lookup f.message) else none
  | project (.path f) => if f.isSystem && !f.isMissing then some (.file f) else none
  | _ => none

end RequestFault

namespace Disassembly

/-- The symbol. Its kind is a method when a member is named and none is given, and else a type. -/
def symbol (x : Disassembly) : Except RequestFault Symbol := do
  let n ← (TypeName.parse x.typeName).mapError .typeName
  pure
    { kind := x.kind.getD (if x.member.isEmpty then .type else .method)
      typePath := n.path
      namespaceName := n.namespaceName
      name := x.member
      genericType := Text.has "`" (n.path.getLast?.getD [])
      genericMethod := x.genericMethod }

/-- The options of the run. -/
def settings (h : Host) (x : Disassembly) : Except RequestFault Settings := do
  let overrides ← (parseOverrides x.overrides).mapError .override
  let environment : RawValue := .record (overrides.map fun (n, v) => (n, .text v))
  let options : RawValue := .record (x.options ++ [("env_overrides".toList, environment)])
  (Settings.read h options).toExcept.mapError .options

/-- The request for the listing. -/
def request (h : Host) (d : Disk) (x : Disassembly) : Except RequestFault Request := do
  let symbol ← x.symbol
  let settings ← x.settings h
  let project ← (Project.load d x.project).mapError .project
  pure { symbol := some symbol, project, settings }

/-- Tells where the flow graph of a phase is. -/
def reportPhase (p : FlowGraph.Phase) : Action Unit :=
  Action.report ("  " ++ p.identifier ++ " -> " ++ p.shown.getD [])

/-- Shows the result of a run. -/
def conclude (t : Terminal) (x : Disassembly) (s : Settings) (r : RunResult) : Action ExitCode := do
  Action.print (r.output ++ "\n")
  Action.report ("Finished in " ++ t.duration ++ "s (" ++ r.status.name ++ ")")
  match r.status with
  | .cancelled => pure .cancelled
  | .failed => pure .failed
  | .completed => do
    let phases ←
      if x.draws then (Renderer.ofHost t.shop.host s.dotPath).drawAll r.phases else pure r.phases
    phases.forM reportPhase
    pure .completed

/-- Builds the project and prints the listing. -/
def run (t : Terminal) (x : Disassembly) : Action ExitCode := do
  match x.request t.shop.host (← get).disk with
  | .error f =>
    match f.unforeseen? with
    | some u => throw (.unforeseen u)
    | none => complain f.message
  | .ok request => do
    let (result, _) ← Session.perform t.shop {} request
    x.conclude t request.settings result

end Disassembly

/-! ### Listings and dumps that are there already -/

/-- The text of a file, which has to be well-formed. -/
def readStrictly (written : Text) (d : Disk) : Except FileFault Text := do
  let content ← d.readBytes (Path.ofText written).text
  match Text.ofUtf8? content with
  | some t => .ok (Text.unifyNewlines t)
  | none => .error .undecodable

/-- The text of a file. What is not well-formed is replaced. -/
def readLeniently (written : Text) (d : Disk) : Except FileFault Text :=
  (d.readBytes (Path.ofText written).text).map fun b => Text.unifyNewlines (Text.ofUtf8 b)

/-- The name of a file that stands for the input of the program. -/
def inputName : Text := "-"

/-- The text on the input, which has to be well-formed too. -/
def readInput (t : Terminal) : Except FileFault Text :=
  match t.input with
  | some typed => .ok (Text.unifyNewlines typed)
  | none => .error .undecodable

/-- Condenses a listing and prints it. -/
def prettify (t : Terminal) (file : Text) (source : Listing.Source) : Action ExitCode :=
  let raw : Disk → Except FileFault Text :=
    if file = inputName then fun _ => readInput t else readStrictly file
  askOrComplain raw fun raw => do
    let (shown, records) := Listing.condense true source raw
    records.forM Action.log
    Action.print shown
    pure .completed

/-- Prints where the flow graph of a phase is. -/
def printPhase (p : FlowGraph.Phase) : Action Unit :=
  Action.print (p.identifier ++ "\t" ++ p.shown.getD [] ++ "\n")

/-- Splits a dump into phases and prints where they are. -/
def splitDump (t : Terminal) (file folder : Text) (draws : Bool) (dot : Text) : Action ExitCode :=
  askOrComplain (readLeniently file) fun dump => do
    let s ← Action.change (FlowGraph.splitInto (.ofText folder) dump)
    s.warnings.forM Action.log
    if s.phases.isEmpty then complain ("no flow graphs found in " ++ file)
    else do
      let phases ←
        if draws then do
          Action.report ("Rendering " ++ Text.ofNat s.phases.length ++ " phase(s)...")
          (Renderer.ofHost t.shop.host dot).drawAll s.phases
        else pure s.phases
      phases.forM printPhase
      pure .completed

/-! ### The program -/

/-- Does what the user asks for. -/
def Subcommand.run (t : Terminal) : Subcommand → Action ExitCode
  | disasm d => d.run t
  | prettify file source => CommandLine.prettify t file source
  | flowgraph file folder draws dot => splitDump t file folder draws dot

/-- Tells why a command line was not read to its end. -/
def Stop.tell : Stop → Action ExitCode
  | usage program fault => do
    Action.report (program ++ ": error: " ++ fault.message)
    pure .misused
  | help g => do
    Action.print g.usage
    pure .completed
  | version => do
    Action.print (programName ++ " " ++ JitInspect.version ++ "\n")
    pure .completed

/-- What is said when the user interrupts the program. -/
def interruptedMessage : Text := "\nCancelled by user."

/-- Runs the program on a command line. -/
def run (t : Terminal) (arguments : List Text) : Action ExitCode :=
  match Invocation.read t.shop.host arguments with
  | .error s => s.tell
  | .ok i =>
    tryCatch (i.subcommand.run t) fun f =>
      match f with
      | .interrupted => do
        Action.report interruptedMessage
        pure .cancelled
      | f => throw f

end CommandLine

end JitInspect
