import JitInspect.Project.Resolution
import JitInspect.Strategy.Environment

/-!
# Plans

A plan is the command that a strategy executes to get the listing: the program, its arguments and
variables, and the folder that it runs in.
-/

namespace JitInspect

/-- The command of the execution, and what is said when it starts. -/
structure Plan where
  executable : Text
  args : List Text
  environment : Variables
  folder : Text
  status : Text
  deriving DecidableEq, Repr

/-- Why there is no plan. -/
inductive PlanFault where
  | noChecked
  | noPack
  | noProperties
  | missing (part : MissingPart)
  | arguments (f : ArgumentFault)
  deriving DecidableEq, Repr

/-- What is said of the fault. -/
def PlanFault.message : PlanFault → Text
  | noChecked => "crossgen2 requires a checked CoreCLR directory"
  | noPack => "crossgen2 requires a runtime pack when not publishing"
  | noProperties => "NativeAOT publish requires a props file"
  | missing p => p.message
  | arguments f => f.message

/-- Whether a folder or file that the plan needs was not supplied. -/
def PlanFault.isMissing : PlanFault → Bool
  | arguments _ => false
  | _ => true

/-- All that a plan depends on. -/
structure PlanInputs where
  info : SymbolInfo
  project : ResolvedProject
  settings : Settings
  layout : RuntimeLayout
  environment : Variables
  properties : Option Path := none

namespace Plan

/-- What stands for the root of the local runtime in typed arguments. -/
def rootPlaceholder : Text := "%DOTNET_REPO%"

/-- The knobs that make the crossgen compiler itself fast. -/
def crossgenKnobs (h : Host) : Variables :=
  [("TieredPGO", "0"), ("ReadyToRun", "1"), ("TC_QuickJitForLoops", "1"),
    ("TC_CallCountingDelayMs", "0"), ("TieredCompilation", "1")].map
      fun (k, v) => (h.defaults.knobStart ++ k.toList, v.toList)

/-- The file of the project's assembly. -/
def assembly (i : PlanInputs) : Text := i.project.assemblyName ++ ".dll"

/-- The pattern of the assemblies in a folder. -/
def assembliesIn (dir : Path) : Text := (dir.child "*.dll").text

/-- The program that runs assemblies: a local runtime that is not published has its own. -/
def runner (h : Host) (i : PlanInputs) : Except PlanFault Text :=
  if i.settings.customRuntime && !i.settings.publish then
    (i.layout.coreRun h).mapError PlanFault.missing |>.map Path.text
  else .ok h.defaults.dotnet

/-- A flag as the loader reads it. -/
def loaderFlag (b : Bool) : Text := if b then "True" else "False"

/-- The plan that executes the loader. -/
def loader (h : Host) (i : PlanInputs) : Except PlanFault Plan :=
  (runner h i).map fun executable =>
    { executable
      args := [loaderName ++ ".dll", assembly i, i.info.className, i.info.methodName,
        loaderFlag i.settings.unloadable]
      environment := i.environment
      folder := i.project.output.text
      status := "Executing " ++ loaderName ++ "..." }

/-- The plan that runs the program itself. -/
def app (h : Host) (i : PlanInputs) : Except PlanFault Plan :=
  (runner h i).map fun executable =>
    { executable
      args := [assembly i]
      environment := i.environment
      folder := i.project.output.text
      status := "Running the app..." }

/-- An option with its value, unless the user gave the option. -/
def unlessGiven (given : List Text) (option value : Text) : List Text :=
  if given.contains option then [] else [option, value]

/-- The references of the crossgen compiler. -/
def crossgenReferences (i : PlanInputs) (checked : Path) : Except PlanFault (List Text) :=
  if i.settings.publish then .ok ["-r", assembliesIn i.project.output]
  else
    match i.layout.pack with
    | none => .error .noPack
    | some pack =>
      .ok ["-r", assembliesIn pack, "-r", (checked.child "System.Private.CoreLib.dll").text]

/-- The plan that executes the crossgen compiler of a local runtime. -/
def crossgen (h : Host) (i : PlanInputs) (extra : List Text) : Except PlanFault Plan := do
  match i.layout.checked with
  | none => .error .noChecked
  | some checked =>
    let references ← crossgenReferences i checked
    let script ← (i.layout.dotnetScript h).mapError PlanFault.missing
    pure
      { executable := script.text
        args := [((checked.child "crossgen2").child "crossgen2.dll").text, "--out", "aot"] ++
          Knobs.optionArgs h i.environment ++ extra ++
          unlessGiven extra "--targetos" h.os.name ++
          unlessGiven extra "--targetarch" i.settings.arch ++
          [assembly i] ++ references
        environment := crossgenKnobs h
        folder := i.project.output.text
        status := "Executing crossgen2..." }

/-- The root of the local runtime as it stands in typed arguments, without slashes at its end. -/
def writtenRoot (l : RuntimeLayout) : Text :=
  Text.trimEnd (fun c => c = '\\' || c = '/') ((l.root.map Path.text).getD [])

/-- The arguments that the user typed for the compiler for native programs. -/
def userArgs (h : Host) (l : RuntimeLayout) (typed : Text) : Except PlanFault (List Text) :=
  if (Text.strip typed).isEmpty then .ok []
  else
    (Strategy.splitArgs h (Text.replace rootPlaceholder (writtenRoot l) typed)).mapError
      PlanFault.arguments

/-- The plan that executes the compiler for native programs of a local runtime. -/
def localIlc (h : Host) (i : PlanInputs) (typed : Text) : Except PlanFault Plan := do
  let args ← userArgs h i.layout typed
  let program ← (i.layout.ilc h).mapError PlanFault.missing
  pure
    { executable := program.text
      args := [assembly i] ++ Knobs.optionArgs h i.environment ++ args ++
        (if i.settings.publish then (["-r", assembliesIn i.project.output] : List Text) else [])
      environment := []
      folder := i.project.output.text
      status := "Executing ILC... Make sure your method is not inlined and is reachable as NativeAOT runs IL Link. It might take some time..." }

/-- The identifier of the runtime that a program is made for. -/
def runtimeIdentifier (h : Host) (s : Settings) : Text := h.os.runtimeIdentifier ++ "-" ++ s.arch

/-- The argument that names a properties file. -/
def propertiesArg (file : Text) : Text := "/p:CustomBeforeDirectoryBuildProps=" ++ file

/-- The plan that publishes a native program with the stock toolchain. -/
def nativePublish (h : Host) (i : PlanInputs) : Except PlanFault Plan :=
  match i.properties with
  | none => .error .noProperties
  | some file =>
    .ok
      { executable := h.defaults.dotnet
        args := "publish" :: (i.project.frameworkArgs i.settings ++
          (["-r", runtimeIdentifier h i.settings, "-c", "Release", "/p:PublishAot=true",
            propertiesArg file.text, "/p:WarningLevel=0", "/p:TreatWarningsAsErrors=false",
            "-v:q"] : List Text))
        environment := []
        folder := i.project.folder.text
        status := "Compiling for NativeAOT (.NET 8.0+ is required)..." }

end Plan

namespace Strategy

/-- The plan of the strategy. -/
def plan (s : Strategy) (h : Host) (i : PlanInputs) : Except PlanFault Plan :=
  match s.route with
  | .disasm | .dump | .inlinees | .altJit _ => Plan.loader h i
  | .runApp _ => Plan.app h i
  | .crossgen extra => Plan.crossgen h i extra
  | .localIlc typed => Plan.localIlc h i typed
  | .nativePublish => Plan.nativePublish h i

end Strategy

end JitInspect
