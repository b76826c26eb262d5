import JitInspect.Project.Basic
import JitInspect.Project.Framework
import JitInspect.Settings.Basic

/-!
# Resolving a project

Of a project's build configurations one is chosen: a release configuration when there is one, with
the highest framework, or with the highest one up to the framework that the user asks for.
Frameworks that cannot list code are refused, unless the user asks for them.
-/

namespace JitInspect

/-- A build configuration with its place in the project and its rank. -/
structure Candidate where
  index : Nat
  configuration : BuildConfiguration
  version : Version

namespace Candidate

/-- The candidates with their ranks, when each has a version that can be read. -/
def ofList (configurations : List BuildConfiguration) : Except Version.TooLong (List Candidate) :=
  configurations.zipIdx.mapM fun (c, i) => (Version.rank c.framework).map fun v => ⟨i, c, v⟩

/-- Whether the configuration is a release configuration. -/
def isRelease (c : Candidate) : Bool := Text.lower c.configuration.name = "release".toList

/-- The candidates with the highest version first; equal ones keep their order. -/
def ranked (cs : List Candidate) : List Candidate :=
  cs.mergeSort fun a b => a.version.atLeast b.version

/-- The candidates among which one is chosen: the release ones, or all when there are none. -/
def eligible (cs : List Candidate) : List Candidate :=
  let release := (ranked cs).filter isRelease
  if release.isEmpty then ranked cs else release

/-- The candidate that is chosen, when a framework of the given version is asked for or none is. -/
def choose (wanted : Option Version) (cs : List Candidate) : Option Candidate :=
  match wanted with
  | none => (eligible cs).head?
  | some w => ((eligible cs).find? fun c => w.atLeast c.version) <|> (eligible cs).head?

end Candidate

namespace Project

/-- The version that a moniker asks for; an empty one asks for nothing. -/
def wantedVersion (wanted : Option Text) : Except Version.TooLong (Option Version) :=
  match wanted with
  | none => .ok none
  | some w => if w.isEmpty then .ok none else Version.ofMoniker w

/-- The candidate that is chosen of the configurations. -/
def select (configurations : List BuildConfiguration) (wanted : Option Text) :
    Except Version.TooLong (Option Candidate) := do
  let cs ← Candidate.ofList configurations
  if cs.isEmpty then pure none
  else
    let w ← wantedVersion wanted
    pure (Candidate.choose w cs)

end Project

/-- Why a project cannot be built for a listing. -/
inductive ResolveFault where
  | versionTooLong (e : Version.TooLong)
  | frameworkUnsupported
  | frameworkNeedsRuntime
  | path (f : FileFault)
  deriving DecidableEq, Repr

/-- What is said of the fault. -/
def ResolveFault.message : ResolveFault → Text
  | versionTooLong e => e.message
  | frameworkUnsupported =>
    "Only net6.0 (and newer) apps are supported.\nMake sure <TargetFramework>net6.0</TargetFramework> is set in your csproj."
  | frameworkNeedsRuntime =>
    "Only net7.0 (and newer) apps are supported with non-locally built dotnet/runtime.\nMake sure <TargetFramework>net7.0</TargetFramework> is set in your csproj."
  | path f => f.message

/-- The build configuration of one run. -/
structure ResolvedProject where
  file : Path
  folder : Path
  configuration : Text
  framework : Text
  /-- The user asked for the framework. -/
  pinned : Bool
  output : Path
  assemblyName : Text
  deriving DecidableEq, Repr

namespace ResolvedProject

/-- The framework when nothing says which. -/
def fallbackFramework : Text := "net7.0"

/-- The framework that the user asks for. -/
def pinOf (s : Settings) : Option Text :=
  let pin := Text.strip (s.framework.getD [])
  if pin.isEmpty then none else some pin

/-- A text that is there and not empty. -/
def nonempty (t : Option Text) : Option Text := t.filter fun x => !x.isEmpty

/-- Refuses a framework whose code cannot be listed. -/
def gate (framework : Text) (s : Settings) : Except ResolveFault Unit :=
  match Version.ofMoniker framework with
  | .error e => .error (.versionTooLong e)
  | .ok none => .error .frameworkUnsupported
  | .ok (some v) =>
    if v.major < 6 then .error .frameworkUnsupported
    else if v.major < 7 && !s.customRuntime then .error .frameworkNeedsRuntime
    else .ok ()

/-- The name of the folder for the output. -/
def outputName (s : Settings) : Text :=
  outputFolderName ++ (if s.publish then "_published" else "").toList

/-- The folder for the output, below the one that the configuration names. -/
def outputFolder (s : Settings) (folder : Path) (outputPath : Option Text) : Path :=
  folder ++ (Path.ofText ((nonempty outputPath).getD "bin")).child (outputName s)

/-- The framework of the run: the one asked for, or that of the chosen configuration, which must
then pass the gate. -/
def frameworkOf (s : Settings) (chosen : Option BuildConfiguration) : Except ResolveFault Text :=
  match pinOf s with
  | some pin => .ok pin
  | none =>
    let framework := (nonempty (chosen.bind (·.framework))).getD fallbackFramework
    (gate framework s).map fun _ => framework

/-- Resolves a project for one run. -/
def resolve (d : Disk) (p : Project) (s : Settings) : Except ResolveFault ResolvedProject := do
  let candidate ← (Project.select p.configurations (pinOf s)).mapError ResolveFault.versionTooLong
  let chosen := candidate.map (·.configuration)
  let framework ← frameworkOf s chosen
  let file ← (p.file d).mapError ResolveFault.path
  pure
    { file
      folder := file.parent
      configuration := (chosen.map (·.name)).getD "Release"
      framework
      pinned := (pinOf s).isSome
      output := outputFolder s file.parent (chosen.bind (·.outputPath))
      assemblyName := (nonempty (chosen.bind (·.assemblyName))).getD p.name }

/-- The arguments that name the framework, unless the user does not want it guessed. -/
def frameworkArgs (r : ResolvedProject) (s : Settings) : List Text :=
  if s.noFrameworkGuess && !r.pinned then [] else ["-f", r.framework]

end ResolvedProject

end JitInspect
