import JitInspect.Loader.Cache

/-!
# Building the project

Most strategies list code of a project that is built first: it is built or published with the
toolchain's own commands, told not to print warnings and not to keep servers running. A build that
prints an error fails the run with what it printed. A published program then gets the files of the
local runtime, and a strategy that executes the loader gets its files.
-/

namespace JitInspect

/-- What a run is asked for. -/
structure Request where
  symbol : Option Symbol
  project : Project
  settings : Settings

/-- Where runs take place: the host, the loaders, and the folder for flow graphs. -/
structure Workshop where
  host : Host
  loaders : LoaderCache
  graphs : Path

/-- A request that has passed all gates. -/
structure Job where
  settings : Settings
  strategy : Strategy
  info : SymbolInfo
  layout : RuntimeLayout
  project : ResolvedProject

namespace Job

/-- The variables that keep a build quiet and quick. -/
def quietVariables : Variables :=
  [("DOTNET_SKIP_FIRST_TIME_EXPERIENCE", "1"), ("DOTNET_CLI_TELEMETRY_OPTOUT", "1"),
    ("MSBUILDDISABLENODEREUSE", "1")].map fun (k, v) => (k.toList, v.toList)

/-- The variables of the build. -/
def buildVariables (j : Job) : Variables :=
  if j.settings.noRestore && !j.settings.publish then
    quietVariables ++ [("DOTNET_MULTILEVEL_LOOKUP".toList, "0".toList)]
  else quietVariables

/-- The arguments that publish the project. -/
def publishArgs (h : Host) (j : Job) : List Text :=
  "publish" :: (j.project.frameworkArgs j.settings ++
    (["-r", Plan.runtimeIdentifier h j.settings, "-c", "Release", "-o", j.project.output.text,
      "--self-contained", "true", "/p:PublishTrimmed=false", "/p:PublishSingleFile=false"] :
      List Text))

/-- The arguments that build the project. -/
def plainArgs (j : Job) : List Text :=
  "build" :: (j.project.frameworkArgs j.settings ++
    (["-c", "Release", "-o", j.project.output.text, "--no-self-contained", "/p:RuntimeIdentifier=",
      "/p:RuntimeIdentifiers="] : List Text) ++
    (if j.settings.noRestore then (["--no-restore", "--no-dependencies", "--nologo"] : List Text)
      else []))

/-- The arguments of the build, with a file of properties. -/
def buildArgs (h : Host) (j : Job) (properties : Text) : List Text :=
  (if j.settings.publish then publishArgs h j else plainArgs j) ++
    (["/p:WarningLevel=0", Plan.propertiesArg properties, "/p:TreatWarningsAsErrors=false",
      "/p:UseSharedCompilation=false", j.project.file.text] : List Text)

/-- The command of the build. -/
def buildCommand (h : Host) (j : Job) (properties : Text) : Command :=
  { executable := h.defaults.dotnet
    args := j.buildArgs h properties
    environment := j.buildVariables
    folder := some j.project.folder.text }

/-- How an error is marked in the output of a build. -/
def errorMark : Text := ": error"

/-- What a failed build printed: its errors, or its output when it printed the errors there. -/
def buildErrors? (p : Printed) : Option Text :=
  if !p.errors.isEmpty then some p.errors
  else if Text.has errorMark p.output then some p.output
  else none

/-- Copies the local runtime over the published program. -/
def overlayRuntime (j : Job) : Action Unit :=
  match j.layout.checked with
  | none => throw (.tool "Locally built CoreCLR was not found.")
  | some checked =>
    tryCatch (Action.change (Disk.copyTree checked j.project.output)) fun f =>
      match f with
      | .unforeseen (.file e) =>
        if e.isSystem then
          throw (.tool ("Failed to copy " ++ checked.text ++ " into " ++ j.project.output.text ++
            ": " ++ e.message))
        else throw f
      | f => throw f

/-- Starts the build with a file of properties, which is deleted in any case. -/
def startBuild (h : Host) (j : Job) : Action Printed := do
  let properties ← Action.temporaryFile h ".props"
  Action.thenAlways
    (do
      Action.writeText properties Knobs.buildProperties
      Action.start (j.buildCommand h properties))
    (Action.delete properties)

/-- Copies the local runtime over the output of a build, if it is published with one. -/
def overlay (j : Job) : Action Unit := do
  if j.settings.publish && j.settings.customRuntime then
    Action.report "Copying files from locally built CoreCLR..."
    j.overlayRuntime

/-- Puts the loader beside the output of a build, if the strategy executes it. -/
def addLoader (w : Workshop) (j : Job) : Action Unit := do
  if j.strategy.route.usesLoader then
    w.loaders.ensure j.project.framework j.project.output

/-- Builds the project. -/
def build (w : Workshop) (j : Job) : Action Unit := do
  let verb : Text := if j.settings.publish then "dotnet publish" else "dotnet build"
  Action.report ("Running '" ++ verb ++ "'...")
  let printed ← j.startBuild w.host
  Action.checkpoint
  match buildErrors? printed with
  | some errors => throw (.tool errors)
  | none => do
    j.overlay
    j.addLoader w

end Job

end JitInspect
