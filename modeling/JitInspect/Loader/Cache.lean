import JitInspect.Loader.Sources
import JitInspect.Run.World

/-!
# The loader cache

The loader is built once for each framework and version of the toolchain and kept in a folder of its
own, from which its two files are copied beside the assembly. A folder that has both files already
needs no build, and a destination that has them needs nothing at all.
-/

namespace JitInspect

/-- Where loaders are kept, and the program that builds them. -/
structure LoaderCache where
  root : Path
  dotnet : Text

namespace LoaderCache

/-- The two files of a loader. -/
def fileNames : List Text := [loaderName ++ ".dll", loaderName ++ ".runtimeconfig.json"]

/-- Whether all of the files exist. The first that is missing settles the answer. -/
def holdsAll (d : Disk) : List Path → Except FileFault Bool
  | [] => .ok true
  | p :: ps =>
    match d.isFile p.text with
    | .ok true => holdsAll d ps
    | r => r

/-- The files of a loader in a folder. -/
def filesIn (folder : Path) : List Path := fileNames.map folder.child

/-- Whether the answer of the toolchain can be a version: it starts with a digit. -/
def isVersion (answer : Text) : Bool :=
  match answer with
  | [] => false
  | c :: _ => Text.isDigit c

/-- The name of the folder of a loader. -/
def folderName (framework toolchain : Text) : Text :=
  version ++ "_" ++ framework ++ "_" ++ toolchain

/-- The folder of the loader of a framework and a version of the toolchain. -/
def folderOf (c : LoaderCache) (framework toolchain : Text) : Path :=
  (c.root.child loaderName).child (folderName framework toolchain)

/-- The command that asks the toolchain for its version. -/
def versionCommand (c : LoaderCache) : Command := { executable := c.dotnet, args := ["--version"] }

/-- The command that builds a loader in its folder. -/
def buildCommand (c : LoaderCache) (folder : Path) : Command :=
  { executable := c.dotnet, args := ["build", "-c", "Release"], folder := some folder.text }

/-- The folder for the loader of a framework. A toolchain that does not tell its version gets a new
folder each time. -/
def folder (c : LoaderCache) (framework : Text) : Action Path := do
  let printed ← Action.start c.versionCommand
  Action.checkpoint
  let answer := Text.strip printed.output
  let toolchain ← if isVersion answer then pure answer else Action.identifier
  pure (c.folderOf framework toolchain)

/-- What is said of a destination that does not exist. -/
def noDestination (destination : Path) : Text :=
  "ERROR: destination directory was not found: " ++ destination.text

/-- What is said of a build that did not make the files of the loader. -/
def noFiles (built : List Path) (printed : Printed) : Text :=
  "ERROR: 'dotnet build' did not produce expected binaries (" ++
    Text.join " and " (built.map fun p => "'" ++ p.text ++ "'") ++ "):\n" ++
    printed.output ++ "\n\n" ++ printed.errors

/-- Writes a file unless it exists. -/
def writeOnce (file : Path) (content : Text) : Action Unit := do
  unless ← Action.ask fun d => d.isFile file.text do Action.writeText file.text content

/-- Where the build of a loader puts its output. -/
def outputOf (folder : Path) : Path := folder.child "out"

/-- Builds the loader in its folder. -/
def build (c : LoaderCache) (folder : Path) (framework : Text) : Action Unit := do
  Action.change (Disk.makePath folder)
  writeOnce (folder.child (loaderName ++ ".cs")) Loader.code
  writeOnce (folder.child (loaderName ++ ".csproj")) (Loader.project framework)
  Action.checkpoint
  let printed ← Action.start (c.buildCommand folder)
  Action.checkpoint
  let built := filesIn (outputOf folder)
  unless ← Action.ask fun d => holdsAll d built do throw (.tool (noFiles built printed))

/-- Copies the files of a loader into a folder. -/
def copyTo (destination : Path) (folder : Path) : Action Unit :=
  fileNames.forM fun n =>
    Action.change (Disk.copyFile ((outputOf folder).child n) (destination.child n))

/-- Builds the loader in its folder, unless its files are there. -/
def buildOnce (c : LoaderCache) (folder : Path) (framework : Text) : Action Unit := do
  unless ← Action.ask fun d => holdsAll d (filesIn (outputOf folder)) do
    Action.report ("Building '" ++ loaderName ++ "' project...")
    c.build folder framework

/-- Puts the files of the loader for a framework into the destination. -/
def supply (c : LoaderCache) (framework : Text) (destination : Path) : Action Unit := do
  Action.report "Getting SDK version..."
  let folder ← c.folder framework
  c.buildOnce folder framework
  Action.checkpoint
  copyTo destination folder

/-- Makes sure that the files of the loader for a framework are in the destination. -/
def ensure (c : LoaderCache) (framework : Text) (destination : Path) : Action Unit := do
  if !(← Action.ask fun d => d.isDirectory destination.text) then
    throw (.tool (noDestination destination))
  else
    unless ← Action.ask fun d => holdsAll d (filesIn destination) do
      c.supply framework destination

end LoaderCache

end JitInspect
