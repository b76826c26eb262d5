import JitInspect.FileTree.Path

/-!
# The host

What a run takes from the machine it runs on: the operating system, the number of processors, the
folders for temporary files and of the user, and the defaults that environment variables may set.
-/

namespace JitInspect

/-- The operating systems that a runtime is built for. -/
inductive OperatingSystem where
  | windows
  | osx
  | linux
  deriving DecidableEq, Repr

namespace OperatingSystem

/-- The name in folder names and compiler arguments. -/
def name : OperatingSystem → Text
  | windows => "windows"
  | osx => "osx"
  | linux => "linux"

/-- The name at the beginning of a runtime identifier. -/
def runtimeIdentifier : OperatingSystem → Text
  | windows => "win"
  | osx => "osx"
  | linux => "linux"

/-- The system that a platform name stands for. All that is not known counts as Linux. -/
def ofPlatform (platform : Text) : OperatingSystem :=
  if Text.startsWith platform "win" then windows
  else if platform = "darwin".toList then osx
  else linux

end OperatingSystem

/-- The defaults that environment variables may set. -/
structure Defaults where
  /-- What stands in front of the name of every knob of the code generator. -/
  knobStart : Text := "DOTNET_"
  dotnet : Text := "dotnet"
  arch : Text := "x64"
  graphviz : Text := []
  localRuntime : Text := []
  deriving DecidableEq, Repr

/-- The defaults when the given environment variables are set. -/
def Defaults.ofEnvironment (vars : List (Text × Text)) : Defaults :=
  let get (name : String) (d : Text) : Text := (vars.lookup name.toList).getD d
  { knobStart := get "JITSCOPE_ENV_PREFIX" "DOTNET_"
    dotnet := get "JITSCOPE_DOTNET" "dotnet"
    arch := get "JITSCOPE_ARCH" "x64"
    graphviz := get "JITSCOPE_GRAPHVIZ_DOT" []
    localRuntime := get "JITSCOPE_LOCAL_RUNTIME" [] }

/-- The machine that a run takes place on. -/
structure Host where
  os : OperatingSystem := .linux
  processors : Option Nat := none
  temp : Path := ⟨.root, ["tmp"]⟩
  home : Text := "/"
  /-- The folders of the users that are known by name. -/
  users : List (Text × Text) := []
  defaults : Defaults := {}

namespace Host

/-- The name of a program's file. -/
def executableName (h : Host) (name : Text) : Text :=
  if h.os = .windows then name ++ ".exe" else name

/-- How many graphs are drawn at once: half as many as there are processors, but at least two. An
unknown number of processors, or none, counts as two. -/
def parallelRenders (h : Host) : Nat :=
  max 2 ((match h.processors with
    | none | some 0 => 2
    | some n => n) / 2)

end Host

/-- The version of the program. -/
def version : Text := "0.1.0"

/-- The folder that a build of this version writes to. Each version has its own, so that no loader
of another version is found in it. -/
def outputFolderName : Text := "jitscope-v" ++ version

/-- The name of the loader, the program that has the methods of an assembly compiled. -/
def loaderName : Text := "JitscopeLoader"

end JitInspect
