import JitInspect.FileTree.Disk
import JitInspect.FileTree.Glob
import JitInspect.Host

/-!
# The layout of a local runtime

A runtime that was built locally keeps its parts in fixed places below the root of its repository: a
checked build of the core, packs of the framework's assemblies, and the tools for native programs.
What a run has found is kept, so that it is looked for only once.
-/

namespace JitInspect

/-- The folders of a local runtime that a run uses. -/
structure RuntimeLayout where
  root : Option Path := none
  checked : Option Path := none
  pack : Option Path := none
  nativeTools : Option Path := none
  deriving DecidableEq, Repr

/-- The part of a local runtime that is needed and not there. -/
inductive MissingPart where
  | coreRun
  | dotnetScript
  | ilc
  deriving DecidableEq, Repr

/-- What is said of the missing part. -/
def MissingPart.message : MissingPart → Text
  | coreRun => "CoreRun requires a checked CoreCLR directory"
  | dotnetScript => "The dotnet script requires a local runtime repository"
  | ilc => "ilc requires a NativeAOT toolchain directory"

namespace RuntimeLayout

/-! ### Looking for the parts -/

section Lookup

/-- The script that builds the runtime. -/
def buildScript (h : Host) : Text := if h.os = .windows then "build.cmd" else "./build.sh"

/-- The folder of the builds of the core. -/
def coreFolder (root : Path) : Path := ((root.child "artifacts").child "bin").child "coreclr"

/-- The folder of the packs. -/
def packFolder (root : Path) : Path := ((root.child "artifacts").child "bin").child "runtime"

/-- The folder of a build of the core. -/
def coreBuild (h : Host) (root : Path) (arch flavor : Text) : Path :=
  (coreFolder root).child (h.os.name ++ "." ++ arch ++ "." ++ flavor)

/-- The folder of the checked build of the core. -/
def checkedBuild (h : Host) (root : Path) (arch : Text) : Path := coreBuild h root arch "Checked"

/-- The pattern of the names of packs. -/
def packPattern (h : Host) (arch : Text) : Text := "*-" ++ h.os.name ++ "-Release-" ++ arch

/-- The checked build of the core, or else the debug build. -/
def findChecked (h : Host) (d : Disk) (root : Path) (arch : Text) :
    Except FileFault (Option Path) := do
  let checked := checkedBuild h root arch
  if ← d.isDirectory checked.text then pure (some checked)
  else
    let debug := coreBuild h root arch "Debug"
    if ← d.isDirectory debug.text then pure (some debug) else pure none

/-- The pack whose name comes last. -/
def findPack (h : Host) (d : Disk) (root : Path) (arch : Text) :
    Except FileFault (Option Path) := do
  let folder := packFolder root
  if ← d.isDirectory folder.text then
    let found ← Disk.glob d folder (packPattern h arch)
    let packs ← found.filterM fun p => d.isDirectory p.text
    pure (packs.foldl (fun best p =>
      match best with
      | none => some p
      | some b => if b.parts < p.parts then some p else some b) none)
  else pure none

/-- The checked build of the core, when it holds the tools for native programs. -/
def findNativeTools (h : Host) (d : Disk) (root : Path) (arch : Text) :
    Except FileFault (Option Path) := do
  let folder := checkedBuild h root arch
  if ← d.isDirectory (folder.child "aotsdk").text then
    if ← d.isDirectory (folder.child "ilc").text then pure (some folder) else pure none
  else pure none

end Lookup

/-! ### The programs of a runtime -/

section Programs

/-- The program that runs an assembly on the checked build. -/
def coreRun (h : Host) (l : RuntimeLayout) : Except MissingPart Path :=
  match l.checked with
  | some dir => .ok (dir.child (if h.os = .windows then "CoreRun.exe" else "corerun"))
  | none => .error .coreRun

/-- The script that stands for the toolchain of the repository. -/
def dotnetScript (h : Host) (l : RuntimeLayout) : Except MissingPart Path :=
  match l.root with
  | some dir => .ok (dir.child (if h.os = .windows then "dotnet.cmd" else "dotnet.sh"))
  | none => .error .dotnetScript

/-- The compiler for native programs. -/
def ilc (h : Host) (l : RuntimeLayout) : Except MissingPart Path :=
  match l.nativeTools with
  | some dir => .ok ((dir.child "ilc").child (h.executableName "ilc"))
  | none => .error .ilc

end Programs

end RuntimeLayout

end JitInspect
