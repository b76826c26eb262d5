import JitInspect.FileTree.Disk
import JitInspect.Settings.Check

/-!
# Projects

A project is known by the path of its file and by its build configurations, each of which may say
for which framework it builds, where it puts the output and what the assembly is called.
-/

namespace JitInspect

/-- A build configuration of a project. -/
structure BuildConfiguration where
  name : Text
  framework : Option Text := none
  outputPath : Option Text := none
  assemblyName : Option Text := none
  deriving DecidableEq, Repr

namespace BuildConfiguration

/-- Reads a build configuration. -/
def read (place : List Step) (v : RawValue) : Checked BuildConfiguration :=
  match v with
  | .record _ =>
    BuildConfiguration.mk <$> v.readRequired place "configuration" RawValue.readText
      <*> v.readField place "target_framework" none RawValue.readOptionalText
      <*> v.readField place "output_path" none RawValue.readOptionalText
      <*> v.readField place "assembly_name" none RawValue.readOptionalText
  | _ => .fault place .notRecord

/-- Reads a list of build configurations. -/
def readAll (place : List Step) (v : RawValue) : Checked (List BuildConfiguration) :=
  match v with
  | .list items => Checked.all (items.mapIdx fun i x => read (place ++ [.index i]) x)
  | _ => .fault place .notList

end BuildConfiguration

/-- A project. -/
structure Project where
  path : Text
  configurations : List BuildConfiguration := []
  deriving DecidableEq, Repr

namespace Project

/-- Reads a project. -/
def read (v : RawValue) : Checked Project :=
  Project.mk <$> v.readRequired [] "project_path" RawValue.readText
    <*> v.readField [] "configurations" [] BuildConfiguration.readAll

/-- The name of the project: the name of its file without the extension. -/
def name (p : Project) : Text := (Path.ofText p.path).stem

/-- The path of the project's file, absolute and without links. -/
def file (p : Project) (d : Disk) : Except FileFault Path := d.resolve (Path.ofText p.path)

/-- The folder of the project's file. -/
def folder (p : Project) (d : Disk) : Except FileFault Path := (p.file d).map Path.parent

end Project

end JitInspect
