import JitInspect.Markup.Document
import JitInspect.Project.Basic
import JitInspect.Text.Blank

/-!
# Reading project files

A project file holds groups of properties. Of the groups without a condition the properties count,
the last one of each name. They tell the frameworks that the project is built for, where the output
goes and what the assembly is called; each framework gives one release and one debug configuration.
-/

namespace JitInspect

open Markup

/-- Why a project file cannot be read. -/
inductive LoadFault where
  | notFound (path : Path)
  | malformed (path : Path)
  | encoding (f : MarkupFault)
  | path (f : FileFault)
  deriving DecidableEq, Repr

/-- What is said of the fault. -/
def LoadFault.message : LoadFault → Text
  | notFound p => "Project file not found: " ++ p.text
  | malformed p => "Cannot parse project file " ++ p.text
  | encoding f => f.message
  | path f => f.message

/-- The properties of a project file in document order. -/
structure Properties where
  entries : List (Text × Text)

namespace Properties

/-- Whether the element is a group of properties that hold without a condition. -/
def isGroup (e : Element) : Bool :=
  e.name.localName = "PropertyGroup".toList &&
    ((e.attribute? "Condition").getD []).isEmpty

/-- The property that an element gives. A blank one counts as none. -/
def ofElement (e : Element) : Option (Text × Text) :=
  let value := Text.strip e.text
  if value.isEmpty then none else some (e.name.localName, value)

/-- The properties of a document. Groups may be anywhere in it. -/
def ofRoot (root : Element) : Properties :=
  ⟨(root.all.filter isGroup).flatMap fun g => g.children.filterMap ofElement⟩

/-- The value of a property: the last one that is given. -/
def get? (p : Properties) (name : Text) : Option Text := p.entries.reverse.lookup name

/-- The frameworks that a list with semicolons names. -/
def splitFrameworks (t : Text) : List Text :=
  ((Text.splitOn [';'] t).map Text.strip).filter (· ≠ [])

/-- The frameworks of the project; a project that names none has one that is not known. -/
def frameworks (p : Properties) : List (Option Text) :=
  let written := (p.get? "TargetFrameworks" <|> p.get? "TargetFramework").getD []
  match splitFrameworks written with
  | [] => [none]
  | fs => fs.map some

/-- Where the output goes when no property tells: a folder for each configuration and framework. -/
def usualOutput (name : Text) (framework : Option Text) : Text :=
  (((Path.ofText "bin").child name).child (framework.getD [])).text

/-- The build configuration of a name and a framework. -/
def configuration (p : Properties) (name : Text) (framework : Option Text) : BuildConfiguration :=
  { name
    framework
    outputPath := some (Text.replace ['\\'] ['/']
      ((p.get? "OutputPath").getD (usualOutput name framework)))
    assemblyName := p.get? "AssemblyName" }

/-- The names of the build configurations that every project has. -/
def configurationNames : List Text := ["Release", "Debug"]

/-- The build configurations of the project. -/
def configurations (p : Properties) : List BuildConfiguration :=
  configurationNames.flatMap fun name => p.frameworks.map (p.configuration name)

end Properties

namespace Project

/-- The project of a document at a path. -/
def ofRoot (path : Path) (root : Element) : Project :=
  { path := path.text, configurations := (Properties.ofRoot root).configurations }

/-- The project of a file's content. -/
def ofBytes (path : Path) (content : Bytes) : Except LoadFault Project :=
  match Element.ofBytes content with
  | .ok root => .ok (ofRoot path root)
  | .error .malformed => .error (.malformed path)
  | .error f => .error (.encoding f)

/-- Reads a project file. -/
def load (d : Disk) (written : Text) : Except LoadFault Project :=
  let path := Path.ofText written
  match d.isFile path.text with
  | .error f => .error (.path f)
  | .ok false => .error (.notFound path)
  | .ok true =>
    match d.readBytes path.text with
    | .error f => .error (.path f)
    | .ok content => ofBytes path content

end Project

end JitInspect
