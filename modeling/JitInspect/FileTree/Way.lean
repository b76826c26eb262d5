import JitInspect.FileTree.Basic
import JitInspect.FileTree.Path

/-!
# Ways in the file tree

A written path leads over directories and links to a location, by the rules of a POSIX file system:
a name of more than 255 bytes or a path of more than 4095 is too long, a way that follows more than
forty links is a loop, and a directory that is barred cannot be entered. The real path of a location
has no links in it.
-/

namespace JitInspect

/-- Why the file system refuses an operation. -/
inductive PathFault where
  | missing
  | denied
  | present
  | notDirectory
  | isDirectory
  | nameTooLong
  | linkLoop
  deriving DecidableEq, Repr

namespace PathFault

/-- The number of the fault. -/
def number : PathFault → Nat
  | missing => 2
  | denied => 13
  | present => 17
  | notDirectory => 20
  | isDirectory => 21
  | nameTooLong => 36
  | linkLoop => 40

/-- The words for the fault. -/
def words : PathFault → Text
  | missing => "No such file or directory"
  | denied => "Permission denied"
  | present => "File exists"
  | notDirectory => "Not a directory"
  | isDirectory => "Is a directory"
  | nameTooLong => "File name too long"
  | linkLoop => "Too many levels of symbolic links"

/-- The word for the kind of the fault. -/
def word : PathFault → Text
  | missing => "FileNotFoundError"
  | denied => "PermissionError"
  | present => "FileExistsError"
  | notDirectory => "NotADirectoryError"
  | isDirectory => "IsADirectoryError"
  | nameTooLong | linkLoop => "OSError"

end PathFault

/-- The largest number of bytes in a name. -/
def maxNameBytes : Nat := 255

/-- The largest number of bytes in a path. -/
def maxPathBytes : Nat := 4095

/-- The largest number of links followed on one way. -/
def maxLinks : Nat := 40

/-- Whether a name is too long for the tree. -/
def tooLong (name : Text) : Bool := maxNameBytes < (Text.toUtf8 name).length

namespace FileTree

/-! ### Finding the way -/

section Ways

/-- The names of a written path, with those that a lookup does not pass over. A slash at the end
asks for a directory, as a dot does. -/
def steps (t : Text) : List Text :=
  let ns := Text.splitOn ['/'] t
  let last := ns.getLast?.getD []
  ns.dropLast.filter (· ≠ []) ++ [if last.isEmpty then ['.'] else last]

/-- Where a lookup starts. -/
def startOf (cwd : Location) (t : Text) : Location :=
  if Text.startsWith t ['/'] then [] else cwd

/-- Follows the names from a directory. `enter` goes on from the directory of a link with the names
of its target and the names behind it; the last name is followed only on demand. A dot stays where it
is; every other name is looked up in the directory before it, which must not be barred. -/
def walkWith (t : FileTree) (barred : Location → Bool)
    (enter : Location → List Text → Except PathFault Location) (followLast : Bool) :
    Location → List Text → Except PathFault Location
  | loc, [] => .ok loc
  | loc, n :: ns =>
    if n = ['.'] then walkWith t barred enter followLast loc ns
    else if barred loc then .error .denied
    else if n = ['.', '.'] then walkWith t barred enter followLast loc.dropLast ns
    else if tooLong n then .error .nameTooLong
    else
      match t.get? (loc ++ [n]) with
      | some .directory => walkWith t barred enter followLast (loc ++ [n]) ns
      | some (.file _) => if ns.isEmpty then .ok (loc ++ [n]) else .error .notDirectory
      | some (.link target) =>
        if ns.isEmpty && !followLast then .ok (loc ++ [n])
        else enter (startOf loc target) (steps target ++ ns)
      | none => if ns.isEmpty then .ok (loc ++ [n]) else .error .missing

/-- Follows the names from a directory over at most so many links. -/
def walk (t : FileTree) (barred : Location → Bool) (followLast : Bool) :
    Nat → Location → List Text → Except PathFault Location
  | 0 => walkWith t barred (fun _ _ => .error .linkLoop) followLast
  | links + 1 => walkWith t barred (walk t barred followLast links) followLast

/-- The location that a written path leads to; the last name need not exist. -/
def locate (t : FileTree) (barred : Location → Bool) (cwd : Location) (path : Text)
    (followLast : Bool := true) : Except PathFault Location :=
  if path.isEmpty then .error .missing
  else if maxPathBytes < (Text.toUtf8 path).length then .error .nameTooLong
  else
    let start := startOf cwd path
    if t.get? start = some .directory then walk t barred followLast maxLinks start (steps path)
    else .error .missing

/-- What a written path leads to. -/
def look (t : FileTree) (barred : Location → Bool) (cwd : Location) (path : Text)
    (followLast : Bool := true) : Except PathFault Entry :=
  match t.locate barred cwd path followLast with
  | .error f => .error f
  | .ok loc =>
    match t.get? loc with
    | some e => .ok e
    | none => .error .missing

end Ways

/-! ### The real path -/

section RealPath

/-- Two written paths one behind the other. An absolute one is not put behind anything. -/
def joinWritten (a b : Text) : Text :=
  if Text.startsWith b ['/'] then b
  else if a.isEmpty || a.getLast? = some '/' then a ++ b
  else a ++ '/' :: b

/-- Where links lead that have been met on the way; one that is being followed leads nowhere yet. -/
abbrev KnownLinks := List (Location × Option Location)

/-- Follows names as far as they exist and takes the others as they are. A link that leads back to
itself ends the way: it stands in the written path that is left. -/
def realWith (t : FileTree)
    (enter : KnownLinks → Location → Text → Except Text Location × KnownLinks) :
    KnownLinks → Location → List Text → Except Text Location × KnownLinks
  | known, loc, [] => (.ok loc, known)
  | known, loc, n :: ns =>
    if n = [] || n = ['.'] then realWith t enter known loc ns
    else if n = ['.', '.'] then realWith t enter known loc.dropLast ns
    else
      let place := loc ++ [n]
      match t.get? place with
      | some (.link target) =>
        match known.lookup place with
        | some (some goal) => realWith t enter known goal ns
        | some none => (.error (joinWritten (Path.text ⟨.root, place⟩) (Text.join "/" ns)), known)
        | none =>
          match enter ((place, none) :: known) loc target with
          | (.ok goal, known) => realWith t enter ((place, some goal) :: known) goal ns
          | (.error written, known) => (.error (joinWritten written (Text.join "/" ns)), known)
      | _ => realWith t enter known place ns

/-- Follows names over at most so many links, one within another. -/
def realFrom (t : FileTree) : Nat → KnownLinks → Location → List Text →
    Except Text Location × KnownLinks
  | 0 => realWith t fun known _ target => (.error target, known)
  | depth + 1 =>
    realWith t fun known loc target =>
      realFrom t depth known (startOf loc target) (Text.splitOn ['/'] target)

/-- Takes each pair of dots as one name less. -/
def normalize : Location → List Text → Location
  | loc, [] => loc
  | loc, n :: ns => if n = ['.', '.'] then normalize loc.dropLast ns else normalize (loc ++ [n]) ns

/-- The absolute path with all links followed, whether it exists or not. Each link is followed once,
so that the size of the tree is depth enough. -/
def realPath (t : FileTree) (cwd : Location) (p : Path) : Path :=
  let start := if p.isAbsolute then [] else cwd
  match (realFrom t (t.size + 1) [] start p.parts).1 with
  | .ok loc => ⟨.root, loc⟩
  | .error written =>
    let q := Path.ofText written
    ⟨q.anchor, normalize [] q.parts⟩

end RealPath

end FileTree

/-- The absolute path of a location. -/
def Path.ofLocation (loc : Location) : Path := ⟨.root, loc⟩

end JitInspect
