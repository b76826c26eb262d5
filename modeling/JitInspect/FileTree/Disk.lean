import JitInspect.FileTree.Way
import JitInspect.Text.Quoted

/-!
# Operations on a disk

A disk is a file tree, the directory in which relative paths start, and the places that are barred.
The operations read, write, create, remove and copy what paths lead to. An operation that fails may
have done a part of its work, so that a compound operation gives back the disk also when it fails.
-/

namespace JitInspect

/-- A file tree as seen from a working directory. -/
structure Disk where
  tree : FileTree
  cwd : Location
  /-- Where access is denied: a directory there can be neither entered nor listed, a file neither read
  nor written, and where there is nothing, nothing can be created. -/
  barred : Location → Bool := fun _ => false

/-- Why an operation failed. -/
inductive FileFault where
  /-- The file system refuses the path. -/
  | refused (fault : PathFault) (path : Text)
  /-- The file system refuses a link at the path. -/
  | refusedLink (fault : PathFault) (target path : Text)
  /-- No path holds a null character. -/
  | nullCharacter
  /-- The content of a file is not well-formed text. -/
  | undecodable
  /-- A file would be copied onto itself. -/
  | sameFile (source target : Text)
  /-- The directory of a copy does not exist. -/
  | noTargetDirectory (target : Text)
  /-- A link stands where a directory is to be removed. -/
  | linkNotDirectory
  /-- Two stars stand beside other characters in the name of a pattern. -/
  | starsInName
  /-- Following the links of a path does not end. -/
  | endlessLinks (path : Text)
  /-- A directory is nested too deep to be copied. -/
  | tooDeep
  /-- Some entries of a directory could not be copied. -/
  | copies (faults : List Text)
  deriving DecidableEq, Repr

/-- The number and the words of a fault, and what it is about. -/
def PathFault.about (f : PathFault) (what : Text) : Text :=
  "[Errno " ++ Text.ofNat f.number ++ "] " ++ f.words ++ ": " ++ what

/-- What is said of the fault. -/
def FileFault.message : FileFault → Text
  | refused f p => f.about (Text.quoted p)
  | refusedLink f t p => f.about (Text.quoted t ++ " -> " ++ Text.quoted p)
  | nullCharacter => "embedded null byte"
  | undecodable => "invalid UTF-8"
  | sameFile s t => s ++ " and " ++ t ++ " are the same file"
  | noTargetDirectory t => "Directory does not exist: " ++ t
  | linkNotDirectory => "Cannot call rmtree on a symbolic link"
  | starsInName => "Invalid pattern: '**' can only be an entire path component"
  | endlessLinks p => "Symlink loop from " ++ Text.quoted p
  | tooDeep => "maximum recursion depth exceeded"
  | copies fs => "[" ++ Text.join ", " fs ++ "]"

/-- The word for the kind of the fault. -/
def FileFault.word : FileFault → Text
  | refused f _ | refusedLink f _ _ => f.word
  | noTargetDirectory _ => PathFault.missing.word
  | linkNotDirectory => "OSError"
  | nullCharacter | starsInName => "ValueError"
  | undecodable => "UnicodeDecodeError"
  | sameFile _ _ => "SameFileError"
  | endlessLinks _ => "RuntimeError"
  | tooDeep => "RecursionError"
  | copies _ => "Error"

/-- A path as it is named in a message about the path itself. -/
def Path.words (p : Path) : Text := "PosixPath(" ++ Text.quoted p.text ++ ")"

/-- What is said of the fault when the path was not written by the user. -/
def FileFault.messageOfPath : FileFault → Text
  | refused f p => f.about (Path.ofText p).words
  | f => f.message

/-- Whether the fault means that a path leads nowhere. -/
def FileFault.isMissing : FileFault → Bool
  | refused .missing _ => true
  | noTargetDirectory _ => true
  | _ => false

/-- Whether the fault means that access is denied. -/
def FileFault.isDenied : FileFault → Bool
  | refused .denied _ => true
  | _ => false

/-- Whether the fault comes from the operating system or from copying. -/
def FileFault.isSystem : FileFault → Bool
  | refused .. | refusedLink .. | sameFile .. | noTargetDirectory _ | linkNotDirectory
  | copies _ => true
  | nullCharacter | undecodable | starsInName | endlessLinks _ | tooDeep => false

namespace Disk

/-! ### Questions -/

section Questions

/-- The character that no path may hold. -/
def nullChar : Char := Char.ofNat 0

/-- What a path leads to. -/
def look (d : Disk) (path : Text) (followLast : Bool := true) : Except FileFault Entry :=
  if path.contains nullChar then .error .nullCharacter
  else
    match d.tree.look d.barred d.cwd path followLast with
    | .ok e => .ok e
    | .error f => .error (.refused f path)

/-- The location that a path leads to; the last name need not exist. -/
def locate (d : Disk) (path : Text) (followLast : Bool := true) : Except FileFault Location :=
  if path.contains nullChar then .error .nullCharacter
  else
    match d.tree.locate d.barred d.cwd path followLast with
    | .ok loc => .ok loc
    | .error f => .error (.refused f path)

/-- Answers a question about the entry at a path. A path that leads nowhere answers no; it is an error
when a name is too long or access is denied. -/
def ask (d : Disk) (question : Entry → Bool) (path : Text) : Except FileFault Bool :=
  match d.look path with
  | .ok e => .ok (question e)
  | .error (.refused .nameTooLong p) => .error (.refused .nameTooLong p)
  | .error (.refused .denied p) => .error (.refused .denied p)
  | .error _ => .ok false

/-- Whether an entry is a file. -/
def entryIsFile : Entry → Bool
  | .file _ => true
  | _ => false

/-- Whether an entry is a directory. -/
def entryIsDirectory : Entry → Bool
  | .directory => true
  | _ => false

/-- Whether the path leads to a file. -/
def isFile (d : Disk) (path : Text) : Except FileFault Bool := d.ask entryIsFile path

/-- Whether the path leads to a directory. -/
def isDirectory (d : Disk) (path : Text) : Except FileFault Bool := d.ask entryIsDirectory path

/-- Whether the path leads to a file; a path that cannot be followed does not. -/
def holdsFile (d : Disk) (path : Text) : Bool := (d.isFile path).toOption.getD false

/-- Whether the path leads to a directory; a path that cannot be followed does not. -/
def holdsDirectory (d : Disk) (path : Text) : Bool := (d.isDirectory path).toOption.getD false

/-- Whether the path leads to anything. -/
def holds (d : Disk) (path : Text) : Bool := (d.look path).toOption.isSome

/-- The content of the file. -/
def readBytes (d : Disk) (path : Text) : Except FileFault Bytes :=
  match d.locate path with
  | .error f => .error f
  | .ok loc =>
    match d.tree.get? loc with
    | none => .error (.refused .missing path)
    | some e =>
      if d.barred loc then .error (.refused .denied path)
      else
        match e with
        | .file content => .ok content
        | _ => .error (.refused .isDirectory path)

/-- The names in a directory, in ascending order. -/
def names (d : Disk) (path : Text) : Except FileFault (List Text) :=
  match d.locate path with
  | .error f => .error f
  | .ok loc =>
    match d.tree.get? loc with
    | some .directory =>
      if d.barred loc then .error (.refused .denied path) else .ok (d.tree.names loc)
    | some _ => .error (.refused .notDirectory path)
    | none => .error (.refused .missing path)

/-- The absolute path without links. It is an error when links that lead back to themselves keep it
from being looked at. -/
def resolve (d : Disk) (p : Path) : Except FileFault Path :=
  if p.text.contains nullChar then .error .nullCharacter
  else
    let real := d.tree.realPath d.cwd p
    match d.tree.look d.barred d.cwd real.text with
    | .error .linkLoop => .error (.endlessLinks real.text)
    | _ => .ok real

end Questions

/-! ### Single changes -/

section Changes

/-- The disk with the content in the file, which is created when it is missing. Links have been
followed where the content is put, so that no link stands there. -/
def writeBytes (d : Disk) (path : Text) (content : Bytes) : Except FileFault Disk :=
  match d.locate path with
  | .error f => .error f
  | .ok loc =>
    match d.tree.get? loc with
    | some .directory => .error (.refused .isDirectory path)
    | some (.link _) => .error (.refused .linkLoop path)
    | some (.file _) | none =>
      if d.barred loc then .error (.refused .denied path)
      else .ok { d with tree := d.tree.put loc (.file content) }

/-- The disk with a new empty file. A file of this name makes room for it, also when access to that one
is denied. -/
def createFile (d : Disk) (path : Text) : Except FileFault Disk :=
  match d.locate path with
  | .error f => .error f
  | .ok loc =>
    match d.tree.get? loc with
    | some (.file _) => .ok { d with tree := d.tree.put loc (.file []) }
    | _ => d.writeBytes path []

/-- The disk with a new directory. -/
def makeDirectory (d : Disk) (path : Text) : Except FileFault Disk :=
  match d.locate path false with
  | .error f => .error f
  | .ok loc =>
    match d.tree.get? loc with
    | some _ => .error (.refused .present path)
    | none =>
      if d.barred loc then .error (.refused .denied path)
      else .ok { d with tree := d.tree.put loc .directory }

/-- The disk without the file or link. -/
def remove (d : Disk) (path : Text) : Except FileFault Disk :=
  match d.locate path false with
  | .error f => .error f
  | .ok loc =>
    match d.tree.get? loc with
    | some .directory => .error (.refused .isDirectory path)
    | some _ => .ok { d with tree := d.tree.erase loc }
    | none => .error (.refused .missing path)

/-- Whether the directory, or one below it, is barred, so that not all that is in it can be removed. -/
def holdsBarred (d : Disk) (loc : Location) : Bool :=
  d.barred loc || ((d.tree.inside loc).entriesFrom loc).any fun (inner, e) =>
    entryIsDirectory e && d.barred inner

/-- The disk without the directory and all that is below it. -/
def removeTree (d : Disk) (path : Text) : Except FileFault Disk :=
  match d.locate path false with
  | .error f => .error f
  | .ok loc =>
    match d.tree.get? loc with
    | some .directory =>
      if d.holdsBarred loc then .error (.refused .denied path)
      else .ok { d with tree := d.tree.eraseWithin loc }
    | some (.file _) => .error (.refused .notDirectory path)
    | some (.link _) =>
      match d.look path with
      | .error f => .error f
      | .ok _ => .error .linkNotDirectory
    | none => .error (.refused .missing path)

end Changes

/-! ### Compound changes -/

section Compound

/-- A change that may fail and then leaves behind what it has done so far. -/
abbrev Change := ExceptT FileFault (StateM Disk)

/-- A single change, which leaves the disk as it is when it fails. -/
def single (f : Disk → Except FileFault Disk) : Change Unit := fun d =>
  match f d with
  | .ok d' => (.ok (), d')
  | .error e => (.error e, d)

/-- Creates the directory. One that is there already is welcome; the question says whether it is. -/
def makeDirectoryIfMissing (isThere : Disk → Except FileFault Bool) (path : Text) : Change Unit :=
  tryCatch (single fun d => d.makeDirectory path) fun e => do
    match e with
    | .refused .missing _ => throw e
    | .refused _ _ =>
      match isThere (← get) with
      | .ok true => pure ()
      | .ok false => throw e
      | .error e => throw e
    | _ => throw e

/-- Creates the directory and those above it that are missing. The number bounds how many. -/
def makePathWithin : Nat → Path → Change Unit
  | 0, p => makeDirectoryIfMissing (·.isDirectory p.text) p.text
  | n + 1, p =>
    tryCatch (makeDirectoryIfMissing (·.isDirectory p.text) p.text) fun e => do
      if e = .refused .missing p.text && p.parent ≠ p then
        makePathWithin n p.parent
        makeDirectoryIfMissing (·.isDirectory p.text) p.text
      else throw e

/-- Creates the directory and those above it that are missing. -/
def makePath (p : Path) : Change Unit := makePathWithin p.parts.length p

/-- Creates the directory and those above it that are missing, from the top down, so that a fault is
the one of the highest that cannot be created. That one of them is there but is no directory is left
to the one below. The number bounds how many are above it. -/
def makeFoldersWithin : Nat → Path → Change Unit
  | 0, p => makeDirectoryIfMissing (fun d => .ok (d.holdsDirectory p.text)) p.text
  | n + 1, p => do
    unless (← get).holds p.parent.text do
      tryCatch (makeFoldersWithin n p.parent) fun e =>
        match e with
        | .refused .present _ => pure ()
        | e => throw e
    makeDirectoryIfMissing (fun d => .ok (d.holdsDirectory p.text)) p.text

/-- Creates the directory and those above it that are missing, from the top down. -/
def makeFolders (p : Path) : Change Unit := makeFoldersWithin p.parts.length p

/-- Whether both paths lead to the same entry. -/
def isSame (d : Disk) (source target : Text) : Bool :=
  match d.look source, d.look target, d.locate source, d.locate target with
  | .ok _, .ok _, .ok a, .ok b => a = b
  | _, _, _, _ => false

/-- The disk with the content of the one file in the other. -/
def withCopy (d : Disk) (source target : Text) : Except FileFault Disk :=
  match d.readBytes source with
  | .error e => .error e
  | .ok content =>
    match d.writeBytes target content with
    | .ok d' => .ok d'
    | .error (.refused .isDirectory p) =>
      .error (if d.holds target then .refused .isDirectory p else .noTargetDirectory target)
    | .error e => .error e

/-- Copies the content of a file into a file. The words are those that name the two files when they
are one. -/
def copyContent (source target sourceWords targetWords : Text) : Change Unit := single fun d =>
  if d.isSame source target then .error (.sameFile sourceWords targetWords)
  else d.withCopy source target

/-- Copies a file. -/
def copyFile (source target : Path) : Change Unit :=
  copyContent source.text target.text source.words target.words

/-- The path of a name in a directory. -/
def inside (dir name : Text) : Text :=
  if dir.getLast? = some '/' then dir ++ name else dir ++ "/" ++ name

/-- Copies a directory entry to a path, or into the directory that is there. -/
def copyEntry (source target name : Text) : Change Unit := do
  let target' := if (← get).holdsDirectory target then inside target name else target
  copyContent source target' ("<DirEntry " ++ Text.quoted name ++ ">") (Text.quoted target')

/-- The faults of copying one entry, as they are listed. -/
def entryFaults (source target : Text) : FileFault → List Text
  | .copies fs => fs
  | .sameFile a b => (FileFault.sameFile a b).message.map fun c => Text.quoted [c]
  | f => ["(" ++ Text.join ", " ([source, target, f.message].map Text.quoted) ++ ")"]

/-- Whether a copying fault is collected, so that the other entries are still copied. -/
def collects (f : FileFault) : Bool := f.isSystem

/-- Copies what is in a directory into another one, which may exist. Links are followed. An entry
that cannot be copied does not keep the others from being copied; all faults are listed at the end.
The number bounds how many directories are inside one another. -/
def copyTreeWithin : Nat → Text → Text → Change Unit
  | 0, _, _ => throw .tooDeep
  | depth + 1, source, target => do
    match (← get).names source with
    | .error e => throw e
    | .ok names =>
      makeFolders (Path.ofText target)
      let faults ← names.foldlM (fun faults name => do
        let origin := inside source name
        let goal := inside target name
        let copied : Except FileFault Unit ← tryCatch
          (do
            match (← get).look origin with
            | .ok .directory => copyTreeWithin depth origin goal
            | .error (.refused .linkLoop p) => throw (.refused .linkLoop p)
            | _ => copyEntry origin goal name
            pure (.ok ()))
          fun e => if collects e then pure (.error e) else throw e
        match copied with
        | .ok () => pure faults
        | .error e => pure (faults ++ entryFaults origin goal e)) []
      unless faults.isEmpty do throw (.copies faults)

/-- The largest number of directories inside one another that a copy goes down. A directory that is
copied into itself has no end, and the copy stops here. -/
def maxNested : Nat := 490

/-- Copies what is in a directory into another one, which may exist. -/
def copyTree (source target : Path) : Change Unit :=
  copyTreeWithin maxNested source.text target.text

end Compound

/-! ### What is on the disk -/

section Snapshot

/-- The disk with a new link. -/
def makeLink (d : Disk) (path target : Text) : Except FileFault Disk :=
  if target.contains nullChar then .error .nullCharacter
  else if target.isEmpty then .error (.refusedLink .missing target path)
  else if maxPathBytes < (Text.toUtf8 target).length then
    .error (.refusedLink .nameTooLong target path)
  else
    match d.locate path false with
    | .error (.refused f p) => .error (.refusedLink f target p)
    | .error f => .error f
    | .ok loc =>
      match d.tree.get? loc with
      | some _ => .error (.refusedLink .present target path)
      | none =>
        if d.barred loc then .error (.refusedLink .denied target path)
        else .ok { d with tree := d.tree.put loc (.link target) }

/-- Denies access to where the path leads. -/
def bar (d : Disk) (path : Text) : Disk :=
  match d.locate path with
  | .ok loc => { d with barred := fun other => other = loc || d.barred other }
  | .error _ => d

/-- Creates a directory, a link or, in place of what it held before, a file, with the directories
above it. -/
def plant (path : Text) (e : Entry) : Change Unit := do
  let p := Path.ofText path
  match e with
  | .directory => makePath p
  | .file content => do
    makePath p.parent
    single fun d => d.writeBytes p.text content
  | .link target => do
    makePath p.parent
    single fun d => d.makeLink p.text target

/-- Removes whatever is at the path, with all that is below it. -/
def discard (path : Text) : Change Unit := single fun d =>
  match d.locate path false with
  | .ok loc => .ok { d with tree := d.tree.eraseWithin loc }
  | .error _ => .ok d

/-- The files below a location with their contents, and the empty directories, which end with a
slash and have none; in ascending order of their paths as seen from there. -/
def snapshot (d : Disk) (top : Location) : List (Text × Option Bytes) :=
  (((d.tree.inside top).entriesFrom []).filterMap fun (loc, e) =>
    let path := Text.join "/" loc
    match e with
    | .file content => some (path, some content)
    | .directory => if (d.tree.names (top ++ loc)).isEmpty then some (path ++ "/", none) else none
    | .link _ =>
      match d.look (Path.ofLocation (top ++ loc)).text with
      | .ok (.file content) => some (path, some content)
      | _ => none).mergeSort fun a b => !(b.1 < a.1)

end Snapshot

end Disk

end JitInspect
