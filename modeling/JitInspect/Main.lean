import JitInspect.CommandLine.Program

/-!
# The executable

The executable runs the program on the files and folders that its command line names. They are read
before the program runs, and what the program has changed is written back when it ends. Other
programs are not started from here: a run that needs one ends with a failure where it would start.
-/

namespace JitInspect

namespace Executable

open CommandLine

/-! ### What the program is run in -/

/-- The environment variables that set defaults. -/
def variableNames : List String :=
  ["JITSCOPE_ENV_PREFIX", "JITSCOPE_DOTNET", "JITSCOPE_ARCH", "JITSCOPE_GRAPHVIZ_DOT",
    "JITSCOPE_LOCAL_RUNTIME"]

/-- The environment variables that are set. -/
def environment : IO Variables := do
  let found ← variableNames.mapM fun n => do
    return (← IO.getEnv n).map fun v => (n.toList, v.toList)
  return found.filterMap id

/-- The folder for temporary files. -/
def temporaryFolder : Path := ⟨.root, ["tmp"]⟩

/-- The host of the program. -/
def host : IO Host := do
  let home := (← IO.getEnv "HOME").getD "/"
  return {
    temp := temporaryFolder
    home := home.toList
    defaults := .ofEnvironment (← environment) }

/-- Where runs take place on a host. -/
def workshop (h : Host) : Workshop where
  host := h
  loaders := ⟨h.temp, h.defaults.dotnet⟩
  graphs := (h.temp.child "jitscope").child "flowgraphs"

/-- Reads a stream to its end. -/
partial def readAll (s : IO.FS.Stream) (soFar : ByteArray) : IO ByteArray := do
  let piece ← s.read 65536
  if piece.isEmpty then return soFar else readAll s (soFar ++ piece)

/-- The input, which is read only when the command line asks for it. -/
def input (arguments : List Text) : IO (Option Text) := do
  if arguments.contains inputName then
    return Text.ofUtf8? (← readAll (← IO.getStdin) .empty).toList
  else return some []

/-! ### Files -/

/-- What may be a path on a command line: every argument, and what an argument has behind an equals
sign. -/
def mayBePaths (arguments : List Text) : List Text :=
  arguments ++ arguments.filterMap fun a => (Text.splitFirst "=" a).map Prod.snd

/-- Adds what a path leads to on the machine, if it leads anywhere. A file that cannot be read is barred.
-/
def load (d : Disk) (path : Text) : IO Disk := do
  let real := (← IO.currentDir) / String.ofList path
  if ← real.isDir then return (Disk.plant path .directory d).2
  else if ← real.pathExists then
    try
      let content ← IO.FS.readBinFile real
      return (Disk.plant path (.file content.toList) d).2
    catch _ => return ((Disk.plant path (.file []) d).2).bar path
  else return d

/-- The disk with all that the command line names. -/
def disk (arguments : List Text) : IO Disk := do
  let current := (← IO.currentDir).toString.toList
  let empty : Disk := { tree := .empty, cwd := Path.namesOf current }
  let d := (Disk.plant temporaryFolder.text .directory (Disk.plant current .directory empty).2).2
  (mayBePaths arguments).foldlM load d

/-- Writes a file or folder of the disk to the machine. -/
def save (path : Text) : Option Bytes → IO Unit
  | none => IO.FS.createDirAll (String.ofList path)
  | some content => do
    IO.FS.createDirAll (String.ofList (Path.ofText path).parent.text)
    IO.FS.writeBinFile (String.ofList path) ⟨content.toArray⟩

/-- Writes back what the program has changed. -/
def saveChanges (before after : Disk) : IO Unit := do
  let old := before.snapshot []
  let new := after.snapshot []
  for (path, content) in new do
    unless old.contains (path, content) do save ('/' :: path) content
  for (path, content) in old do
    if content.isSome && (new.lookup path).isNone then
      IO.FS.removeFile (String.ofList ('/' :: path))

/-! ### Running -/

/-- What is said when another program would be started. -/
def notStarted : Text := "Other programs cannot be started."

/-- Prints what the program has printed and reported. -/
def display (w : World) : IO Unit := do
  IO.print (String.ofList w.printed.reverse.flatten)
  for line in w.progress.reverse do IO.eprintln (String.ofList line)

/-- Tells of a failure that nobody foresaw. -/
def tell (f : Failure) : IO Unit :=
  match f with
  | .unforeseen u => IO.eprintln (String.ofList (u.word ++ ": " ++ u.message))
  | .cancelled m | .rejected m | .tool m => IO.eprintln (String.ofList m)
  | .interrupted => IO.eprintln (String.ofList interruptedMessage)

/-- Runs the program on the arguments. -/
def run (arguments : List Text) : IO UInt32 := do
  let terminal : Terminal :=
    { shop := workshop (← host), input := ← input arguments, duration := "0.0" }
  let before ← disk arguments
  let refusal : Outcome := { ending := .error (.unforeseen (.system notStarted)) }
  let (ended, after) :=
    Action.perform (CommandLine.run terminal arguments) { disk := before, outcomes := [refusal] }
  saveChanges before after.disk
  display after
  match ended with
  | .ok code => return code.number.toUInt32
  | .error f => do
    tell f
    return 1

end Executable

end JitInspect

/-- Runs the program on the command line. -/
def main (args : List String) : IO UInt32 := JitInspect.Executable.run (args.map String.toList)
