import JitInspect.Log
import JitInspect.Run.Failure

/-!
# The world of a run

A run changes files and starts commands. What a command does is decided outside the program, so a
world comes with the outcomes of the commands that are still to be started, in order; a command
beyond the last outcome does nothing and prints nothing. The world also keeps what can be seen of a
run: the commands with the disk as it was when each started, the progress that was reported, what
was printed for other programs to read, and the log.

The run and every command of it share one token. Once it is cancelled it stays so, and the run stops
at the next checkpoint.
-/

namespace JitInspect

/-- A command. Its variables are set over those of this program. -/
structure Command where
  executable : Text
  args : List Text
  environment : Variables := []
  folder : Option Text := none
  deriving DecidableEq, Repr

/-- What a command has printed when it ends. Anything on the error stream means that it failed. -/
structure Printed where
  output : Text := []
  errors : Text := []
  deriving DecidableEq, Repr

/-- Whether the command succeeded. -/
def Printed.ok (p : Printed) : Bool := p.errors.isEmpty

/-- What happens while a command runs. -/
structure Outcome where
  /-- What the command does to the disk. When it fails, the command ends with the fault at once. -/
  effect : Command → Disk.Change Unit := fun _ => pure ()
  /-- The token is cancelled meanwhile. -/
  cancels : Bool := false
  /-- How it ends. -/
  ending : Except Failure Printed := .ok {}

/-- A command that was started. -/
structure Started where
  command : Command
  /-- The disk when it started. -/
  disk : Disk

/-- The world of a run. What is recorded stands last first. -/
structure World where
  disk : Disk
  outcomes : List Outcome := []
  /-- Whether the token is cancelled; there may be none. -/
  token : Option Bool := none
  started : List Started := []
  progress : List Text := []
  printed : List Text := []
  log : List LogRecord := []
  /-- How many temporary files were created. -/
  temporaries : Nat := 0
  /-- How many identifiers were drawn. -/
  identifiers : Nat := 0
  /-- The temporary files to delete when the run ends. -/
  toDelete : List Text := []

namespace World

/-- Whether the token is there and cancelled. -/
def isCancelled (w : World) : Bool := w.token = some true

/-- The world with the token cancelled, if there is one. -/
def cancel (w : World) : World := { w with token := w.token.map fun _ => true }

/-- The outcome of the next command. -/
def nextOutcome (w : World) : Outcome := w.outcomes.head?.getD {}

/-- The world after a command has started. -/
def starting (w : World) (c : Command) : World := { w with started := ⟨c, w.disk⟩ :: w.started }

/-- How a command ends with an outcome, and the world after it. -/
def ending (w : World) (c : Command) (o : Outcome) : Except Failure Printed × World :=
  match StateT.run (o.effect c).run w.disk with
  | (.error f, disk) => (.error (.ofFile f), { w with disk })
  | (.ok (), disk) =>
    (o.ending, { w with disk, token := if o.cancels then w.token.map fun _ => true else w.token })

/-- How the next command ends, and the world after it. -/
def after (w : World) (c : Command) : Except Failure Printed × World :=
  ({ w.starting c with outcomes := w.outcomes.tail }).ending c w.nextOutcome

@[simp] theorem isCancelled_ending {w : World} (c : Command) (o : Outcome) (h : w.isCancelled) :
    (w.ending c o).2.isCancelled := by
  simp only [isCancelled, decide_eq_true_eq] at h ⊢
  unfold ending
  rcases StateT.run (o.effect c).run w.disk with ⟨_ | _, _⟩ <;> simp [h]

@[simp] theorem started_ending (w : World) (c : Command) (o : Outcome) :
    (w.ending c o).2.started = w.started := by
  unfold ending
  rcases StateT.run (o.effect c).run w.disk with ⟨_ | _, _⟩ <;> rfl

@[simp] theorem temporaries_ending (w : World) (c : Command) (o : Outcome) :
    (w.ending c o).2.temporaries = w.temporaries := by
  unfold ending
  rcases StateT.run (o.effect c).run w.disk with ⟨_ | _, _⟩ <;> rfl

@[simp] theorem toDelete_ending (w : World) (c : Command) (o : Outcome) :
    (w.ending c o).2.toDelete = w.toDelete := by
  unfold ending
  rcases StateT.run (o.effect c).run w.disk with ⟨_ | _, _⟩ <;> rfl

@[simp] theorem isCancelled_after_of_isCancelled {w : World} (c : Command) (h : w.isCancelled) :
    (w.after c).2.isCancelled :=
  isCancelled_ending c w.nextOutcome h

@[simp] theorem started_after (w : World) (c : Command) :
    (w.after c).2.started = ⟨c, w.disk⟩ :: w.started :=
  started_ending _ c w.nextOutcome

@[simp] theorem temporaries_after (w : World) (c : Command) :
    (w.after c).2.temporaries = w.temporaries :=
  temporaries_ending _ c w.nextOutcome

@[simp] theorem toDelete_after (w : World) (c : Command) : (w.after c).2.toDelete = w.toDelete :=
  toDelete_ending _ c w.nextOutcome

end World

/-- A step of a run, which may fail and then leaves behind what it has done so far. -/
abbrev Action := ExceptT Failure (StateM World)

namespace Action

/-- Does a step and shows how it ended and the world it leaves behind. -/
def perform {α : Type} (a : Action α) (w : World) : Except Failure α × World := StateT.run a.run w

/-- Stops when the token is cancelled. -/
def checkpoint : Action Unit := do
  if (← get).isCancelled then throw (.cancelled Failure.cancelledMessage)

/-- Starts a command and waits for it to end. -/
def start (c : Command) : Action Printed := do
  let (ended, w) := (← get).after c
  set w
  match ended with
  | .ok p => pure p
  | .error f => throw f

/-- Reports progress to the user. -/
def report (t : Text) : Action Unit := modify fun w => { w with progress := t :: w.progress }

/-- Prints a text as it is. -/
def print (t : Text) : Action Unit := modify fun w => { w with printed := t :: w.printed }

/-- Adds a record to the log. -/
def log (r : LogRecord) : Action Unit := modify fun w => { w with log := r :: w.log }

/-- A question about the disk. -/
def ask {α : Type} (question : Disk → Except FileFault α) : Action α := do
  match question (← get).disk with
  | .ok a => pure a
  | .error f => throw (.ofFile f)

/-- A change of the disk. -/
def change {α : Type} (c : Disk.Change α) : Action α := do
  let w ← get
  match StateT.run c.run w.disk with
  | (.ok a, d) => do
    set { w with disk := d }
    pure a
  | (.error f, d) => do
    set { w with disk := d }
    throw (.ofFile f)

/-- A step that may fail for a reason of its own. -/
def lift {α ε : Type} (toFailure : ε → Failure) (e : Except ε α) : Action α :=
  match e with
  | .ok a => pure a
  | .error x => throw (toFailure x)

/-- Writes a text into a file. -/
def writeText (file content : Text) : Action Unit :=
  change (Disk.single fun d => d.writeBytes file (Text.toUtf8 content))

/-- The text of a file. What is not well-formed is replaced. -/
def readText (file : Text) : Action Text :=
  ask fun d => (d.readBytes file).map fun b => Text.unifyNewlines (Text.ofUtf8 b)

/-- What the name of every temporary file starts with. -/
def temporaryStart : Text := "jitscope_"

/-- The path of the temporary file with the given number. -/
def temporaryPath (h : Host) (n : Nat) (extension : Text) : Text :=
  (h.temp.child (temporaryStart ++ Text.ofNat n ++ extension)).text

/-- Creates an empty temporary file and gives its path. -/
def temporaryFile (h : Host) (extension : Text) : Action Text := do
  modify fun w => { w with temporaries := w.temporaries + 1 }
  let file := temporaryPath h (← get).temporaries extension
  change (Disk.single fun d => d.createFile file)
  pure file

/-- The number of hexadecimal digits of an identifier. -/
def identifierLength : Nat := 32

/-- An identifier that no other one equals. -/
def identifier : Action Text := do
  modify fun w => { w with identifiers := w.identifiers + 1 }
  pure (Text.hex identifierLength (← get).identifiers)

/-- Deletes a temporary file. One that is gone already is welcome; a file that cannot be deleted is
logged and kept. -/
def delete (file : Text) : Action Unit := do
  let w ← get
  match w.disk.remove file with
  | .ok d => set { w with disk := d }
  | .error f =>
    unless f.isMissing do
      log ⟨.warning, "Failed to delete temp file " ++ file⟩

/-- Has a temporary file deleted when the run ends. -/
def deleteLater (files : List Text) : Action Unit :=
  modify fun w => { w with toDelete := w.toDelete ++ files }

/-- Does a step and then another one, also when the first one fails. -/
def thenAlways {α : Type} (a : Action α) (cleanup : Action Unit) : Action α := do
  let r : Except Failure α ← tryCatch (Except.ok <$> a) fun f => pure (.error f)
  cleanup
  match r with
  | .ok x => pure x
  | .error f => throw f

end Action

end JitInspect
