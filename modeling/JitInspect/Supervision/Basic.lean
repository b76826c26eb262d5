import JitInspect.Run.World
import JitInspect.Supervision.Stream

/-!
# Supervising a command

A command is started with both of its streams read line by line. Every line goes to the receiver and
is kept; the lines of both streams together are the output of the command, those of the error stream
alone its errors. When the command exits, the streams may stay open because commands that it has
started hold them; they are then read for a limited time. A failure of any kind, and a cancellation,
gives a report with a message in place of the errors. Whenever the supervision ends and the command
has not exited, it is killed and waited for.
-/

namespace JitInspect

namespace Supervision

/-- What happens when the command is killed. -/
inductive KillAnswer where
  | killed
  /-- There is no such process any more. -/
  | gone
  /-- The kill is refused. -/
  | refused
  deriving DecidableEq, Repr

/-- What is supervised, and what it meets. -/
structure Subject where
  command : Command
  /-- The folder that this program runs in. -/
  folder : Text
  /-- The number of the process. -/
  process : Nat
  /-- Why the command cannot be started. -/
  startFault : Option Text := none
  /-- The token is cancelled while the command is being started. -/
  cancelledAtStart : Bool := false
  hasOutput : Bool := true
  hasErrors : Bool := true
  /-- Somebody receives the lines. -/
  hasReceiver : Bool := true
  /-- The line that makes the receiver fail. -/
  refusedLine : Option Text := none
  killAnswer : KillAnswer := .killed

/-- A line of one of the two streams. -/
structure CapturedLine where
  isError : Bool
  text : Text
  deriving DecidableEq, Repr

/-- What is reported of a command. -/
structure Report where
  output : Text
  errors : Text
  process : Option Nat := none
  code : Option Int := none
  deriving DecidableEq, Repr

/-- Whether the command succeeded. -/
def Report.ok (r : Report) : Bool := r.errors.isEmpty

/-- How a supervision ends. -/
inductive Ending where
  | report (r : Report)
  /-- Nobody waits for the report any more. -/
  | abandoned
  deriving DecidableEq, Repr

end Supervision

open Supervision in
/-- The supervision of a command. What is recorded stands last first. -/
structure Supervision where
  subject : Subject
  /-- Whether the token is cancelled; there may be none. -/
  token : Option Bool
  started : Bool := false
  output : Supervision.Stream := {}
  errors : Supervision.Stream := {}
  captured : List CapturedLine := []
  /-- The lines that the receiver got. -/
  received : List CapturedLine := []
  fault : Option StreamFault := none
  exitCode : Option Int := none
  /-- The exit has been noticed. -/
  noticed : Bool := false
  kills : Nat := 0
  waits : Nat := 0
  log : List LogRecord := []
  ending : Option Ending := none

namespace Supervision

/-! ### What is said -/

section Words

/-- The command as it is typed. -/
def commandLine (c : Command) : Text := Text.join " " (c.executable :: c.args)

/-- The record of a start. -/
def startRecord (c : Command) : LogRecord :=
  ⟨.info, "Executing a command in directory \"" ++ c.folder.getD "None" ++ "\":\n\t" ++
    commandLine c ++ "\nEnv vars:\n" ++
    (c.environment.flatMap fun (k, v) => k ++ ['='] ++ v ++ ['\n'])⟩

/-- The record of a failure. -/
def failureRecord (c : Command) (why : Text) : LogRecord :=
  ⟨.warning, "Process " ++ c.executable ++ " failed: " ++ why⟩

/-- The record of streams that stay open after the exit. -/
def openRecord (process : Nat) : LogRecord :=
  ⟨.info, "Process " ++ Text.ofNat process ++
    " exited but its output pipes are still open (inherited by a child process)"⟩

/-- The lines as one text, without line ends around it. -/
def joined (ls : List CapturedLine) : Text :=
  Text.trim Text.isNewline (Text.join "\n" (ls.map (·.text)))

/-- The folder that the command runs in. -/
def folderOf (j : Subject) : Text :=
  match j.command.folder with
  | some f => if f.isEmpty then j.folder else f
  | none => j.folder

/-- The message in place of the errors of a command that failed. -/
def diagnosis (j : Subject) (why output : Text) : Text :=
  Text.trimEnd (· = '\n')
    ("RunProcess failed: " ++ why ++ ".\npath=" ++ j.command.executable ++ "\nargs=" ++
      Text.join " " j.command.args ++ "\nworkingdir=" ++ folderOf j ++ "\n" ++ output)

/-- The variables of a command that differ from those of this program, in ascending order. -/
def changedVariables (own : Variables) (c : Command) : Variables :=
  (c.environment.filter fun (k, v) => own.lookup k ≠ some v).mergeSort fun a b => !(b.1 < a.1)

end Words

/-! ### Lines -/

section Lines

/-- The lines captured so far, in order. -/
def lines (s : Supervision) : List CapturedLine := s.captured.reverse

/-- The stream of errors, or that of output. -/
def stream (s : Supervision) (isError : Bool) : Stream := if isError then s.errors else s.output

/-- Replaces a stream. -/
def setStream (s : Supervision) (isError : Bool) (x : Stream) : Supervision :=
  if isError then { s with errors := x } else { s with output := x }

/-- The reading of a stream has failed. The first fault of the two streams counts. -/
def failReading (s : Supervision) (isError : Bool) (f : StreamFault) : Supervision :=
  { s.setStream isError { s.stream isError with reading := .failed } with
    fault := s.fault <|> some f }

/-- A line as text: faults of its encoding are replaced, and line ends behind it are dropped. -/
def textOf (line : Bytes) : Text := Text.trimEnd Text.isNewline (Text.ofUtf8 line)

/-- Captures a line, which the receiver gets first. -/
def capture (isError : Bool) (s : Supervision) (line : Bytes) : Supervision :=
  if (s.stream isError).reading = .failed then s
  else
    let l : CapturedLine := ⟨isError, textOf line⟩
    if s.subject.hasReceiver then
      if s.subject.refusedLine = some l.text then s.failReading isError .receiver
      else { s with captured := l :: s.captured, received := l :: s.received }
    else { s with captured := l :: s.captured }

/-- A piece of a stream arrives. -/
def receive (s : Supervision) (isError : Bool) (piece : Bytes) : Supervision :=
  if (s.stream isError).reading ≠ .going then s
  else
    let (x, ls, fault) := (s.stream isError).feed piece
    let s := ls.foldl (capture isError) (s.setStream isError x)
    match fault with
    | some f => if (s.stream isError).reading = .failed then s else s.failReading isError f
    | none => s

/-- A stream ends. -/
def closeStream (s : Supervision) (isError : Bool) : Supervision :=
  if (s.stream isError).reading ≠ .going then s
  else
    let (x, ls) := (s.stream isError).close
    let s := ls.foldl (capture isError) (s.setStream isError { x with reading := .going })
    if (s.stream isError).reading = .failed then s else s.setStream isError x

/-- Whether both streams were read to their ends. -/
def allClosed (s : Supervision) : Bool :=
  s.output.reading = .closed && s.errors.reading = .closed

end Lines

end Supervision

end JitInspect
