import JitInspect.Run.Perform

/-!
# Sessions

In a session the latest request counts. A run that begins cancels the one before it and waits until
it is admitted; one run is admitted at a time, in the order of arrival. A run that was cancelled
while it waited does nothing. Only the result of the latest run is shown; the output that it
replaces is kept for comparison, unless it is blank. The flow graphs of a result stay on disk as
long as the result is the one that is shown.
-/

namespace JitInspect

/-- A session. Its runs are numbered from one in the order in which they began. -/
structure Session where
  /-- How many runs have begun: the number of the latest one. -/
  begun : Nat := 0
  /-- The latest run has not returned. -/
  isRunning : Bool := false
  /-- The runs whose tokens are cancelled. -/
  cancelled : List Nat := []
  /-- The run that is admitted. -/
  admitted : Option Nat := none
  /-- The runs that wait to be admitted, in the order of their arrival. -/
  waiting : List Nat := []
  output : Text := []
  previousOutput : Text := []
  lastResult : Option RunResult := none

namespace Session

/-- Whether the token of a run is cancelled. -/
def isCancelled (s : Session) (run : Nat) : Bool := s.cancelled.contains run

/-- Cancels the latest run if it has not returned. -/
def cancel (s : Session) : Session :=
  if s.isRunning && !s.isCancelled s.begun then { s with cancelled := s.begun :: s.cancelled }
  else s

/-- Whether a run that arrives is admitted at once. -/
def isFree (s : Session) : Bool := s.admitted.isNone && s.waiting.isEmpty

/-- A run begins: the one before it is cancelled, and it is admitted or waits. -/
def start (s : Session) : Session :=
  let run := s.begun + 1
  let admitted := if s.isFree then some run else s.admitted
  let waiting := if s.isFree then s.waiting else s.waiting ++ [run]
  { s.cancel with begun := run, isRunning := true, admitted, waiting }

/-- The run that has waited longest is admitted. -/
def admitNext (s : Session) : Session :=
  { s with admitted := s.waiting.head?, waiting := s.waiting.tail }

/-- The admitted run is done with its work. -/
def release (s : Session) : Session := { s with admitted := none }

/-- A run no longer waits. -/
def leave (s : Session) (run : Nat) : Session :=
  { s with waiting := s.waiting.filter (· ≠ run) }

/-- Shows an output. The one before it is kept unless it is blank. -/
def showOutput (s : Session) (output : Text) : Session :=
  { s with output, previousOutput := if Text.blank s.output then s.previousOutput else s.output }

/-- A run returns. The result of the latest one is shown; the other result that comes back is no
longer of use. -/
def conclude (s : Session) (run : Nat) (r : RunResult) : Session × Option RunResult :=
  if run ≠ s.begun then (s, some r)
  else
    (showOutput { s with isRunning := false, lastResult := some r } r.output, s.lastResult)

end Session

namespace RunResult

/-- The folders of the flow graphs of a result. -/
def folders (r : RunResult) : List Path :=
  (r.phases.filterMap fun p => p.file.map fun f => (Path.ofText f).parent).eraseDups

/-- Removes a folder of flow graphs. A folder that is gone already is welcome; one that cannot be
removed is logged and kept. -/
def removeFolder (folder : Path) : Action Unit := do
  let w ← get
  match w.disk.removeTree folder.text with
  | .ok d => set { w with disk := d }
  | .error f =>
    unless f.isMissing do
      Action.log ⟨.warning,
        "Failed to remove flow-graph folder " ++ folder.text ++ ": " ++ f.messageOfPath⟩

/-- Removes the flow graphs of a result that is no longer of use. -/
def discard (r : RunResult) : Action Unit := r.folders.forM removeFolder

end RunResult

namespace Session

/-- Concludes a run and removes the flow graphs that are no longer of use. -/
def concludeWith (s : Session) (run : Nat) (r : RunResult) : Action Session := do
  let (s, useless) := s.conclude run r
  useless.forM RunResult.discard
  pure s

/-- Runs a request to its end in a session in which no other run is under way. -/
def perform (w : Workshop) (s : Session) (r : Request) : Action (RunResult × Session) := do
  let s := s.start
  modify fun x => { x with token := some false }
  let result ← r.run w
  let s ← s.release.concludeWith s.begun result
  pure (result, s)

end Session

end JitInspect
