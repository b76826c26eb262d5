import JitInspect.Session.Basic

/-!
# Schedules

The runs of a session take turns: a run goes on until it has to wait, and the runs that can go on do
so in the order in which they became able to. A schedule keeps the runs of a session, what each of
them waits for, and that order. The work of a run is given by what it does to the disk, what it
waits for and how it ends. A run can be abandoned from outside while it waits, and then it ends
without a result.
-/

namespace JitInspect

/-- What the work of a run waits for. -/
inductive Wait where
  | nothing
  | finish
  | cancellation
  deriving DecidableEq, Repr

/-- How the work of a run ends: with a failure, or else with a result. -/
structure WorkEnd where
  status : RunStatus := .completed
  output : Text := []
  phases : List FlowGraph.Phase := []
  failure : Option Failure := none

/-- The result of work that does not fail. -/
def WorkEnd.result (e : WorkEnd) : RunResult :=
  { status := e.status, output := e.output, phases := e.phases }

/-- What is decided of the end only when the work is told to finish. -/
structure WorkChange where
  status : Option RunStatus := none
  output : Option Text := none
  phases : Option (List FlowGraph.Phase) := none
  failure : Option Failure := none

/-- The end with the change. -/
def WorkEnd.change (e : WorkEnd) (c : WorkChange) : WorkEnd :=
  { status := c.status.getD e.status
    output := c.output.getD e.output
    phases := c.phases.getD e.phases
    failure := c.failure <|> e.failure }

/-- The work of a run. -/
structure Work where
  name : Text
  effect : Disk → Disk := id
  wait : Wait := .nothing
  ending : WorkEnd := {}

/-- How a task ended. -/
inductive TaskEnd where
  | result (r : RunResult)
  | failure (f : Failure)
  | abandoned

/-- How far a task has come. -/
inductive Stage where
  | created
  | waiting
  | working
  | ended (e : TaskEnd)

/-- A run of a session as a task. -/
structure Task where
  work : Work
  /-- The number of the run, once it has begun. -/
  run : Nat := 0
  stage : Stage := .created
  /-- It is to be abandoned when it goes on. -/
  doomed : Bool := false

/-- Whether the task has ended. -/
def Task.hasEnded (t : Task) : Bool :=
  match t.stage with
  | .ended _ => true
  | _ => false

/-- Whether the task waits for its cancellation. -/
def Task.awaitsCancellation (t : Task) : Bool :=
  match t.stage with
  | .working => t.work.wait = .cancellation && !t.doomed
  | _ => false

/-- Whether the task waits to be told to finish. -/
def Task.awaitsFinish (t : Task) : Bool :=
  match t.stage with
  | .working => t.work.wait = .finish && !t.doomed
  | _ => false

/-- The runs of a session and the order in which they go on. -/
structure Schedule where
  session : Session := {}
  world : World
  tasks : List Task := []
  /-- The places of the tasks that can go on, first come first served. -/
  ready : List Nat := []
  /-- What was told to finish, and how. -/
  finishes : List (Text × WorkChange) := []
  /-- The places of the tasks whose work has started, in that order. -/
  started : List Nat := []

namespace Schedule

/-! ### Tasks and their order -/

section Order

/-- Lets a task go on after those that can already. -/
def enqueue (s : Schedule) (place : Nat) : Schedule :=
  if s.ready.contains place then s else { s with ready := s.ready ++ [place] }

/-- Changes a task. -/
def update (s : Schedule) (place : Nat) (f : Task → Task) : Schedule :=
  { s with tasks := s.tasks.modify place f }

/-- Ends a task. -/
def finishTask (s : Schedule) (place : Nat) (e : TaskEnd) : Schedule :=
  s.update place fun t => { t with stage := .ended e }

/-- The places of the tasks with a property. -/
def places (s : Schedule) (p : Task → Bool) : List Nat :=
  s.tasks.zipIdx.filterMap fun (t, place) => if p t then some place else none

/-- Lets the tasks go on that wait for their cancellation and are cancelled. -/
def wakeCancelled (s : Schedule) : Schedule :=
  (s.places fun t => t.awaitsCancellation && s.session.isCancelled t.run).foldl enqueue s

/-- Lets the run go on that has waited longest. -/
def callNext (s : Schedule) : Schedule :=
  match s.session.waiting.head? with
  | none => s
  | some run =>
    (s.places fun t => !t.hasEnded && t.run = run).foldl enqueue s

/-- The admitted run is done with its work. -/
def release (s : Schedule) : Schedule := callNext { s with session := s.session.release }

/-- A run no longer waits. It may have been called already, and then the call goes to the next one. -/
def leave (s : Schedule) (run : Nat) : Schedule :=
  let s := { s with session := s.session.leave run }
  if s.session.admitted.isNone then s.callNext else s

end Order

/-! ### A task goes on -/

section Turns

/-- A run returns with a result. -/
def conclude (s : Schedule) (place run : Nat) (r : RunResult) : Schedule :=
  match Action.perform (s.session.concludeWith run r) s.world with
  | (.ok session, world) => finishTask { s with session, world } place (.result r)
  | (.error f, world) => finishTask { s with world } place (.failure f)

/-- How the work of a task ends. -/
def ending (s : Schedule) (t : Task) : WorkEnd :=
  match s.finishes.lookup t.work.name with
  | some c => if t.work.wait = Wait.finish then t.work.ending.change c else t.work.ending
  | none => t.work.ending

/-- The work of a task comes to its end. -/
def complete (s : Schedule) (place : Nat) (t : Task) : Schedule :=
  match (s.ending t).failure with
  | some f => s.release.finishTask place (.failure f)
  | none => s.release.conclude place t.run (s.ending t).result

/-- Whether the work of a task does not have to wait. -/
def canComplete (s : Schedule) (t : Task) : Bool :=
  match t.work.wait with
  | .nothing => true
  | .finish => (s.finishes.lookup t.work.name).isSome
  | .cancellation => s.session.isCancelled t.run

/-- A run has been admitted. One that was cancelled while it waited does no work. -/
def enter (s : Schedule) (place : Nat) (t : Task) : Schedule :=
  if s.session.isCancelled t.run then s.release.conclude place t.run .cancelledEarly
  else
    let s := { s with
      started := s.started ++ [place]
      world := { s.world with disk := t.work.effect s.world.disk } }
    if s.canComplete t then s.complete place t
    else s.update place fun t => { t with stage := .working }

/-- A task begins its run. -/
def start (s : Schedule) (place : Nat) (t : Task) : Schedule :=
  let session := s.session.start
  let run := session.begun
  let s := update { s with session } place fun t => { t with run, stage := .waiting }
  let s := wakeCancelled s
  if session.admitted = some run then s.enter place { t with run } else s

/-- A task goes on, or is abandoned where it stands. -/
def proceed (s : Schedule) (place : Nat) (t : Task) : Schedule :=
  match t.stage with
  | .ended _ => s
  | .created => if t.doomed then s.finishTask place .abandoned else s.start place t
  | .waiting =>
    if t.doomed then (s.leave t.run).finishTask place .abandoned
    else enter { s with session := s.session.admitNext } place t
  | .working => if t.doomed then s.release.finishTask place .abandoned else s.complete place t

/-- Lets tasks go on until none can. The number bounds how many turns they take. -/
def settleWithin : Nat → Schedule → Schedule
  | 0, s => s
  | n + 1, s =>
    match s.ready with
    | [] => s
    | place :: ready =>
      let s := { s with ready }
      match s.tasks[place]? with
      | some t => settleWithin n (s.proceed place t)
      | none => settleWithin n s

/-- How many turns a task takes at most: it begins, is admitted, and its work ends. -/
def turnsOfTask : Nat := 3

/-- Lets tasks go on until none can. -/
def settle (s : Schedule) : Schedule :=
  settleWithin (turnsOfTask * s.tasks.length + s.ready.length + 1) s

end Turns

/-! ### From outside -/

section Requests

/-- A run with the given work is asked for. -/
def add (s : Schedule) (w : Work) : Schedule :=
  { s with tasks := s.tasks ++ [{ work := w }], ready := s.ready ++ [s.tasks.length] }

/-- The latest run is cancelled. -/
def cancel (s : Schedule) : Schedule := wakeCancelled { s with session := s.session.cancel }

/-- The work of a name is told to finish. -/
def finish (s : Schedule) (name : Text) (c : WorkChange) : Schedule :=
  let s := { s with finishes := (name, c) :: s.finishes }
  (s.places fun t => t.work.name = name && t.awaitsFinish).foldl enqueue s

/-- The tasks of a name are abandoned, unless they have ended. -/
def abandon (s : Schedule) (name : Text) : Schedule :=
  (s.places fun t => t.work.name = name && !t.hasEnded).foldl
    (fun s place => (s.update place fun t => { t with doomed := true }).enqueue place) s

end Requests

end Schedule

end JitInspect
