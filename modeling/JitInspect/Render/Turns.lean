import JitInspect.Render.Basic

/-!
# The turns of a renderer

Drawings start as long as fewer of them are running than the limit allows, in the order in which
they were asked for. The outcome of a call may be known beforehand, and then the call ends at once;
otherwise the drawing waits for it.
-/

namespace JitInspect

/-- A renderer at work. -/
structure Rendering where
  renderer : Renderer
  world : World
  phases : List FlowGraph.Phase
  drawings : List Drawing := []
  askings : List Asking := []
  /-- How many times the program was called. -/
  calls : Nat := 0
  /-- The outcomes of calls that were told before the call. -/
  told : List (Nat × Outcome) := []

namespace Rendering

/-- How many graphs the program is drawing. -/
def inFlight (r : Rendering) : Nat := (r.drawings.filter Drawing.isRunning).length

/-- The image of a phase. -/
def setImage (r : Rendering) (image : Image) (phase : Nat) : Rendering :=
  match image with
  | none => r
  | some i => { r with phases := r.phases.modify phase fun p => { p with image := some i } }

/-! ### Ends of drawings -/

section Ends

/-- What is said of a drawing that failed. -/
def failureRecord (file : Text) (p : Printed) : LogRecord :=
  ⟨.warning, "Failed to render " ++ file ++ ": " ++
    (if p.ok then "no image produced".toList else p.errors)⟩

/-- What a drawing gives, and whether it failed, after its call has ended in the given world. -/
def resultOf (w : World) (file : Text) (ending : Except Failure Printed) :
    Except Failure Image × List LogRecord :=
  match ending with
  | .error f => (.error f, [])
  | .ok p =>
    if !p.ok then (.ok none, [failureRecord file p])
    else
      match w.disk.isFile (imageOf file) with
      | .error f => (.error (.ofFile f), [])
      | .ok true => (.ok (some (imageOf file)), [])
      | .ok false => (.ok none, [failureRecord file p])

/-- The drawing at a place ends with an outcome, and the requests that wait for it are answered. -/
def complete (r : Rendering) (place : Nat) (file : Text) (o : Outcome) : Rendering :=
  let (ending, world) := r.world.ending (r.renderer.command file) o
  let (result, records) := resultOf world file ending
  let world := { world with log := records.reverse ++ world.log }
  let drawings := r.drawings.modify place fun d => { d with stage := .done result }
  let phases := r.askings.flatMap fun a => a.phasesAwaiting place
  let askings := r.askings.map fun a => a.answer place result
  let r := { r with world, drawings, askings }
  match result with
  | .ok image => phases.foldl (setImage · image) r
  | .error _ => r

end Ends

/-! ### Starts of drawings -/

section Starts

/-- The outcome of the next call, if it is known, and the renderer without it. -/
def nextOutcome (r : Rendering) : Option (Outcome × Rendering) :=
  match r.world.outcomes with
  | o :: outcomes => some (o, { r with world := { r.world with outcomes } })
  | [] => (r.told.lookup r.calls).map fun o => (o, r)

/-- Starts the drawing at a place. -/
def start (r : Rendering) (place : Nat) (file : Text) : Rendering :=
  let outcome := r.nextOutcome
  let r := (outcome.map (·.2)).getD r
  let r := { r with
    calls := r.calls + 1
    world := r.world.starting (r.renderer.command file)
    drawings := r.drawings.modify place fun d => { d with stage := .running r.calls } }
  match outcome with
  | some (o, _) => r.complete place file o
  | none => r

/-- The first drawing that waits for its turn, when one more may run. -/
def nextQueued (r : Rendering) : Option (Nat × Text) :=
  if r.inFlight < r.renderer.limit && !r.drawings.any Drawing.isInterrupted then
    (r.drawings.zipIdx.find? fun (d, _) => d.isQueued).map fun (d, place) => (place, d.file)
  else none

/-- Starts drawings until no more may run. The number bounds how many. -/
def startWithin : Nat → Rendering → Rendering
  | 0, r => r
  | n + 1, r =>
    match r.nextQueued with
    | some (place, file) => startWithin n (r.start place file)
    | none => r

/-- Starts drawings until no more may run. -/
def startAll (r : Rendering) : Rendering := startWithin r.drawings.length r

end Starts

/-! ### Requests -/

section Requests

/-- Asks for the image of a phase: it is there, or it is being drawn, or a new drawing is made. -/
def part (r : Rendering) (phase : Nat) : Part × Rendering :=
  match r.phases[phase]? with
  | none => ({ phase, answer := some (.ok none) }, r)
  | some p =>
    match p.file with
    | none =>
      let fault := RenderFault.notStored p.identifier
      ({ phase, answer := some (.error (.unforeseen (.value fault.message))) }, r)
    | some file =>
      match r.world.disk.isFile (imageOf file) with
      | .error f => ({ phase, answer := some (.error (.ofFile f)) }, r)
      | .ok true =>
        let image := some (imageOf file)
        ({ phase, answer := some (.ok image) }, r.setImage image phase)
      | .ok false =>
        match r.drawings.findIdx? fun d => d.file = file && d.isUnfinished with
        | some place => ({ phase, drawing := some place }, r)
        | none =>
          ({ phase, drawing := some r.drawings.length },
            { r with drawings := r.drawings ++ [{ file }] })

/-- Asks for the images of phases in order. -/
def parts (r : Rendering) : List Nat → List Part × Rendering
  | [] => ([], r)
  | phase :: phases =>
    let (p, r) := r.part phase
    let (ps, r) := parts r phases
    (p :: ps, r)

/-- A request for the image of one phase, or for those of several. -/
def ask (r : Rendering) (name : Text) (several : Bool) (phases : List Nat) : Rendering :=
  let (parts, r) := r.parts phases
  let asking := Asking.settle { name, several, parts }
  startAll { r with askings := r.askings ++ [asking] }

/-- The outcome of a call is told. -/
def tell (r : Rendering) (call : Nat) (o : Outcome) : Rendering :=
  match r.drawings.zipIdx.find? fun (d, _) => d.hasCall call with
  | some (d, place) => startAll (r.complete place d.file o)
  | none => if r.calls ≤ call then { r with told := (call, o) :: r.told } else r

/-- Nobody waits any more for the requests of a name. Drawings go on. -/
def abandon (r : Rendering) (name : Text) : Rendering :=
  { r with askings := r.askings.map fun a => if a.name = name then a.abandon else a }

/-- Draws all phases in a world in which the outcome of every call is known. -/
def all (renderer : Renderer) (w : World) (phases : List FlowGraph.Phase) : Rendering :=
  ask
    { renderer, phases,
      world := { w with
        token := none, outcomes := w.outcomes ++ List.replicate phases.length {} } }
    [] true (List.range phases.length)

end Requests

end Rendering

/-- Draws all phases and gives them with their images. -/
def Renderer.drawAll (r : Renderer) (phases : List FlowGraph.Phase) :
    Action (List FlowGraph.Phase) := do
  let done := Rendering.all r (← get) phases
  set done.world
  if done.drawings.any Drawing.isInterrupted then throw .interrupted
  match done.askings.findSome? Asking.reply with
  | some (.failure f) => throw f
  | _ => pure done.phases

end JitInspect
