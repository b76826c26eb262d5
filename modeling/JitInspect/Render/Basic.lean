import JitInspect.Run.World
import JitInspect.FlowGraph.Dump

/-!
# Drawing flow graphs

A renderer draws the graphs of phases with an outside program, a limited number at a time. Drawings
wait in the order in which they were asked for. Who asks for a graph that is being drawn, or waits
to be, joins that drawing; who asks for one whose image is on disk gets the image at once. A drawing
that fails gives no image and is logged.
-/

namespace JitInspect

/-- A program that draws graphs, and how many are drawn at once. -/
structure Renderer where
  dot : Text
  limit : Nat
  limit_pos : 0 < limit

/-- Why a graph is not drawn. -/
inductive RenderFault where
  | limitTooLow
  | notStored (identifier : Text)
  deriving DecidableEq, Repr

/-- What is said of the fault. -/
def RenderFault.message : RenderFault → Text
  | limitTooLow => "Render limit must be at least 1"
  | notStored i => "Phase '" ++ i ++ "' has not been written to disk"

/-- The renderer with a limit, which has to be positive. -/
def Renderer.ofLimit (dot : Text) (limit : Int) : Except RenderFault Renderer :=
  if h : 0 < limit.toNat then .ok ⟨dot, limit.toNat, h⟩ else .error .limitTooLow

/-- The renderer that draws as many graphs at once as suits the host. -/
def Renderer.ofHost (h : Host) (dot : Text) : Renderer :=
  ⟨dot, h.parallelRenders, Nat.lt_of_lt_of_le Nat.zero_lt_two (Nat.le_max_left ..)⟩

/-- The image of a graph that is drawn; none when the drawing failed. -/
abbrev Image := Option Text

/-- The name of the image of a graph. -/
def imageOf (file : Text) : Text := file ++ ".png"

/-- The command that draws a graph. -/
def Renderer.command (r : Renderer) (file : Text) : Command :=
  { executable := r.dot, args := ["-Tpng", "-o" ++ imageOf file, "-Kdot", file] }

/-- How far a drawing has come. -/
inductive DrawingStage where
  | queued
  /-- The call of the program, counted from zero. -/
  | running (call : Nat)
  | done (r : Except Failure Image)

/-- The drawing of one graph. -/
structure Drawing where
  file : Text
  stage : DrawingStage := .queued

namespace Drawing

/-- Whether the drawing waits for its turn. -/
def isQueued (d : Drawing) : Bool :=
  match d.stage with
  | .queued => true
  | _ => false

/-- Whether the program is drawing. -/
def isRunning (d : Drawing) : Bool :=
  match d.stage with
  | .running _ => true
  | _ => false

/-- Whether the drawing has not ended. -/
def isUnfinished (d : Drawing) : Bool := d.isQueued || d.isRunning

/-- Whether the program is drawing with the given call. -/
def hasCall (d : Drawing) (call : Nat) : Bool :=
  match d.stage with
  | .running n => n = call
  | _ => false

/-- Whether the user interrupted the drawing. -/
def isInterrupted (d : Drawing) : Bool :=
  match d.stage with
  | .done (.error .interrupted) => true
  | _ => false

end Drawing

/-- One phase of a request: it waits for a drawing, or it is answered. -/
structure Part where
  phase : Nat
  drawing : Option Nat := none
  answer : Option (Except Failure Image) := none

/-- How a request ended. -/
inductive Reply where
  | image (i : Image)
  | images (is : List Image)
  | failure (f : Failure)
  | abandoned

/-- A request for the image of one phase, or for the images of several. -/
structure Asking where
  name : Text
  several : Bool
  parts : List Part
  reply : Option Reply := none

namespace Asking

/-- The reply when all parts are answered with images, drawn or not. -/
def ofAnswers (a : Asking) : Option Reply :=
  (a.parts.mapM fun (p : Part) => p.answer.bind Except.toOption).map fun is =>
    if a.several then .images is else .image (is.head?.getD none)

/-- The first failure among the answers. -/
def firstFailure (a : Asking) : Option Failure :=
  a.parts.findSome? fun p =>
    match p.answer with
    | some (.error f) => some f
    | _ => none

/-- The request with its reply, once there is one. A failure ends it at once; otherwise it waits for
all of its parts. -/
def settle (a : Asking) : Asking :=
  if a.reply.isSome then a
  else
    match a.firstFailure with
    | some f => { a with reply := some (.failure f) }
    | none => { a with reply := a.ofAnswers }

/-- The request after a drawing has ended. -/
def answer (a : Asking) (drawing : Nat) (r : Except Failure Image) : Asking :=
  settle { a with parts := a.parts.map fun p =>
    if p.drawing = some drawing then { p with drawing := none, answer := some r } else p }

/-- The request when nobody waits for it any more. -/
def abandon (a : Asking) : Asking :=
  if a.reply.isSome then a
  else { a with reply := some .abandoned, parts := a.parts.map fun p => { p with drawing := none } }

/-- The phases of the request that wait for a drawing. -/
def phasesAwaiting (a : Asking) (drawing : Nat) : List Nat :=
  (a.parts.filter fun p => p.drawing = some drawing).map (·.phase)

end Asking

end JitInspect
