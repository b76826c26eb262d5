import JitInspect.Proofs.Render.Sharing

/-!
# The queue of a renderer

As many calls run as have started and have not ended (`Rendering.Counted`), and the commands that
were started are those for the first drawings, in the order in which these were made
(`Rendering.IsInOrder`). What the program does at once leaves no drawing waiting while one more may
run (`Rendering.nextQueued_startAll`).
-/

namespace JitInspect

namespace Rendering

variable {r r₁ : Rendering} {d : Drawing} {e : Event} {es : List Event}

/-! ### Counting -/

section Counting

/-- Whether a drawing starts. -/
def Event.isStart : Event → Bool
  | .start _ => true
  | _ => false

/-- Whether a call ends. -/
def Event.isFinish : Event → Bool
  | .finish _ _ => true
  | _ => false

/-- How many calls have started. -/
def starts (es : List Event) : ℕ := es.countP Event.isStart

/-- How many calls have ended. -/
def finishes (es : List Event) : ℕ := es.countP Event.isFinish

/-- What every turn keeps and counts. -/
structure Counted (r : Rendering) (es : List Event) (r₁ : Rendering) : Prop where
  renderer : r₁.renderer = r.renderer
  calls : r₁.calls = r.calls + starts es
  running : r₁.inFlight + finishes es = r.inFlight + starts es

/-- An extension starts nothing. -/
theorem Extends.inFlight (h : r.Extends r₁) : r₁.inFlight = r.inFlight := by
  obtain ⟨new, hnew, hqueued⟩ := h.drawings
  have hnone : new.filter Drawing.isRunning = [] := by
    rw [List.filter_eq_nil_iff]
    intro d hd
    rw [Drawing.isRunning, hqueued d hd]
    exact Bool.false_ne_true
  rw [Rendering.inFlight, hnew, List.filter_append, hnone, List.append_nil]
  rfl

/-- A turn keeps count of what is in flight. -/
theorem Sound.counted (h : r.Sound) (hturn : r.Turn e r₁) : Counted r [e] r₁ := by
  cases hturn with
  | ask name several phases =>
    obtain ⟨-, hext, -, -⟩ := h.parts phases
    exact ⟨hext.renderer, hext.calls, hext.inFlight⟩
  | start hnext => exact ⟨rfl, rfl, inFlight_begin hnext⟩
  | @finish place d o hd hrunning =>
    have hcount := inFlight_complete hd hrunning o
    obtain ⟨world, phases, heq, -, -⟩ := complete_eq r place d.file o
    rw [heq] at hcount ⊢
    exact ⟨rfl, rfl, hcount⟩
  | abandon name => exact ⟨rfl, rfl, rfl⟩
  | meanwhile disk outcomes told => exact ⟨rfl, rfl, rfl⟩

theorem Reaches.counted (hreaches : r.Reaches es r₁) (h : r.Sound) : Counted r es r₁ := by
  induction hreaches with
  | refl => exact ⟨rfl, rfl, rfl⟩
  | @next es e r₁ r₂ hreaches hturn ih =>
    have hturn := (h.reaches hreaches).counted hturn
    have hstarts : starts (es ++ [e]) = starts es + starts [e] := List.countP_append
    have hfinishes : finishes (es ++ [e]) = finishes es + finishes [e] := List.countP_append
    have hcalls := hturn.calls
    have hrunning := hturn.running
    have hcalls' := ih.calls
    have hrunning' := ih.running
    refine ⟨hturn.renderer.trans ih.renderer, ?_, ?_⟩ <;> omega

end Counting

/-! ### Order -/

section Order

/-- The commands that were started are those for the first drawings, in the order in which these
were made, behind the earlier ones. What was started stands last first. -/
def IsInOrder (earlier : List Command) (r : Rendering) : Prop :=
  r.world.started.map (·.command) =
    (((r.drawings.map (·.file)).take r.calls).map r.renderer.command).reverse ++ earlier

/-- A drawing keeps its file at all stages. -/
theorem map_file_setStage (ds : List Drawing) (place : ℕ) (stage : DrawingStage) :
    (ds.modify place fun d => { d with stage }).map (·.file) = ds.map (·.file) := by
  apply List.ext_getElem?
  intro i
  rw [List.getElem?_map, List.getElem?_map, List.getElem?_modify]
  cases ds[i]? with
  | none => rfl
  | some d => by_cases hi : place = i <;> simp [hi]

/-- In a turn drawings are started in the order of the queue. -/
theorem Sound.inOrder {earlier : List Command} (h : r.Sound) (hturn : r.Turn e r₁)
    (horder : r.IsInOrder earlier) : r₁.IsInOrder earlier := by
  unfold IsInOrder at horder ⊢
  cases hturn with
  | ask name several phases =>
    obtain ⟨-, hext, -, -⟩ := h.parts phases
    obtain ⟨new, hnew, -⟩ := hext.drawings
    have hle : r.calls ≤ (r.drawings.map (·.file)).length := by
      rw [List.length_map]
      exact h.calls_le
    have htake : ((r.enter name several phases).drawings.map (·.file)).take
        (r.enter name several phases).calls = (r.drawings.map (·.file)).take r.calls := by
      have hcalls : (r.enter name several phases).calls = r.calls := hext.calls
      have hdrawings : (r.enter name several phases).drawings = r.drawings ++ new := hnew
      rw [hcalls, hdrawings, List.map_append, List.take_append_of_le_length hle]
    have hworld : (r.enter name several phases).world = r.world := hext.world
    have hrenderer : (r.enter name several phases).renderer = r.renderer := hext.renderer
    rw [htake, hworld, hrenderer, horder]
  | @start place file hnext =>
    obtain rfl := h.next_place hnext
    obtain ⟨-, ⟨d, hd, -, rfl⟩, -⟩ := nextQueued_eq_some hnext
    have hfile : (r.drawings.map (·.file))[r.calls]? = some d.file := by
      rw [List.getElem?_map, hd]
      rfl
    dsimp only [Rendering.begin, World.starting]
    rw [map_file_setStage, List.take_add_one, hfile, List.map_cons, horder]
    simp
  | @finish place d o hd hrunning =>
    obtain ⟨world, phases, heq, hstarted, -⟩ := complete_eq r place d.file o
    rw [heq]
    dsimp only
    rw [map_file_setStage, hstarted, horder]
  | abandon name => exact horder
  | meanwhile disk outcomes told => exact horder

theorem Reaches.inOrder {earlier : List Command} (hreaches : r.Reaches es r₁) (h : r.Sound)
    (horder : r.IsInOrder earlier) : r₁.IsInOrder earlier := by
  induction hreaches with
  | refl => exact horder
  | next hreaches hturn ih => exact (h.reaches hreaches).inOrder hturn ih

end Order

/-! ### Drawings that wait -/

section Waiting

/-- How many drawings wait for their turn. -/
def waiting (r : Rendering) : ℕ := (r.drawings.filter Drawing.isQueued).length

/-- A drawing that begins waits no more. -/
theorem waiting_begin {place : ℕ} {file : Text} (hnext : r.nextQueued = some (place, file)) :
    (r.begin place file).waiting + 1 = r.waiting := by
  obtain ⟨-, ⟨d, hd, hqueued, -⟩, -⟩ := nextQueued_eq_some hnext
  have hcount := length_filter_modify Drawing.isQueued
    (fun d => { d with stage := .running r.calls }) hd
  rw [hqueued] at hcount
  exact hcount

theorem waiting_complete {place : ℕ} (hd : r.drawings[place]? = some d)
    (hrunning : d.isRunning = true) (o : Outcome) :
    (r.complete place d.file o).waiting = r.waiting := by
  obtain ⟨world, phases, heq, -, -⟩ := complete_eq r place d.file o
  have hcount := length_filter_modify Drawing.isQueued
    (fun d' => { d' with stage := .done (r.resultAt d.file o) }) hd
  rw [Drawing.isQueued_of_isRunning hrunning] at hcount
  rw [heq]
  exact hcount

/-- A start takes a drawing out of the queue, whether its call ends at once or not. -/
theorem waiting_start {place : ℕ} {file : Text} (hnext : r.nextQueued = some (place, file)) :
    (r.start place file).waiting + 1 = r.waiting := by
  cases hknown : r.nextOutcome with
  | none =>
    rw [start_of_none hknown]
    exact waiting_begin hnext
  | some known =>
    obtain ⟨o, r₁⟩ := known
    obtain ⟨outcomes, rfl⟩ := nextOutcome_eq_some hknown
    rw [start_of_some hknown]
    have htaken : nextQueued { r with world := { r.world with outcomes } } = some (place, file) :=
      hnext
    obtain ⟨d, hd, hrunning, rfl⟩ := begun htaken
    rw [waiting_complete hd hrunning o]
    exact waiting_begin htaken

/-- No drawing is left waiting while one more may run. -/
theorem nextQueued_startWithin {n : ℕ} (h : r.waiting ≤ n) :
    (startWithin n r).nextQueued = none := by
  induction n generalizing r with
  | zero =>
    cases hnext : r.nextQueued with
    | none => exact hnext
    | some next =>
      have hless := waiting_start hnext
      omega
  | succ n ih =>
    unfold startWithin
    split
    · next place file hnext =>
      have hless := waiting_start hnext
      exact ih (by omega)
    · next hnext => exact hnext

/-- When all that may start have started, none is next. -/
theorem nextQueued_startAll (r : Rendering) : r.startAll.nextQueued = none :=
  nextQueued_startWithin (List.length_filter_le _ _)

theorem nextQueued_ask (r : Rendering) (name : Text) (several : Bool) (phases : List ℕ) :
    (r.ask name several phases).nextQueued = none :=
  nextQueued_startAll _

theorem nextQueued_tell (h : r.nextQueued = none) (call : ℕ) (o : Outcome) :
    (r.tell call o).nextQueued = none := by
  unfold tell
  split
  · exact nextQueued_startAll _
  · split
    · exact h
    · exact h

end Waiting

end Rendering

end JitInspect
