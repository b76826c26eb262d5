import JitInspect.Render.Turns
import Mathlib.Data.List.Basic

/-!
# Turns of a renderer one by one

Requests arrive and calls of the drawing program end at any moment, also between the end of a call
and the start of the next drawing. `Rendering.Turn` tells apart what can happen in between: a
request is entered, the next drawing in the queue starts, a call ends, a request is given up, or
something changes outside. `Rendering.Reaches` relates a renderer to those that it can come to by
turns.

What the program does at once are several such turns: a request together with the drawings that it
starts (`Rendering.reaches_ask`), and the end of a call together with those that follow
(`Rendering.reaches_tell`).
-/

namespace JitInspect

namespace Rendering

variable {r r₁ r₂ r₃ : Rendering} {place : ℕ} {file : Text} {d : Drawing} {o : Outcome}

/-! ### Turns -/

section Turns

/-- A request that is entered while no drawing starts. -/
def enter (r : Rendering) (name : Text) (several : Bool) (phases : List ℕ) : Rendering :=
  { (r.parts phases).2 with
    askings := (r.parts phases).2.askings ++
      [Asking.settle { name, several, parts := (r.parts phases).1 }] }

/-- The drawing at a place starts. -/
def begin (r : Rendering) (place : ℕ) (file : Text) : Rendering :=
  { r with
    calls := r.calls + 1
    world := r.world.starting (r.renderer.command file)
    drawings := r.drawings.modify place fun d => { d with stage := .running r.calls } }

/-- What can happen to a renderer. -/
inductive Event where
  /-- Images of phases are asked for. -/
  | ask (name : Text) (several : Bool) (phases : List ℕ)
  /-- The drawing at the place starts. -/
  | start (place : ℕ)
  /-- The call for the drawing at the place ends. -/
  | finish (place : ℕ) (o : Outcome)
  /-- Nobody waits any more for the requests of a name. -/
  | abandon (name : Text)
  /-- The disk changes, or outcomes of later calls become known. -/
  | meanwhile (disk : Disk) (outcomes : List Outcome) (told : List (ℕ × Outcome))

/-- One turn of a renderer. -/
inductive Turn (r : Rendering) : Event → Rendering → Prop where
  | ask (name : Text) (several : Bool) (phases : List ℕ) :
      Turn r (.ask name several phases) (r.enter name several phases)
  | start {place : ℕ} {file : Text} (h : r.nextQueued = some (place, file)) :
      Turn r (.start place) (r.begin place file)
  | finish {place : ℕ} {d : Drawing} (o : Outcome) (hd : r.drawings[place]? = some d)
      (hrunning : d.isRunning = true) : Turn r (.finish place o) (r.complete place d.file o)
  | abandon (name : Text) : Turn r (.abandon name) (r.abandon name)
  | meanwhile (disk : Disk) (outcomes : List Outcome) (told : List (ℕ × Outcome)) :
      Turn r (.meanwhile disk outcomes told)
        { r with told, world := { r.world with disk, outcomes } }

/-- The renderers that a renderer can come to, with what has happened on the way. -/
inductive Reaches (r : Rendering) : List Event → Rendering → Prop where
  | refl : Reaches r [] r
  | next {es : List Event} {e : Event} {r₁ r₂ : Rendering} (h : Reaches r es r₁)
      (hturn : Turn r₁ e r₂) : Reaches r (es ++ [e]) r₂

theorem Turn.reaches {e : Event} (h : Turn r e r₁) : Reaches r [e] r₁ := Reaches.refl.next h

theorem Reaches.trans {es es' : List Event} (h : Reaches r es r₁) (h' : Reaches r₁ es' r₂) :
    Reaches r (es ++ es') r₂ := by
  induction h' with
  | refl => rwa [List.append_nil]
  | next _ hturn ih =>
    rw [← List.append_assoc]
    exact ih.next hturn

/-- The event determines what a turn comes to. -/
theorem Turn.unique {e : Event} (h : Turn r e r₁) (h' : Turn r e r₂) : r₁ = r₂ := by
  cases h with
  | start hnext =>
    cases h' with
    | start hnext' =>
      cases Option.some.inj (hnext.symm.trans hnext')
      rfl
  | finish o hd _ =>
    cases h' with
    | finish _ hd' _ =>
      cases Option.some.inj (hd.symm.trans hd')
      rfl
  | ask | abandon | meanwhile =>
    cases h'
    rfl

theorem Reaches.of_nil (h : Reaches r [] r₁) : r₁ = r := by
  generalize hes : ([] : List Event) = es at h
  cases h with
  | refl => rfl
  | next _ _ => simp at hes

theorem Reaches.of_concat {es : List Event} {e : Event} (h : Reaches r (es ++ [e]) r₁) :
    ∃ r₂, Reaches r es r₂ ∧ Turn r₂ e r₁ := by
  generalize hes : es ++ [e] = es' at h
  cases h with
  | refl => simp at hes
  | next h hturn =>
    obtain ⟨rfl, he⟩ := List.append_inj' hes rfl
    cases he
    exact ⟨_, h, hturn⟩

/-- So do all events on the way. -/
theorem Reaches.unique {es : List Event} (h : Reaches r es r₁) (h' : Reaches r es r₂) :
    r₁ = r₂ := by
  induction h generalizing r₂ with
  | refl => exact h'.of_nil.symm
  | next _ hturn ih =>
    obtain ⟨r₃, hreaches, hturn'⟩ := h'.of_concat
    cases ih hreaches
    exact hturn.unique hturn'

end Turns

/-! ### The next drawing -/

section Next

/-- The first drawing of a kind, found with its place. -/
theorem find?_zipIdx {ds : List Drawing} (kind : Drawing → Bool)
    (h : (ds.zipIdx.find? fun (d, _) => kind d) = some (d, place)) :
    ds[place]? = some d ∧ kind d = true ∧
      ∀ i d', i < place → ds[i]? = some d' → kind d' = false := by
  obtain ⟨hkind, i, hi, hget, hbefore⟩ := List.find?_eq_some_iff_getElem.1 h
  rw [List.getElem_zipIdx, Prod.mk.injEq, Nat.zero_add] at hget
  obtain ⟨hd, rfl⟩ := hget
  have hlength : i < ds.length := by rwa [List.length_zipIdx] at hi
  refine ⟨by rw [List.getElem?_eq_getElem hlength, hd], hkind, fun i' d' hlt hd' => ?_⟩
  obtain ⟨hlength', rfl⟩ := List.getElem?_eq_some_iff.1 hd'
  have hnot := hbefore i' hlt
  rw [List.getElem_zipIdx] at hnot
  simpa using hnot

/-- The next drawing is the first one in the queue, and one more may run. -/
theorem nextQueued_eq_some (h : r.nextQueued = some (place, file)) :
    r.inFlight < r.renderer.limit ∧
      (∃ d, r.drawings[place]? = some d ∧ d.isQueued = true ∧ d.file = file) ∧
      ∀ i d, i < place → r.drawings[i]? = some d → d.isQueued = false := by
  unfold nextQueued at h
  split at h
  · next hmay =>
    obtain ⟨⟨d, k⟩, hfind, hdk⟩ := Option.map_eq_some_iff.1 h
    obtain ⟨rfl, rfl⟩ := Prod.mk.inj hdk
    obtain ⟨hd, hqueued, hbefore⟩ := find?_zipIdx Drawing.isQueued hfind
    exact ⟨of_decide_eq_true (Bool.and_eq_true_iff.1 hmay).1, ⟨d, hd, hqueued, rfl⟩, hbefore⟩
  · cases h

/-- The next drawing runs once it has started. -/
theorem begun (h : r.nextQueued = some (place, file)) :
    ∃ d, (r.begin place file).drawings[place]? = some d ∧ d.isRunning = true ∧ d.file = file := by
  obtain ⟨-, ⟨d, hd, -, hfile⟩, -⟩ := nextQueued_eq_some h
  refine ⟨{ d with stage := .running r.calls }, ?_, rfl, hfile⟩
  simp [begin, hd]

/-- A call that ends before anything else happens. -/
theorem reaches_call (h : r.nextQueued = some (place, file)) (o : Outcome) :
    Reaches r [.start place, .finish place o] ((r.begin place file).complete place file o) := by
  obtain ⟨d, hd, hrunning, rfl⟩ := begun h
  exact (Turn.start h).reaches.next (Turn.finish o hd hrunning)

/-- No drawing waits when one more may run and none is next. -/
theorem nextQueued_eq_none (h : r.nextQueued = none) (hlimit : r.inFlight < r.renderer.limit)
    (hgoing : r.drawings.any Drawing.isInterrupted = false) (hd : d ∈ r.drawings) :
    d.isQueued = false := by
  unfold nextQueued at h
  rw [hgoing, decide_eq_true hlimit, Bool.not_false, Bool.and_true, if_pos rfl,
    Option.map_eq_none_iff, List.find?_eq_none] at h
  obtain ⟨i, hi, rfl⟩ := List.getElem_of_mem hd
  have hmem : (r.drawings[i], i) ∈ r.drawings.zipIdx := by
    rw [List.mem_zipIdx_iff_getElem?, List.getElem?_eq_getElem hi]
  exact Bool.eq_false_iff.2 (h _ hmem)

end Next

/-! ### What the program does at once -/

section AtOnce

/-- The outcome of the next call is taken from what is known. -/
theorem nextOutcome_eq_some (h : r.nextOutcome = some (o, r₁)) :
    ∃ outcomes, r₁ = { r with world := { r.world with outcomes } } := by
  unfold nextOutcome at h
  split at h
  · next outcomes _ =>
    obtain ⟨-, rfl⟩ := Prod.mk.inj (Option.some.inj h)
    exact ⟨outcomes, rfl⟩
  · obtain ⟨o', -, ho⟩ := Option.map_eq_some_iff.1 h
    obtain ⟨-, rfl⟩ := Prod.mk.inj ho
    exact ⟨r.world.outcomes, rfl⟩

/-- A drawing of which no outcome is known begins. -/
theorem start_of_none (h : r.nextOutcome = none) (place : ℕ) (file : Text) :
    r.start place file = r.begin place file := by
  unfold start
  rw [h]
  rfl

theorem start_of_some (h : r.nextOutcome = some (o, r₁)) (place : ℕ) (file : Text) :
    r.start place file = (r₁.begin place file).complete place file o := by
  unfold start
  rw [h]
  rfl

/-- A start may be followed by the end of the call at once. -/
theorem reaches_start (h : r.nextQueued = some (place, file)) :
    ∃ es, Reaches r es (r.start place file) := by
  cases hknown : r.nextOutcome with
  | none =>
    rw [start_of_none hknown]
    exact ⟨_, (Turn.start h).reaches⟩
  | some known =>
    obtain ⟨o, r₁⟩ := known
    obtain ⟨outcomes, rfl⟩ := nextOutcome_eq_some hknown
    rw [start_of_some hknown]
    have htaken := (Turn.meanwhile (r := r) r.world.disk outcomes r.told).reaches
    exact ⟨_, htaken.trans (reaches_call (r := { r with world := { r.world with outcomes } }) h o)⟩

/-- Starting drawings is a run of the renderer. -/
theorem reaches_startWithin (n : ℕ) (r : Rendering) : ∃ es, Reaches r es (startWithin n r) := by
  induction n generalizing r with
  | zero => exact ⟨[], .refl⟩
  | succ n ih =>
    unfold startWithin
    split
    · next place file hnext =>
      obtain ⟨es, hstart⟩ := reaches_start hnext
      obtain ⟨es', hrest⟩ := ih (r.start place file)
      exact ⟨es ++ es', hstart.trans hrest⟩
    · exact ⟨[], .refl⟩

/-- The drawings that a request starts. -/
theorem reaches_ask (r : Rendering) (name : Text) (several : Bool) (phases : List ℕ) :
    ∃ es, Reaches (r.enter name several phases) es (r.ask name several phases) :=
  reaches_startWithin _ (r.enter name several phases)

/-- The end of a call with the drawings that start behind it. -/
theorem reaches_tell (r : Rendering) (call : ℕ) (o : Outcome) :
    ∃ es, Reaches r es (r.tell call o) := by
  unfold tell
  split
  · next d place hfind =>
    obtain ⟨hd, hcall, -⟩ := find?_zipIdx (fun d => d.hasCall call) hfind
    have hrunning : d.isRunning = true := by
      cases hstage : d.stage <;> simp [Drawing.hasCall, Drawing.isRunning, hstage] at hcall ⊢
    obtain ⟨es, hstarts⟩ := reaches_startWithin _ (r.complete place d.file o)
    exact ⟨_, (Turn.finish o hd hrunning).reaches.trans hstarts⟩
  · split
    · exact ⟨_, (Turn.meanwhile r.world.disk r.world.outcomes ((call, o) :: r.told)).reaches⟩
    · exact ⟨[], .refl⟩

end AtOnce

end Rendering

end JitInspect
