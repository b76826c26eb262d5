import JitInspect.Proofs.Render.Answers
import JitInspect.Proofs.Render.Turns

/-!
# Sound renderers

What holds in every state of a renderer: the drawings that were started are the first ones that were
made, not more of them run than the limit allows, no file is drawn twice at a time, and every part
that waits waits for an unfinished drawing of its own file (`Rendering.Sound`). Each turn keeps
this.

A request only adds drawings to the end of the queue (`Rendering.Extends`), a start moves the border
between those that were started and the others by one, and the end of a call takes away one of those
that run.
-/

namespace JitInspect

namespace Drawing

variable {d d' : Drawing}

/-- A queued drawing is unfinished. -/
theorem isUnfinished_of_isQueued (h : d.isQueued = true) : d.isUnfinished = true := by
  rw [isUnfinished, h, Bool.true_or]

theorem isUnfinished_of_isRunning (h : d.isRunning = true) : d.isUnfinished = true := by
  rw [isUnfinished, h, Bool.or_true]

theorem isQueued_congr (h : d.stage = d'.stage) : d.isQueued = d'.isQueued := by
  rw [isQueued, isQueued, h]

theorem isUnfinished_congr (h : d.stage = d'.stage) : d.isUnfinished = d'.isUnfinished := by
  rw [isUnfinished, isUnfinished, isQueued_congr h, isRunning, isRunning, h]

/-- A running drawing is not queued any more. -/
theorem isQueued_of_isRunning (h : d.isRunning = true) : d.isQueued = false := by
  cases hstage : d.stage <;> simp [isRunning, isQueued, hstage] at h ⊢

/-- A drawing that is done is not unfinished. -/
theorem not_isUnfinished_of_done {x : Except Failure Image} (h : d.stage = .done x) :
    d.isUnfinished = false := by
  rw [isUnfinished, isQueued, isRunning, h, Bool.or_false]

/-- A queued drawing is not running yet. -/
theorem isRunning_of_isQueued (h : d.isQueued = true) : d.isRunning = false := by
  cases hstage : d.stage <;> simp [isRunning, isQueued, hstage] at h ⊢

end Drawing

namespace Rendering

variable {r r₁ r₂ : Rendering} {place phase i k : ℕ} {file : Text} {d d' : Drawing} {o : Outcome}
  {e : Event}

/-! ### Soundness -/

section Sound

/-- The file of a phase. -/
def fileOf (r : Rendering) (phase : ℕ) : Option Text := r.phases[phase]?.bind (·.file)

/-- The drawing at the place is unfinished and draws the file of the phase. -/
def IsDrawn (r : Rendering) (phase place : ℕ) : Prop :=
  ∃ d, r.drawings[place]? = some d ∧ d.isUnfinished = true ∧ r.fileOf phase = some d.file

/-- A renderer that works as it should. -/
structure Sound (r : Rendering) : Prop where
  calls_le : r.calls ≤ r.drawings.length
  /-- The drawings that were started are the first ones that were made. -/
  queued : ∀ {i : ℕ} {d : Drawing}, r.drawings[i]? = some d → (d.isQueued = true ↔ r.calls ≤ i)
  limited : r.inFlight ≤ r.renderer.limit
  /-- A file is drawn once at a time. -/
  unique : ∀ {i k : ℕ} {d d' : Drawing}, r.drawings[i]? = some d → r.drawings[k]? = some d' →
    d.isUnfinished = true → d'.isUnfinished = true → d.file = d'.file → i = k
  /-- A part waits for the drawing of its own file. -/
  joined : ∀ {a : Asking} {p : Part} {k : ℕ}, a ∈ r.askings → p ∈ a.parts →
    p.drawing = some k → r.IsDrawn p.phase k
  settled : ∀ {a : Asking}, a ∈ r.askings → a.Settled

/-- A renderer to which nobody has come yet. -/
structure IsFresh (r : Rendering) : Prop where
  drawings : r.drawings = []
  askings : r.askings = []
  calls : r.calls = 0

/-- A fresh renderer is sound, since it has neither drawings nor calls. -/
theorem IsFresh.sound (h : r.IsFresh) : r.Sound := by
  have hnone : ∀ {i : ℕ} {d : Drawing}, r.drawings[i]? ≠ some d := by
    intro i d hd
    rw [h.drawings] at hd
    cases hd
  refine ⟨?_, fun hd => absurd hd hnone, ?_, fun hd => absurd hd hnone, ?_, ?_⟩
  · rw [h.calls]
    exact Nat.zero_le _
  · rw [inFlight, h.drawings]
    exact Nat.zero_le _
  · intro a p k ha
    rw [h.askings] at ha
    cases ha
  · intro a ha
    rw [h.askings] at ha
    cases ha

end Sound

/-! ### Requests -/

section Requests

/-- An image that is set leaves the files of all phases. -/
theorem fileOf_setImage (r : Rendering) (image : Image) (phase phase' : ℕ) :
    (r.setImage image phase).fileOf phase' = r.fileOf phase' := by
  cases image with
  | none => rfl
  | some image =>
    simp only [setImage, fileOf, List.getElem?_modify]
    cases r.phases[phase']? with
    | none => rfl
    | some p =>
      by_cases h : phase = phase'
      · simp [h]
      · simp [h]

/-- The answer to a part of which the image is on disk, or cannot be looked up. Nothing is said of
phases that were not written to disk. -/
def IsAnswer (r : Rendering) (phase : ℕ) (x : Except Failure Image) : Prop :=
  ∀ file, r.fileOf phase = some file →
    r.world.disk.isFile (imageOf file) = .ok true ∧ x = .ok (some (imageOf file)) ∨
      ∃ f, r.world.disk.isFile (imageOf file) = .error f ∧ x = .error (.ofFile f)

/-- Asking for a phase answers the part at once, joins an unfinished drawing, or makes a new one. -/
inductive Parted (r : Rendering) (phase : ℕ) : Part → Rendering → Prop where
  | answered (x : Except Failure Image) (phases : List FlowGraph.Phase) (hx : r.IsAnswer phase x)
      (hfiles : ∀ i, phases[i]?.bind (·.file) = r.fileOf i) :
      Parted r phase { phase, answer := some x } { r with phases }
  | joined (place : ℕ) (hdrawn : r.IsDrawn phase place) :
      Parted r phase { phase, drawing := some place } r
  | made (file : Text) (hfile : r.fileOf phase = some file)
      (hnew : ∀ d ∈ r.drawings, d.isUnfinished = true → d.file ≠ file) :
      Parted r phase { phase, drawing := some r.drawings.length }
        { r with drawings := r.drawings ++ [{ file }] }

/-- The part of a phase and the renderer behind it are as `Parted` tells. -/
theorem parted_part (r : Rendering) (phase : ℕ) :
    Parted r phase (r.part phase).1 (r.part phase).2 := by
  have hsame : ∀ i, r.phases[i]?.bind (·.file) = r.fileOf i := fun _ => rfl
  unfold part
  cases hphase : r.phases[phase]? with
  | none =>
    have hof : r.fileOf phase = none := by rw [fileOf, hphase, Option.bind_none]
    exact .answered _ r.phases (fun file h => by rw [hof] at h; cases h) hsame
  | some p =>
    dsimp only
    cases hfile : p.file with
    | none =>
      have hof : r.fileOf phase = none := by rw [fileOf, hphase, Option.bind_some, hfile]
      exact .answered _ r.phases (fun file h => by rw [hof] at h; cases h) hsame
    | some file =>
      have hof : r.fileOf phase = some file := by rw [fileOf, hphase, Option.bind_some, hfile]
      have hanswer : ∀ x, (r.world.disk.isFile (imageOf file) = .ok true ∧
          x = .ok (some (imageOf file)) ∨
          ∃ f, r.world.disk.isFile (imageOf file) = .error f ∧ x = .error (.ofFile f)) →
          r.IsAnswer phase x := by
        intro x hx file' hfile'
        obtain rfl := Option.some.inj (hof.symm.trans hfile')
        exact hx
      dsimp only
      cases hlook : r.world.disk.isFile (imageOf file) with
      | error f => exact .answered _ r.phases (hanswer _ (Or.inr ⟨f, hlook, rfl⟩)) hsame
      | ok isThere =>
        cases isThere with
        | true =>
          exact .answered _ (r.setImage (some (imageOf file)) phase).phases
            (hanswer _ (Or.inl ⟨hlook, rfl⟩)) (fileOf_setImage r (some (imageOf file)) phase)
        | false =>
          dsimp only
          cases hfind : r.drawings.findIdx? fun d => d.file = file && d.isUnfinished with
          | none =>
            refine .made file hof fun d hd hunfinished hdraws => ?_
            have hnot := List.findIdx?_eq_none_iff.1 hfind d hd
            rw [hunfinished, hdraws] at hnot
            simp at hnot
          | some place =>
            obtain ⟨hlt, hplace, -⟩ := List.findIdx?_eq_some_iff_getElem.1 hfind
            obtain ⟨hdraws, hunfinished⟩ := Bool.and_eq_true_iff.1 hplace
            refine .joined place ⟨r.drawings[place], List.getElem?_eq_getElem hlt, hunfinished, ?_⟩
            rw [hof, of_decide_eq_true hdraws]

/-- What a request changes: it adds drawings to the end of the queue. -/
structure Extends (r r₁ : Rendering) : Prop where
  renderer : r₁.renderer = r.renderer
  world : r₁.world = r.world
  askings : r₁.askings = r.askings
  calls : r₁.calls = r.calls
  files : ∀ phase, r₁.fileOf phase = r.fileOf phase
  drawings : ∃ new : List Drawing,
    r₁.drawings = r.drawings ++ new ∧ ∀ d ∈ new, d.stage = .queued

theorem Extends.refl (r : Rendering) : r.Extends r :=
  ⟨rfl, rfl, rfl, rfl, fun _ => rfl, [], (List.append_nil _).symm, fun _ h => by cases h⟩

theorem Extends.trans (h : r.Extends r₁) (h' : r₁.Extends r₂) : r.Extends r₂ := by
  obtain ⟨new, hnew, hqueued⟩ := h.drawings
  obtain ⟨new', hnew', hqueued'⟩ := h'.drawings
  refine ⟨h'.renderer.trans h.renderer, h'.world.trans h.world, h'.askings.trans h.askings,
    h'.calls.trans h.calls, fun phase => (h'.files phase).trans (h.files phase), new ++ new', ?_,
    fun d hd => ?_⟩
  · rw [hnew', hnew, List.append_assoc]
  · rcases List.mem_append.1 hd with hd | hd
    · exact hqueued d hd
    · exact hqueued' d hd

/-- A drawing keeps its place. -/
theorem Extends.getElem? (h : r.Extends r₁) (hd : r.drawings[i]? = some d) :
    r₁.drawings[i]? = some d := by
  obtain ⟨new, hnew, -⟩ := h.drawings
  obtain ⟨hlt, -⟩ := List.getElem?_eq_some_iff.1 hd
  rw [hnew, List.getElem?_append_left hlt, hd]

theorem Extends.isDrawn (h : r.Extends r₁) (hdrawn : r.IsDrawn phase place) :
    r₁.IsDrawn phase place := by
  obtain ⟨d, hd, hunfinished, hfile⟩ := hdrawn
  exact ⟨d, h.getElem? hd, hunfinished, (h.files phase).trans hfile⟩

/-- A part of a new request waits for a drawing of its file, or has its answer. -/
def PartIn (r : Rendering) (p : Part) : Prop :=
  (∃ k, p.Waits k ∧ r.IsDrawn p.phase k) ∨ ∃ x, p.Has x ∧ r.IsAnswer p.phase x

theorem Extends.partIn {p : Part} (h : r.Extends r₁) (hp : r.PartIn p) : r₁.PartIn p := by
  rcases hp with ⟨k, hwaits, hdrawn⟩ | ⟨x, hhas, hx⟩
  · exact Or.inl ⟨k, hwaits, h.isDrawn hdrawn⟩
  · refine Or.inr ⟨x, hhas, fun file hfile => ?_⟩
    rw [h.world]
    exact hx file ((h.files p.phase).symm.trans hfile)

/-- A drawing that is added to the queue stands behind the others. -/
theorem getElem?_queued {ds : List Drawing} (hd : (ds ++ [({ file } : Drawing)])[i]? = some d) :
    ds[i]? = some d ∨ i = ds.length ∧ d = { file } := by
  rcases Nat.lt_or_ge i ds.length with hlt | hge
  · rw [List.getElem?_append_left hlt] at hd
    exact Or.inl hd
  · rw [List.getElem?_append_right hge, List.getElem?_singleton] at hd
    split at hd
    · next hi => exact Or.inr ⟨by omega, (Option.some.inj hd).symm⟩
    · cases hd

/-- A drawing that is queued extends the renderer. -/
theorem extends_queued (r : Rendering) (file : Text) :
    r.Extends { r with drawings := r.drawings ++ [{ file }] } :=
  ⟨rfl, rfl, rfl, rfl, fun _ => rfl, [{ file }], rfl, fun d hd => by rw [List.mem_singleton.1 hd]⟩

/-- A drawing may be queued as long as no unfinished one is for its file. -/
theorem Sound.queue (h : r.Sound)
    (hnew : ∀ d ∈ r.drawings, d.isUnfinished = true → d.file ≠ file) :
    Sound { r with drawings := r.drawings ++ [{ file }] } := by
  refine ⟨?_, ?_, ?_, ?_, ?_, h.settled⟩
  · exact Nat.le_trans h.calls_le (by simp)
  · intro i d hd
    rcases getElem?_queued hd with hd | ⟨rfl, rfl⟩
    · exact h.queued hd
    · exact ⟨fun _ => h.calls_le, fun _ => rfl⟩
  · have hsame : inFlight { r with drawings := r.drawings ++ [{ file }] } = r.inFlight := by
      simp [inFlight, Drawing.isRunning]
    rw [hsame]
    exact h.limited
  · intro i k d d' hd hd' hunfinished hunfinished' hsame
    rcases getElem?_queued hd with hd | ⟨rfl, rfl⟩
    · rcases getElem?_queued hd' with hd' | ⟨rfl, rfl⟩
      · exact h.unique hd hd' hunfinished hunfinished' hsame
      · exact absurd hsame (hnew d (List.mem_of_getElem? hd) hunfinished)
    · rcases getElem?_queued hd' with hd' | ⟨rfl, rfl⟩
      · exact absurd hsame.symm (hnew d' (List.mem_of_getElem? hd') hunfinished')
      · rfl
  · intro a p k ha hp hk
    exact (extends_queued r file).isDrawn (h.joined ha hp hk)

/-- A phase that is asked for. -/
theorem Sound.part (h : r.Sound) (phase : ℕ) :
    (r.part phase).2.Sound ∧ r.Extends (r.part phase).2 ∧
      (r.part phase).2.PartIn (r.part phase).1 ∧ (r.part phase).1.phase = phase := by
  have hparted := parted_part r phase
  generalize (r.part phase).1 = p, (r.part phase).2 = r₁ at hparted
  cases hparted with
  | answered x phases hx hfiles =>
    have hext : r.Extends { r with phases } :=
      ⟨rfl, rfl, rfl, rfl, hfiles, [], (List.append_nil _).symm, fun _ h => by cases h⟩
    refine ⟨⟨h.calls_le, h.queued, h.limited, h.unique, ?_, h.settled⟩, hext,
      Or.inr ⟨x, ⟨rfl, rfl⟩, fun file hfile => hx file ((hfiles phase).symm.trans hfile)⟩, rfl⟩
    intro a p k ha hp hk
    exact hext.isDrawn (h.joined ha hp hk)
  | joined place hdrawn =>
    exact ⟨h, .refl r, Or.inl ⟨place, ⟨rfl, rfl⟩, hdrawn⟩, rfl⟩
  | made file hfile hnew =>
    have hdrawn : IsDrawn { r with drawings := r.drawings ++ [{ file }] } phase
        r.drawings.length := ⟨{ file }, by simp, rfl, hfile⟩
    exact ⟨h.queue hnew, extends_queued r file, Or.inl ⟨_, ⟨rfl, rfl⟩, hdrawn⟩, rfl⟩

/-- The parts of a call, taken phase by phase, keep the renderer sound and are in it. -/
theorem Sound.parts (h : r.Sound) (phases : List ℕ) :
    (r.parts phases).2.Sound ∧ r.Extends (r.parts phases).2 ∧
      (∀ p ∈ (r.parts phases).1, (r.parts phases).2.PartIn p) ∧
      (r.parts phases).1.map (·.phase) = phases := by
  induction phases generalizing r with
  | nil => exact ⟨h, .refl r, fun _ hp => absurd hp List.not_mem_nil, rfl⟩
  | cons phase phases ih =>
    obtain ⟨hsound, hext, hpart, hphase⟩ := h.part phase
    obtain ⟨hsound', hext', hparts, hphases⟩ := ih hsound
    refine ⟨hsound', hext.trans hext', List.forall_mem_cons.2 ⟨hext'.partIn hpart, hparts⟩, ?_⟩
    exact List.cons_eq_cons.2 ⟨hphase, hphases⟩

/-- A request. -/
theorem Sound.enter (h : r.Sound) (name : Text) (several : Bool) (phases : List ℕ) :
    (r.enter name several phases).Sound := by
  obtain ⟨hsound, -, hparts, -⟩ := h.parts phases
  have hopen : Asking.IsOpen { name, several, parts := (r.parts phases).1 } := by
    intro p hp
    rcases hparts p hp with ⟨k, hwaits, -⟩ | ⟨x, hhas, -⟩
    · exact Or.inl ⟨k, hwaits⟩
    · exact Or.inr ⟨x, hhas⟩
  refine ⟨hsound.calls_le, hsound.queued, hsound.limited, hsound.unique, ?_, ?_⟩
  · intro a p k ha hp hk
    rcases List.mem_append.1 ha with ha | ha
    · exact hsound.joined ha hp hk
    · rw [List.mem_singleton.1 ha, Asking.parts_settle] at hp
      rcases hparts p hp with ⟨k', hwaits, hdrawn⟩ | ⟨x, hhas, -⟩
      · have hkk : k' = k := Option.some.inj (hwaits.1.symm.trans hk)
        exact hkk ▸ hdrawn
      · rw [hhas.1] at hk
        cases hk
  · intro a ha
    rcases List.mem_append.1 ha with ha | ha
    · exact hsound.settled ha
    · rw [List.mem_singleton.1 ha]
      exact Asking.settled_settle rfl hopen

end Requests

/-! ### Drawings that change -/

section Changes

/-- Counting after one drawing has changed. -/
theorem length_filter_modify (kind : Drawing → Bool) (change : Drawing → Drawing)
    {ds : List Drawing} (hd : ds[i]? = some d) :
    ((ds.modify i change).filter kind).length + (kind d).toNat =
      (ds.filter kind).length + (kind (change d)).toNat := by
  induction ds generalizing i with
  | nil => cases hd
  | cons d' ds ih =>
    cases i with
    | zero =>
      obtain rfl := Option.some.inj hd
      rw [List.modify_zero_cons, List.filter_cons, List.filter_cons]
      cases kind d' <;> cases kind (change d') <;> simp
    | succ i =>
      have hcount := ih hd
      rw [List.modify_succ_cons, List.filter_cons, List.filter_cons]
      cases kind d' <;> simp <;> omega

/-- The drawings after the stage of one of them has changed. -/
theorem getElem?_setStage {ds : List Drawing} {stage : DrawingStage}
    (hd : (ds.modify place fun d => { d with stage })[i]? = some d) :
    ∃ d', ds[i]? = some d' ∧ d.file = d'.file ∧
      d.stage = if place = i then stage else d'.stage := by
  rw [List.getElem?_modify] at hd
  obtain ⟨d', hd', rfl⟩ := Option.map_eq_some_iff.1 hd
  refine ⟨d', hd', ?_, ?_⟩ <;> split <;> rfl

/-- A drawing that is unfinished after the change was so before. -/
theorem isUnfinished_of_setStage {ds : List Drawing} {stage : DrawingStage} {d₁ : Drawing}
    (hd : ds[place]? = some d) (hunfinished : d.isUnfinished = true)
    (hd₁ : (ds.modify place fun d => { d with stage })[i]? = some d₁)
    (hunfinished₁ : d₁.isUnfinished = true) :
    ∃ d', ds[i]? = some d' ∧ d'.isUnfinished = true ∧ d₁.file = d'.file := by
  obtain ⟨d', hd', hfile, hstage⟩ := getElem?_setStage hd₁
  refine ⟨d', hd', ?_, hfile⟩
  split at hstage
  · next hi =>
    rw [← hi, hd] at hd'
    obtain rfl := Option.some.inj hd'
    exact hunfinished
  · rw [← Drawing.isUnfinished_congr hstage, hunfinished₁]

/-- Two unfinished drawings for one file are the same also when one of them moves on. -/
theorem Sound.unique_setStage {stage : DrawingStage} {d₁ d₂ : Drawing} (h : r.Sound)
    (hd : r.drawings[place]? = some d) (hunfinished : d.isUnfinished = true)
    (hd₁ : (r.drawings.modify place fun d => { d with stage })[i]? = some d₁)
    (hd₂ : (r.drawings.modify place fun d => { d with stage })[k]? = some d₂)
    (hunfinished₁ : d₁.isUnfinished = true) (hunfinished₂ : d₂.isUnfinished = true)
    (hsame : d₁.file = d₂.file) : i = k := by
  obtain ⟨d₁', hd₁', hgoing₁, hfile₁⟩ :=
    isUnfinished_of_setStage hd hunfinished hd₁ hunfinished₁
  obtain ⟨d₂', hd₂', hgoing₂, hfile₂⟩ :=
    isUnfinished_of_setStage hd hunfinished hd₂ hunfinished₂
  exact h.unique hd₁' hd₂' hgoing₁ hgoing₂ (hfile₁.symm.trans (hsame.trans hfile₂))

/-- A phase is still drawn after the change, unless this has ended its drawing. -/
theorem IsDrawn.setStage {stage : DrawingStage} (hdrawn : r.IsDrawn phase k)
    (hdrawings : r₁.drawings = r.drawings.modify place fun d => { d with stage })
    (hfiles : ∀ phase, r₁.fileOf phase = r.fileOf phase)
    (hgoing : place = k → ∀ file, Drawing.isUnfinished { file, stage } = true) :
    r₁.IsDrawn phase k := by
  obtain ⟨d, hd, hunfinished, hfile⟩ := hdrawn
  unfold IsDrawn
  rw [hdrawings, List.getElem?_modify, hd, hfiles]
  by_cases hk : place = k
  · exact ⟨{ d with stage }, by simp [hk], hgoing hk d.file, hfile⟩
  · exact ⟨d, by simp [hk], hunfinished, hfile⟩

end Changes

/-! ### Starts -/

section Starts

/-- The next drawing is the first one that was not started. -/
theorem Sound.next_place (h : r.Sound) (hnext : r.nextQueued = some (place, file)) :
    place = r.calls := by
  obtain ⟨-, ⟨d, hd, hqueued, -⟩, hbefore⟩ := nextQueued_eq_some hnext
  have hle : r.calls ≤ place := (h.queued hd).1 hqueued
  by_contra hne
  have hlt : r.calls < place := Nat.lt_of_le_of_ne hle (Ne.symm hne)
  obtain ⟨hlength, -⟩ := List.getElem?_eq_some_iff.1 hd
  have hfirst := List.getElem?_eq_getElem (Nat.lt_trans hlt hlength)
  have hqueued' := (h.queued hfirst).2 (Nat.le_refl _)
  rw [hbefore _ _ hlt hfirst] at hqueued'
  exact Bool.false_ne_true hqueued'

/-- A drawing that begins is one more in flight. -/
theorem inFlight_begin (hnext : r.nextQueued = some (place, file)) :
    (r.begin place file).inFlight = r.inFlight + 1 := by
  obtain ⟨-, ⟨d, hd, hqueued, -⟩, -⟩ := nextQueued_eq_some hnext
  have hcount := length_filter_modify Drawing.isRunning
    (fun d => { d with stage := .running r.calls }) hd
  rw [Drawing.isRunning_of_isQueued hqueued] at hcount
  exact hcount

/-- A start. -/
theorem Sound.begin (h : r.Sound) (hnext : r.nextQueued = some (place, file)) :
    (r.begin place file).Sound := by
  obtain rfl := h.next_place hnext
  obtain ⟨hlimit, ⟨d, hd, hqueued, -⟩, -⟩ := nextQueued_eq_some hnext
  obtain ⟨hlength, -⟩ := List.getElem?_eq_some_iff.1 hd
  refine ⟨?_, fun {i d₁} hd₁ => ?_, ?_, ?_, ?_, h.settled⟩
  · rw [begin, List.length_modify]
    exact hlength
  · -- the border moves behind the drawing that has started
    obtain ⟨d', hd', -, hstage⟩ := getElem?_setStage hd₁
    have hborder : r.calls + 1 ≤ i ↔ r.calls ≤ i ∧ r.calls ≠ i := by omega
    have hcalls : (r.begin r.calls file).calls = r.calls + 1 := rfl
    rw [hcalls, hborder, ← h.queued hd']
    split at hstage
    · next hi =>
      have hrunning : d₁.isRunning = true := by rw [Drawing.isRunning, hstage]
      rw [Drawing.isQueued_of_isRunning hrunning]
      exact ⟨fun hfalse => absurd hfalse Bool.false_ne_true, fun hboth => absurd hi hboth.2⟩
    · next hi =>
      rw [Drawing.isQueued_congr hstage]
      exact ⟨fun hq => ⟨hq, hi⟩, fun hboth => hboth.1⟩
  · rw [inFlight_begin hnext]
    exact hlimit
  · exact h.unique_setStage hd (Drawing.isUnfinished_of_isQueued hqueued)
  · intro a p k ha hp hk
    exact (h.joined ha hp hk).setStage rfl (fun _ => rfl) fun _ _ => rfl

end Starts

/-! ### Ends of drawings -/

section Ends

/-- What the drawing of a file gives when its call ends with an outcome. -/
def resultAt (r : Rendering) (file : Text) (o : Outcome) : Except Failure Image :=
  (resultOf (r.world.ending (r.renderer.command file) o).2 file
    (r.world.ending (r.renderer.command file) o).1).1

/-- Setting images touches the phases only. -/
theorem foldl_setImage (image : Image) (phases : List ℕ) (r : Rendering) :
    ∃ ps, phases.foldl (setImage · image) r = { r with phases := ps } ∧
      ∀ i, ps[i]?.bind (·.file) = r.fileOf i := by
  induction phases generalizing r with
  | nil => exact ⟨r.phases, rfl, fun _ => rfl⟩
  | cons phase phases ih =>
    obtain ⟨ps, hps, hfiles⟩ := ih (r.setImage image phase)
    refine ⟨ps, ?_, fun i => (hfiles i).trans (fileOf_setImage r image phase i)⟩
    rw [List.foldl_cons, hps]
    cases image <;> rfl

/-- The end of a call ends the drawing and answers the requests that wait for it. It starts
nothing. -/
theorem complete_eq (r : Rendering) (place : ℕ) (file : Text) (o : Outcome) :
    ∃ world phases, r.complete place file o = { r with
        world
        phases
        drawings := r.drawings.modify place fun d => { d with stage := .done (r.resultAt file o) }
        askings := r.askings.map fun a => a.answer place (r.resultAt file o) } ∧
      world.started = r.world.started ∧ ∀ i, phases[i]?.bind (·.file) = r.fileOf i := by
  have hstarted := World.started_ending r.world (r.renderer.command file) o
  unfold complete resultAt
  generalize r.world.ending (r.renderer.command file) o = ended at hstarted
  obtain ⟨ending, world⟩ := ended
  dsimp only at hstarted ⊢
  generalize resultOf world file ending = result
  obtain ⟨result, records⟩ := result
  dsimp only
  cases result with
  | error f => exact ⟨_, r.phases, rfl, hstarted, fun _ => rfl⟩
  | ok image =>
    dsimp only
    obtain ⟨ps, hps, hfiles⟩ := foldl_setImage image
      (r.askings.flatMap fun a => a.phasesAwaiting place)
      { r with
        world := { world with log := records.reverse ++ world.log }
        drawings := r.drawings.modify place fun d => { d with stage := .done (.ok image) }
        askings := r.askings.map fun a => a.answer place (.ok image) }
    exact ⟨_, ps, hps, hstarted, hfiles⟩

/-- A drawing that ends is one fewer in flight. -/
theorem inFlight_complete (hd : r.drawings[place]? = some d) (hrunning : d.isRunning = true)
    (o : Outcome) : (r.complete place d.file o).inFlight + 1 = r.inFlight := by
  obtain ⟨world, phases, heq, -, -⟩ := complete_eq r place d.file o
  have hcount := length_filter_modify Drawing.isRunning
    (fun d' => { d' with stage := .done (r.resultAt d.file o) }) hd
  rw [hrunning] at hcount
  rw [heq]
  exact hcount

/-- The end of a call. -/
theorem Sound.complete (h : r.Sound) (hd : r.drawings[place]? = some d)
    (hrunning : d.isRunning = true) (o : Outcome) : (r.complete place d.file o).Sound := by
  have hcount := inFlight_complete hd hrunning o
  obtain ⟨world, phases, heq, -, hfiles⟩ := complete_eq r place d.file o
  rw [heq] at hcount ⊢
  refine ⟨?_, fun {i d₁} hd₁ => ?_, ?_, ?_, ?_, ?_⟩
  · dsimp only
    rw [List.length_modify]
    exact h.calls_le
  · obtain ⟨d', hd', -, hstage⟩ := getElem?_setStage hd₁
    rw [← h.queued hd']
    split at hstage
    · next hi =>
      rw [← hi, hd] at hd'
      obtain rfl := Option.some.inj hd'
      have hnot : d₁.isQueued = false := by rw [Drawing.isQueued, hstage]
      rw [hnot, Drawing.isQueued_of_isRunning hrunning]
    · rw [Drawing.isQueued_congr hstage]
  · have hlimited := h.limited
    dsimp only at hcount ⊢
    omega
  · exact h.unique_setStage hd (Drawing.isUnfinished_of_isRunning hrunning)
  · intro a p k ha hp hk
    obtain ⟨b, hb, rfl⟩ := List.mem_map.1 ha
    rw [Asking.parts_answer] at hp
    obtain ⟨q, hq, rfl⟩ := List.mem_map.1 hp
    by_cases hwaits : q.drawing = some place
    · rw [Part.given, if_pos hwaits] at hk
      cases hk
    · rw [Part.given_of_ne hwaits] at hk ⊢
      exact (h.joined hb hq hk).setStage rfl hfiles fun hplace => absurd (hplace ▸ hk) hwaits
  · intro a ha
    obtain ⟨b, hb, rfl⟩ := List.mem_map.1 ha
    exact (h.settled hb).answer place _

end Ends

/-! ### Every turn -/

section Every

/-- A request that is given up. -/
theorem Sound.abandon (h : r.Sound) (name : Text) : (r.abandon name).Sound := by
  have hcases : ∀ {a : Asking}, a ∈ (r.abandon name).askings →
      a ∈ r.askings ∨ ∃ b ∈ r.askings, a = b.abandon := by
    intro a ha
    obtain ⟨b, hb, rfl⟩ := List.mem_map.1 ha
    split
    · exact Or.inr ⟨b, hb, rfl⟩
    · exact Or.inl hb
  refine ⟨h.calls_le, h.queued, h.limited, h.unique, ?_, ?_⟩
  · intro a p k ha hp hk
    rcases hcases ha with ha | ⟨b, hb, rfl⟩
    · exact h.joined ha hp hk
    · unfold Asking.abandon at hp
      split at hp
      · exact h.joined hb hp hk
      · obtain ⟨q, -, rfl⟩ := List.mem_map.1 hp
        cases hk
  · intro a ha
    rcases hcases ha with ha | ⟨b, hb, rfl⟩
    · exact h.settled ha
    · exact (h.settled hb).abandon

/-- Whatever the turn, the renderer stays sound. -/
theorem Sound.turn (h : r.Sound) (hturn : r.Turn e r₁) : r₁.Sound := by
  cases hturn with
  | ask name several phases => exact h.enter name several phases
  | start hnext => exact h.begin hnext
  | finish o hd hrunning => exact h.complete hd hrunning o
  | abandon name => exact h.abandon name
  | meanwhile disk outcomes told =>
    exact ⟨h.calls_le, h.queued, h.limited, h.unique, h.joined, h.settled⟩

theorem Sound.reaches {es : List Event} (h : r.Sound) (hreaches : r.Reaches es r₁) : r₁.Sound := by
  induction hreaches with
  | refl => exact h
  | next _ hturn ih => exact ih.turn hturn

end Every

end Rendering

end JitInspect
