import JitInspect.Proofs.Render.Queue
import Mathlib.Data.List.Forall2

/-!
# Requests that are served

What somebody who asks for images can rely on, however requests, starts and ends of calls follow
each other (`Rendering.Renders`): as many calls run as have started and have not ended, and no more
than the limit; drawings start in the order in which they were made; no file is drawn twice at a
time; who joins a drawing gets what it gives; and a request for several images gets one entry for
each phase, in order, each of which comes from the image that was there or from the call for its own
file.

The last part needs that the images can be looked up: an image of which the name is too long for the
disk makes the whole request fail, although a drawing that fails is meant to give no image only
(`Rendering.ask_fails_of_long_name`).
-/

namespace JitInspect

/-- What failed, when a request failed. -/
def Reply.failure? : Reply → Option Failure
  | .failure f => some f
  | _ => none

namespace Rendering

variable {r r₀ r₁ : Rendering} {i k : ℕ} {d : Drawing} {es : List Event} {name : Text}
  {several : Bool} {phases : List ℕ}

/-! ### Calls that end -/

section Isolation

/-- The end of a call concerns its drawing and the parts for its file, whatever its outcome. -/
theorem Sound.isolated (h : r.Sound) (hd : r.drawings[k]? = some d) (o : Outcome) :
    (∀ i, i ≠ k → (r.complete k d.file o).drawings[i]? = r.drawings[i]?) ∧
      ∀ (i : ℕ) (a : Asking) (q : ℕ) (p : Part), r.askings[i]? = some a → a.parts[q]? = some p →
        r.fileOf p.phase ≠ some d.file →
        ∃ a', (r.complete k d.file o).askings[i]? = some a' ∧ a'.parts[q]? = some p := by
  obtain ⟨world, phases, heq, -, -⟩ := complete_eq r k d.file o
  rw [heq]
  refine ⟨fun i hi => getElem?_modify_of_ne hi.symm, fun i a q p ha hp hother => ?_⟩
  have hwaits : p.drawing ≠ some k := by
    intro hk
    obtain ⟨d', hd', -, hfile⟩ :=
      h.joined (List.mem_of_getElem? ha) (List.mem_of_getElem? hp) hk
    obtain rfl := Option.some.inj (hd.symm.trans hd')
    exact hother hfile
  refine ⟨a.answer k (r.resultAt d.file o), ?_, ?_⟩
  · dsimp only
    rw [List.getElem?_map, ha]
    rfl
  · rw [Asking.parts_answer, List.getElem?_map, hp, Option.map_some, Part.given_of_ne hwaits]

/-- When nothing runs and nothing can start, every request has its reply. -/
theorem Sound.replied (h : r.Sound) (hidle : r.inFlight = 0) (hnext : r.nextQueued = none)
    (hgoing : r.drawings.any Drawing.isInterrupted = false) {a : Asking} (ha : a ∈ r.askings) :
    a.reply.isSome = true := by
  have hunfinished : ∀ d ∈ r.drawings, d.isUnfinished = false := by
    intro d hd
    have hlimit : r.inFlight < r.renderer.limit := by
      rw [hidle]
      exact r.renderer.limit_pos
    have hrunning : ¬ d.isRunning = true :=
      List.filter_eq_nil_iff.1 (List.length_eq_zero_iff.1 hidle) d hd
    rw [Drawing.isUnfinished, nextQueued_eq_none hnext hlimit hgoing hd,
      Bool.eq_false_iff.2 hrunning, Bool.or_false]
  cases h.settled ha with
  | waits _ _ _ hwaits =>
    obtain ⟨p, hp, k, hk, -⟩ := hwaits
    obtain ⟨d, hd, hdrawn, -⟩ := h.joined ha hp hk
    rw [hunfinished d (List.mem_of_getElem? hd)] at hdrawn
    exact absurd hdrawn Bool.false_ne_true
  | answered _ hreply _ _ => rw [hreply]; rfl
  | failed _ hreply _ _ => rw [hreply]; rfl
  | abandoned hreply _ => rw [hreply]; rfl

end Isolation

/-! ### Entries -/

section Entries

/-- The call for a file ends with what it has printed, and it can be seen whether the image is there
then. -/
def EndsWell (r : Rendering) (file : Text) (o : Outcome) : Prop :=
  (∃ p, (r.world.ending (r.renderer.command file) o).1 = .ok p) ∧
    ∃ isThere, (r.world.ending (r.renderer.command file) o).2.disk.isFile (imageOf file) =
      .ok isThere

/-- Such a call gives the image, or none if it has printed errors or left no image behind. -/
theorem EndsWell.gives {file : Text} {o : Outcome} (h : r.EndsWell file o) :
    ∃ p isThere, (r.world.ending (r.renderer.command file) o).1 = .ok p ∧
      (r.world.ending (r.renderer.command file) o).2.disk.isFile (imageOf file) = .ok isThere ∧
      r.resultAt file o = .ok (if p.ok && isThere then some (imageOf file) else none) := by
  obtain ⟨⟨p, hp⟩, isThere, hisThere⟩ := h
  refine ⟨p, isThere, hp, hisThere, ?_⟩
  unfold resultAt resultOf
  rw [hp]
  dsimp only
  cases p.ok with
  | false => rfl
  | true =>
    rw [hisThere]
    cases isThere <;> rfl

/-- The answer to a phase that was asked for: its image was there or could not be looked up, or the
call for its file has ended since and gives the answer. -/
def IsGiven (r r₁ : Rendering) (es : List Event) (phase : ℕ) (x : Except Failure Image) : Prop :=
  r.IsAnswer phase x ∨
    ∃ (k : ℕ) (file : Text), r.fileOf phase = some file ∧ r₁.Ended es k file x

/-- A new request. -/
theorem Sound.entered (h : r.Sound) (name : Text) (several : Bool) (phases : List ℕ) :
    ∃ a, (r.enter name several phases).askings[r.askings.length]? = some a ∧
      a.several = several ∧ a.parts.map (·.phase) = phases ∧
      (∀ p ∈ a.parts, (∃ k, p.Waits k ∧ (r.enter name several phases).IsDrawn p.phase k) ∨
        ∃ x, p.Has x ∧ r.IsAnswer p.phase x) ∧
      ∀ phase, (r.enter name several phases).fileOf phase = r.fileOf phase := by
  obtain ⟨-, hext, hparts, hphases⟩ := h.parts phases
  refine ⟨Asking.settle { name, several, parts := (r.parts phases).1 }, ?_,
    Asking.several_settle _, ?_, fun p hp => ?_, hext.files⟩
  · rw [Rendering.enter, hext.askings]
    simp
  · rw [Asking.parts_settle]
    exact hphases
  · rw [Asking.parts_settle] at hp
    rcases hparts p hp with hwaits | ⟨x, hhas, hx⟩
    · exact Or.inl hwaits
    · refine Or.inr ⟨x, hhas, fun file hfile => ?_⟩
      have hlook := hx file ((hext.files p.phase).trans hfile)
      rwa [hext.world] at hlook

/-- Where the answers to a request come from. -/
theorem Reaches.given (hreaches : (r.enter name several phases).Reaches es r₁) (h : r.Sound) :
    ∃ a, r₁.askings[r.askings.length]? = some a ∧ a.several = several ∧
      a.parts.map (·.phase) = phases ∧
      (a.reply ≠ some .abandoned → ∀ p ∈ a.parts, ∀ x, p.Has x →
        IsGiven r (r.enter name several phases) es p.phase x) := by
  have hsound := h.enter name several phases
  obtain ⟨a₀, ha₀, hseveral₀, hphases₀, hparts₀, hfiles⟩ := h.entered name several phases
  obtain ⟨a, ha, hseveral, hlength⟩ := hreaches.asking hsound ha₀
  refine ⟨a, ha, hseveral.trans hseveral₀, ?_, ?_⟩
  · rw [← hphases₀]
    apply List.ext_getElem?
    intro q
    rw [List.getElem?_map, List.getElem?_map]
    cases hp : a.parts[q]? with
    | none =>
      rw [List.getElem?_eq_none (hlength ▸ List.getElem?_eq_none_iff.1 hp)]
    | some p =>
      obtain ⟨p₀, hp₀, hphase, -⟩ := hreaches.parts hsound ha₀ ha hp
      rw [hp₀, Option.map_some, Option.map_some, hphase]
  · intro hwanted p hp x hx
    obtain ⟨q, hq⟩ := List.getElem?_of_mem hp
    obtain ⟨p₀, hp₀, hphase, hcases⟩ := hreaches.parts hsound ha₀ ha hq
    have hin := hparts₀ p₀ (List.mem_of_getElem? hp₀)
    rcases hcases with habandoned | rfl | ⟨k, d, y, hk, hd, hdone, hy⟩
    · exact absurd habandoned hwanted
    · rcases hin with ⟨k, hwaits, -⟩ | ⟨y, hy, hanswer⟩
      · exact absurd (hwaits.1.symm.trans hx.1) (Option.some_ne_none k)
      · obtain rfl := Option.some.inj (hx.2.symm.trans hy.2)
        exact Or.inl hanswer
    · obtain rfl := Option.some.inj (hx.2.symm.trans hy.2)
      rcases hin with ⟨k', hwaits, d₀, hd₀, hunfinished, hfile⟩ | ⟨y, hhas, -⟩
      · obtain rfl := Option.some.inj (hk.symm.trans hwaits.1)
        obtain ⟨d', hd', hsame⟩ := hreaches.drawing hsound hd₀
        obtain rfl := Option.some.inj (hd.symm.trans hd')
        refine Or.inr ⟨k, d.file, ?_, hreaches.drawn hsound hd hdone fun d' hd' hdone' => ?_⟩
        · rw [hphase, ← hfiles, hfile, hsame]
        · obtain rfl := Option.some.inj (hd₀.symm.trans hd')
          rw [Drawing.not_isUnfinished_of_done hdone'] at hunfinished
          exact Bool.false_ne_true hunfinished
      · exact absurd (hk.symm.trans hhas.1) (Option.some_ne_none k)

/-- Images can be looked up when a request comes, and whenever a call for one of its files ends. -/
structure CanLook (r : Rendering) (name : Text) (several : Bool) (phases : List ℕ)
    (es : List Event) : Prop where
  stored : ∀ phase ∈ phases, ∃ file, r.fileOf phase = some file ∧
    ∃ isThere, r.world.disk.isFile (imageOf file) = .ok isThere
  ends : ∀ {es₁ es₂ : List Event} {k : ℕ} {o : Outcome} {r₁ : Rendering} {d : Drawing},
    es = es₁ ++ .finish k o :: es₂ → (r.enter name several phases).Reaches es₁ r₁ →
    r₁.drawings[k]? = some d → (∃ phase ∈ phases, r.fileOf phase = some d.file) →
    r₁.EndsWell d.file o

/-- Then the answer to each phase is an image or none. -/
theorem CanLook.image {phase : ℕ} {x : Except Failure Image}
    (h : r.CanLook name several phases es) (hphase : phase ∈ phases)
    (hx : IsGiven r (r.enter name several phases) es phase x) : ∃ image, x = .ok image := by
  obtain ⟨file, hfile, isThere, hisThere⟩ := h.stored phase hphase
  rcases hx with hx | ⟨k, file', hfile', es₁, es₂, r₁, o, hes, hreaches, ⟨d, hd, -, rfl⟩, hx⟩
  · rcases hx file hfile with ⟨-, hx⟩ | ⟨f, hf, -⟩
    · exact ⟨_, hx⟩
    · rw [hisThere] at hf
      cases hf
  · obtain ⟨p, isThere', -, -, hgives⟩ :=
      (h.ends hes hreaches hd ⟨phase, hphase, hfile'⟩).gives
    exact ⟨_, hx.trans hgives⟩

/-- What a request has come to. -/
inductive Served (r : Rendering) (name : Text) (several : Bool) (phases : List ℕ)
    (es : List Event) (r₁ : Rendering) (a : Asking) : Prop where
  /-- One of its drawings has not ended. -/
  | waits (hreply : a.reply = none)
      (hwaits : ∃ p ∈ a.parts, p.phase ∈ phases ∧ ∃ k, p.Waits k ∧ r₁.IsDrawn p.phase k)
  /-- There is one entry for each phase, in order. -/
  | images (is : List Image)
      (hreply : a.reply = some (if several then .images is else .image (is.head?.getD none)))
      (hentries : List.Forall₂ (fun phase entry =>
        IsGiven r (r.enter name several phases) es phase (.ok entry)) phases is)
  | abandoned (hreply : a.reply = some .abandoned)

/-- A request of which the images can be looked up comes to one entry for each phase. -/
theorem Reaches.served (hreaches : (r.enter name several phases).Reaches es r₁) (h : r.Sound)
    (hlook : r.CanLook name several phases es) :
    ∃ a, r₁.askings[r.askings.length]? = some a ∧ r.Served name several phases es r₁ a := by
  obtain ⟨a, ha, hseveral, hphases, hgiven⟩ := hreaches.given h
  have hmem := List.mem_of_getElem? ha
  have hsound := (h.enter name several phases).reaches hreaches
  have hof : ∀ p ∈ a.parts, p.phase ∈ phases := by
    intro p hp
    rw [← hphases]
    exact List.mem_map_of_mem hp
  refine ⟨a, ha, ?_⟩
  cases hsound.settled hmem with
  | waits hreply _ _ hwaits =>
    obtain ⟨p, hp, k, hk⟩ := hwaits
    exact .waits hreply ⟨p, hp, hof p hp, k, hk, hsound.joined hmem hp hk.1⟩
  | answered is hreply hnone hparts =>
    have hwanted : a.reply ≠ some .abandoned := by
      rw [hreply]
      split <;> simp
    refine .images is (hseveral ▸ hreply) ?_
    have hlengths : a.parts.length = is.length := by simpa using congrArg List.length hparts
    have hentries : List.Forall₂ (fun (p : Part) entry =>
        IsGiven r (r.enter name several phases) es p.phase (.ok entry)) a.parts is := by
      rw [List.forall₂_iff_get]
      refine ⟨hlengths, fun q hq hq' => ?_⟩
      have hp := List.getElem_mem hq
      have hanswer : a.parts[q].answer = some (.ok is[q]) := by
        have hget := congrArg (fun l => l[q]?) hparts
        simpa [List.getElem?_map, List.getElem?_eq_getElem hq, List.getElem?_eq_getElem hq']
          using hget
      exact hgiven hwanted _ hp _ ⟨hnone _ hp, hanswer⟩
    have hmapped := List.forall₂_map_left_iff (f := fun (p : Part) => p.phase)
      (R := fun phase entry => IsGiven r (r.enter name several phases) es phase (.ok entry))
      (l := a.parts) (u := is)
    rw [hphases] at hmapped
    exact hmapped.2 hentries
  | failed f hreply _ hfailed =>
    obtain ⟨p, hp, hhas⟩ := hfailed
    have hwanted : a.reply ≠ some .abandoned := by
      rw [hreply]
      simp
    obtain ⟨image, himage⟩ := hlook.image (hof p hp) (hgiven hwanted p hp _ hhas)
    cases himage
  | abandoned hreply _ => exact .abandoned hreply

end Entries

/-! ### Guarantees -/

section Guarantees

/-- What holds of the renderer `r` to which the events `es` have led from `r₀`. -/
structure Renders (r₀ : Rendering) (es : List Event) (r : Rendering) : Prop where
  renderer : r.renderer = r₀.renderer
  /-- As many calls run as have started and have not ended. -/
  running : r.inFlight + finishes es = starts es
  limited : r.inFlight ≤ r₀.renderer.limit
  /-- No file is drawn twice at a time. -/
  unique : ∀ {i k : ℕ} {d d' : Drawing}, r.drawings[i]? = some d → r.drawings[k]? = some d' →
    d.isUnfinished = true → d'.isUnfinished = true → d.file = d'.file → i = k
  /-- The drawings keep their places in the order in which they are made. -/
  kept : ∀ {es' : List Event} {r' : Rendering}, r.Reaches es' r' →
    r.drawings.map (·.file) <+: r'.drawings.map (·.file)
  /-- The first of them were started, in this order. -/
  ordered : r.calls = starts es ∧ r.IsInOrder (r₀.world.started.map (·.command))
  /-- A drawing gives what its call has given. -/
  drawn : ∀ {k : ℕ} {d : Drawing} {x : Except Failure Image}, r.drawings[k]? = some d →
    d.stage = .done x → r₀.Ended es k d.file x
  /-- Who waits for a drawing waits for an unfinished one of the right file. When this ends, all who
  still wait get what it gives. -/
  shared : ∀ {i q k : ℕ} {a : Asking} {p : Part}, r.askings[i]? = some a → a.parts[q]? = some p →
    p.drawing = some k → r.IsDrawn p.phase k ∧
      ∀ {es' : List Event} {r' : Rendering}, r.Reaches es' r' →
        ∃ a' p', r'.askings[i]? = some a' ∧ a'.parts[q]? = some p' ∧ p'.phase = p.phase ∧
          (a'.reply = some .abandoned ∨ p' = p ∨
            ∃ d x, r'.drawings[k]? = some d ∧ d.stage = .done x ∧ p'.Has x)
  /-- The end of a call concerns its drawing and the parts for its file alone. -/
  isolated : ∀ {k : ℕ} {d : Drawing}, r.drawings[k]? = some d → ∀ o : Outcome,
    (∀ i, i ≠ k → (r.complete k d.file o).drawings[i]? = r.drawings[i]?) ∧
      ∀ (i : ℕ) (a : Asking) (q : ℕ) (p : Part), r.askings[i]? = some a → a.parts[q]? = some p →
        r.fileOf p.phase ≠ some d.file →
        ∃ a', (r.complete k d.file o).askings[i]? = some a' ∧ a'.parts[q]? = some p
  /-- A request comes to one entry for each phase, in order. -/
  served : ∀ (name : Text) (several : Bool) (phases : List ℕ) {es' : List Event} {r' : Rendering},
    (r.enter name several phases).Reaches es' r' → r.CanLook name several phases es' →
    ∃ a, r'.askings[r.askings.length]? = some a ∧ r.Served name several phases es' r' a
  /-- When no call runs and none may start, every request has its reply. -/
  replied : r.inFlight = 0 → r.nextQueued = none →
    r.drawings.any Drawing.isInterrupted = false → ∀ a ∈ r.askings, a.reply.isSome = true
  /-- The program enters a request, and starts all drawings that may run. -/
  asked : ∀ (name : Text) (several : Bool) (phases : List ℕ),
    (r.ask name several phases).nextQueued = none ∧
      ∃ es', (r.enter name several phases).Reaches es' (r.ask name several phases)
  /-- So it does when it is told how a call has ended. -/
  told : ∀ (call : ℕ) (o : Outcome),
    (r.nextQueued = none → (r.tell call o).nextQueued = none) ∧
      ∃ es', r.Reaches es' (r.tell call o)

/-- The files of the drawings over time. -/
theorem Reaches.kept (hreaches : r.Reaches es r₁) (h : r.Sound) :
    r.drawings.map (·.file) <+: r₁.drawings.map (·.file) := by
  rw [List.prefix_iff_getElem?]
  intro i hi
  rw [List.length_map] at hi
  obtain ⟨d, hd, hfile⟩ := hreaches.drawing h (List.getElem?_eq_getElem hi)
  rw [List.getElem?_map, hd, List.getElem_map, Option.map_some, hfile]

/-- A renderer to which nobody has come before gives these guarantees whatever happens. -/
theorem reaches_renders (h₀ : r₀.IsFresh) (h : r₀.Reaches es r) : r₀.Renders es r := by
  have hsound₀ := h₀.sound
  have hsound := hsound₀.reaches h
  have hcounted := h.counted hsound₀
  have hidle : r₀.inFlight = 0 := by rw [inFlight, h₀.drawings]; rfl
  have horder₀ : r₀.IsInOrder (r₀.world.started.map (·.command)) := by
    rw [IsInOrder, h₀.drawings]
    simp
  refine
    { renderer := hcounted.renderer
      running := by rw [hcounted.running, hidle, Nat.zero_add]
      limited := hcounted.renderer ▸ hsound.limited
      unique := hsound.unique
      kept := fun hlater => hlater.kept hsound
      ordered := ⟨by rw [hcounted.calls, h₀.calls, Nat.zero_add], h.inOrder hsound₀ horder₀⟩
      drawn := fun hd hdone => ?_
      shared := fun {i q k a p} ha hp hk => ?_
      isolated := fun hd o => hsound.isolated hd o
      served := fun name several phases _ _ hlater hlook => hlater.served hsound hlook
      replied := fun hnone hnext hgoing a ha => hsound.replied hnone hnext hgoing ha
      asked := fun name several phases =>
        ⟨r.nextQueued_ask name several phases, r.reaches_ask name several phases⟩
      told := fun call o => ⟨fun hnext => nextQueued_tell hnext call o, r.reaches_tell call o⟩ }
  · refine h.drawn hsound₀ hd hdone fun d' hd' => ?_
    rw [h₀.drawings] at hd'
    cases hd'
  · refine ⟨hsound.joined (List.mem_of_getElem? ha) (List.mem_of_getElem? hp) hk,
      fun hlater => ?_⟩
    obtain ⟨a', p', ha', hp', hphase, hcases⟩ := hlater.part hsound ha hp
    refine ⟨a', p', ha', hp', hphase, ?_⟩
    rcases hcases with habandoned | hsame | ⟨k', d, x, hk', hd, hdone, hhas⟩
    · exact Or.inl habandoned
    · exact Or.inr (Or.inl hsame)
    · obtain rfl := Option.some.inj (hk.symm.trans hk')
      exact Or.inr (Or.inr ⟨d, x, hd, hdone, hhas⟩)

end Guarantees

/-! ### Two graphs that are drawn one at a time -/

section Sample

/-- A renderer for the graphs in two files, with the outcomes of the calls. One graph is drawn at a
time. -/
def sample (names : List Text) (outcomes : List Outcome) : Rendering where
  renderer := ⟨"dot", 1, Nat.one_pos⟩
  world :=
    { disk :=
        { tree := names.foldl (fun tree name => tree.put [name] (.file [])) .empty
          cwd := [] }
      outcomes }
  phases := names.mapIdx fun i name =>
    { ordinal := i + 1, absoluteOrdinal := i + 1, name := [], graph := []
      file := some ("/" ++ name) }

/-- A renderer for two graphs. -/
def twoGraphs : Rendering := sample ["a.dot", "b.dot"] []

/-- A call that fails. -/
def failingCall : Outcome := { ending := .ok { errors := "no" } }

/-- A call that leaves the image of the second graph behind. -/
def drawingCall : Outcome :=
  { effect := fun _ => Disk.single fun d => d.writeBytes "/b.dot.png" [] }

/-- One graph is drawn after the other. -/
def oneByOne : List Event :=
  [.start 0, .finish 0 failingCall, .start 1, .finish 1 drawingCall]

/-- A call that ends is the second thing that happens, or the fourth one. -/
theorem finish_of_oneByOne {es₁ es₂ : List Event} {o : Outcome}
    (h : oneByOne = es₁ ++ .finish k o :: es₂) :
    es₁ = [.start 0] ∧ k = 0 ∧ o = failingCall ∨
      es₁ = [.start 0, .finish 0 failingCall, .start 1] ∧ k = 1 ∧ o = drawingCall := by
  unfold oneByOne at h
  rcases es₁ with _ | ⟨e₁, _ | ⟨e₂, _ | ⟨e₃, _ | ⟨e₄, es₁⟩⟩⟩⟩
  · simp at h
  · obtain ⟨rfl, ⟨rfl, rfl⟩, -⟩ := by simpa using h
    exact Or.inl ⟨rfl, rfl, rfl⟩
  · simp at h
  · obtain ⟨rfl, rfl, rfl, ⟨rfl, rfl⟩, -⟩ := by simpa using h
    exact Or.inr ⟨rfl, rfl, rfl⟩
  · simp at h

/-- Of two graphs the second one is next when the first one failed. -/
theorem nextQueued_twoGraphs :
    (twoGraphs.enter [] true [0, 1]).nextQueued = some (0, ("/a.dot" : Text)) ∧
      (((twoGraphs.enter [] true [0, 1]).begin 0 "/a.dot").complete 0 "/a.dot"
        failingCall).nextQueued = some (1, ("/b.dot" : Text)) := by
  decide +kernel

/-- Their images can be looked at. -/
theorem canLook_twoGraphs : twoGraphs.CanLook [] true [0, 1] oneByOne := by
  obtain ⟨hnext, hnext'⟩ := nextQueued_twoGraphs
  refine ⟨fun phase hphase => ?_, fun {es₁ es₂ k o r₁ d} hes hreaches hd _ => ?_⟩
  · have hcases : phase = 0 ∨ phase = 1 := by simpa using hphase
    rcases hcases with rfl | rfl
    · exact ⟨"/a.dot", rfl, false, by decide +kernel⟩
    · exact ⟨"/b.dot", rfl, false, by decide +kernel⟩
  · rcases finish_of_oneByOne hes with ⟨rfl, rfl, rfl⟩ | ⟨rfl, rfl, rfl⟩
    · cases hreaches.unique (Turn.start hnext).reaches
      obtain ⟨d', hd', -, hfile⟩ := begun hnext
      cases Option.some.inj (hd.symm.trans hd')
      rw [hfile]
      exact ⟨⟨_, rfl⟩, false, by decide +kernel⟩
    · cases hreaches.unique ((reaches_call hnext failingCall).next (Turn.start hnext'))
      obtain ⟨d', hd', -, hfile⟩ := begun hnext'
      cases Option.some.inj (hd.symm.trans hd')
      rw [hfile]
      exact ⟨⟨{}, by decide +kernel⟩, true, by decide +kernel⟩

/-- Both calls end one after the other, and the request for both graphs has its reply. -/
theorem reaches_renders_of_two :
    twoGraphs.IsFresh ∧ ∃ r, twoGraphs.Renders (.ask [] true [0, 1] :: oneByOne) r ∧
      r.inFlight = 0 ∧ ∃ a, r.askings[0]? = some a ∧ a.reply.isSome = true ∧
        twoGraphs.Served [] true [0, 1] oneByOne r a := by
  have hfresh : twoGraphs.IsFresh := ⟨rfl, rfl, rfl⟩
  obtain ⟨hnext, hnext'⟩ := nextQueued_twoGraphs
  have hcalls := (reaches_call hnext failingCall).trans (reaches_call hnext' drawingCall)
  have hrenders := reaches_renders hfresh
    ((Turn.ask (r := twoGraphs) [] true [0, 1]).reaches.trans hcalls)
  have hserves := reaches_renders hfresh (.refl (r := twoGraphs))
  obtain ⟨a, ha, hserved⟩ := hserves.served [] true [0, 1] hcalls canLook_twoGraphs
  have hidle := hrenders.replied (by decide +kernel) (by decide +kernel) (by decide +kernel)
  exact ⟨hfresh, _, hrenders, by decide +kernel, a, ha, hidle a (List.mem_of_getElem? ha), hserved⟩

/-- The name of a file that the disk holds, while it could not hold the image. -/
def longName : Text := "1. ".toList ++ List.replicate 245 'a' ++ ".dot".toList

/-- A phase with a long name makes a request for all phases fail, although both graphs were written
to disk and both calls would return. -/
theorem ask_fails_of_long_name :
    (sample ["b.dot", longName] [{}, {}]).IsFresh ∧
      (sample ["b.dot", longName] [{}, {}]).world.disk.holdsFile "/b.dot" = true ∧
      (sample ["b.dot", longName] [{}, {}]).world.disk.holdsFile ("/" ++ longName) = true ∧
      ((sample ["b.dot", longName] [{}, {}]).ask [] true [0, 1]).askings.map
        (fun a => a.reply.bind Reply.failure?) =
          [some (.ofFile (.refused .nameTooLong (imageOf ("/" ++ longName))))] := by
  refine ⟨⟨rfl, rfl, rfl⟩, ?_, ?_, ?_⟩ <;> decide +kernel

end Sample

end Rendering

end JitInspect
