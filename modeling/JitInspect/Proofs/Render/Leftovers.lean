import JitInspect.Proofs.Render.Requests

/-!
# Images that are left behind

Whoever asks for the image of a graph is given the image that is on disk. If images come to the disk
only when calls for their graphs end and are ok (`Rendering.Draws`), then whoever is given an image is
given one that such a call has drawn (`Rendering.HasDrawn`), and whoever asks while others wait for a
graph waits with them and gets the same answer (`Rendering.image_given`).

Without this it is otherwise. A call may leave an image behind and fail, and then the request that has
waited for it gets none; but the next one gets the image, although drawing the graph has failed. And
while a call that will fail is still running, a request that comes meanwhile is given the image that is
being written, while the one that has waited from the beginning gets none
(`Rendering.ask_gives_leftover`).
-/

namespace JitInspect

/-- The image that a reply gives for the phase in a place of the request. -/
def Reply.imageAt : Reply → ℕ → Image
  | .image i, 0 => i
  | .images is, q => is[q]?.getD none
  | _, _ => none

namespace Asking

variable {a : Asking} {p : Part} {k q : ℕ} {y : Reply} {image : Text}

/-- An image in the reply is the answer of a part. -/
theorem Settled.has_of_imageAt (h : a.Settled) (hreply : a.reply = some y)
    (himage : y.imageAt q = some image) :
    ∃ p, a.parts[q]? = some p ∧ p.Has (.ok (some image)) := by
  have hsame : ∀ {z : Reply}, a.reply = some z → y = z := fun hz =>
    Option.some.inj (hreply.symm.trans hz)
  cases h with
  | waits hnone _ _ _ =>
    rw [hreply] at hnone
    cases hnone
  | answered is hz hdrawings hparts =>
    obtain rfl := hsame hz
    have hentry : is[q]? = some (some image) := by
      cases hseveral : a.several with
      | true =>
        rw [hseveral, if_pos rfl] at himage
        cases hget : is[q]? with
        | none =>
          simp [Reply.imageAt, hget] at himage
        | some i =>
          simpa [Reply.imageAt, hget] using himage
      | false =>
        rw [hseveral, if_neg Bool.false_ne_true] at himage
        cases q with
        | zero =>
          cases is with
          | nil => cases himage
          | cons i is => exact congrArg some himage
        | succ q => cases himage
    have hanswer := congrArg (fun l => l[q]?) hparts
    rw [List.getElem?_map, List.getElem?_map, hentry] at hanswer
    obtain ⟨p, hp, hpanswer⟩ := Option.map_eq_some_iff.1 hanswer
    exact ⟨p, hp, hdrawings p (List.mem_of_getElem? hp), hpanswer⟩
  | failed f hz _ _ =>
    obtain rfl := hsame hz
    cases q <;> cases himage
  | abandoned hz _ =>
    obtain rfl := hsame hz
    cases q <;> cases himage

/-- A part that has joined a drawing has no answer yet. -/
theorem Settled.waits_of_drawing (h : a.Settled) (hp : p ∈ a.parts) (hk : p.drawing = some k) :
    p.Waits k := by
  have hopen : a.IsOpen → p.Waits k := by
    intro hopen
    rcases hopen p hp with ⟨i, hwaits⟩ | ⟨x, hhas⟩
    · exact ⟨hk, hwaits.2⟩
    · exact absurd (hk.symm.trans hhas.1) (Option.some_ne_none k)
  have hnone : (∀ p ∈ a.parts, p.drawing = none) → p.Waits k := fun hnone =>
    absurd (hk.symm.trans (hnone p hp)) (Option.some_ne_none k)
  cases h with
  | waits _ h _ _ => exact hopen h
  | answered _ _ h _ => exact hnone h
  | failed _ _ h _ => exact hopen h
  | abandoned _ h => exact hnone h

end Asking

namespace Rendering

variable {r r₀ r₁ : Rendering} {i j k q t : ℕ} {d : Drawing} {e : Event} {es es' : List Event}
  {file image name : Text} {o : Outcome} {several : Bool} {phases : List ℕ}

/-! ### Calls that draw -/

section Drawn

/-- The image for the file is on disk. -/
def HasImage (r : Rendering) (file : Text) : Prop := r.world.disk.isFile (imageOf file) = .ok true

/-- The event is the end of a call for the file, and the call is ok. -/
def EndsOk (r : Rendering) (file : Text) (e : Event) : Prop :=
  ∃ k d o p, e = .finish k o ∧ r.drawings[k]? = some d ∧ d.isRunning = true ∧ d.file = file ∧
    (r.world.ending (r.renderer.command file) o).1 = .ok p ∧ p.ok = true

/-- On the way a call for the file has ended, and was ok. -/
def HasDrawn (r : Rendering) (es : List Event) (file : Text) : Prop :=
  ∃ es₁ e es₂ r₁, es = es₁ ++ e :: es₂ ∧ r.Reaches es₁ r₁ ∧ r₁.EndsOk file e

theorem HasDrawn.append (h : r.HasDrawn es file) (es' : List Event) :
    r.HasDrawn (es ++ es') file := by
  obtain ⟨es₁, e, es₂, r₁, rfl, hreaches, hends⟩ := h
  exact ⟨es₁, e, es₂ ++ es', r₁, by simp, hreaches, hends⟩

theorem HasDrawn.after (h : r₁.HasDrawn es' file) (hreaches : r.Reaches es r₁) :
    r.HasDrawn (es ++ es') file := by
  obtain ⟨es₁, e, es₂, r₂, rfl, hlater, hends⟩ := h
  exact ⟨es ++ es₁, e, es₂, r₂, by simp, hreaches.trans hlater, hends⟩

/-- A call that is ok is known to end like this. -/
theorem HasDrawn.exists_finish (h : r.HasDrawn es file) :
    ∃ k o p, Event.finish k o ∈ es ∧ o.ending = .ok p ∧ p.ok = true := by
  obtain ⟨es₁, e, es₂, r₁, rfl, -, k, d, o, p, rfl, -, -, -, hending, hok⟩ := h
  refine ⟨k, o, p, by simp, ?_, hok⟩
  unfold World.ending at hending
  rcases hrun : StateT.run (o.effect (r₁.renderer.command file)).run r₁.world.disk with ⟨f | u, disk⟩
  · rw [hrun] at hending
    cases hending
  · rw [hrun] at hending
    exact hending

/-- A drawing gives an image only if its call is ok, and this is the image for its file. -/
theorem ok_of_resultAt (h : r.resultAt file o = .ok (some image)) : image = imageOf file ∧
    ∃ p, (r.world.ending (r.renderer.command file) o).1 = .ok p ∧ p.ok = true := by
  unfold resultAt resultOf at h
  generalize r.world.ending (r.renderer.command file) o = ended at h
  obtain ⟨ending, world⟩ := ended
  cases ending with
  | error f => cases h
  | ok p =>
    dsimp only at h
    cases hok : p.ok with
    | false =>
      rw [hok] at h
      cases h
    | true =>
      rw [hok] at h
      cases hlook : world.disk.isFile (imageOf file) with
      | error f =>
        rw [hlook] at h
        cases h
      | ok isThere =>
        rw [hlook] at h
        cases isThere with
        | false => cases h
        | true => exact ⟨(Option.some.inj (Except.ok.inj h)).symm, p, rfl, hok⟩

/-- A drawing that ended with an image has drawn it. -/
theorem Ended.hasDrawn (h : r.Ended es k file (.ok (some image))) :
    image = imageOf file ∧ r.HasDrawn es file := by
  obtain ⟨es₁, es₂, r₁, o, rfl, hreaches, ⟨d, hd, hrunning, rfl⟩, hx⟩ := h
  obtain ⟨himage, p, hending, hok⟩ := ok_of_resultAt hx.symm
  exact ⟨himage, es₁, .finish k o, es₂, r₁, rfl, hreaches, k, d, o, p, rfl, hd, hrunning, rfl,
    hending, hok⟩

/-- Renderers that a renderer can come to while the image for the file, which is not there at first,
comes to the disk only when a call for the file ends and is ok. -/
inductive Draws (r : Rendering) (file : Text) : List Event → Rendering → Prop where
  | refl (habsent : ¬ r.HasImage file) : Draws r file [] r
  | next {es : List Event} {e : Event} {r₁ r₂ : Rendering} (h : Draws r file es r₁)
      (hturn : r₁.Turn e r₂) (hdraws : r₂.HasImage file → r₁.HasImage file ∨ r₁.EndsOk file e) :
      Draws r file (es ++ [e]) r₂

/-- A run of the renderer in which images come from drawings only is a run. -/
theorem Draws.reaches (h : r.Draws file es r₁) : r.Reaches es r₁ := by
  induction h with
  | refl _ => exact .refl
  | next _ hturn _ ih => exact ih.next hturn

end Drawn

/-! ### Drawings that begin without an image -/

section Beginnings

/-- A drawing is made for a phase only when its image is not there. -/
theorem drawings_part (r : Rendering) (phase : ℕ) :
    (r.part phase).2.world = r.world ∧ ∃ new, (r.part phase).2.drawings = r.drawings ++ new ∧
      ∀ d ∈ new, r.world.disk.isFile (imageOf d.file) = .ok false := by
  have hsame : ∃ new, r.drawings = r.drawings ++ new ∧
      ∀ d ∈ new, r.world.disk.isFile (imageOf d.file) = .ok false :=
    ⟨[], (List.append_nil _).symm, fun d hd => absurd hd List.not_mem_nil⟩
  unfold part
  cases r.phases[phase]? with
  | none => exact ⟨rfl, hsame⟩
  | some p =>
    dsimp only
    cases p.file with
    | none => exact ⟨rfl, hsame⟩
    | some file =>
      dsimp only
      cases hlook : r.world.disk.isFile (imageOf file) with
      | error f => exact ⟨rfl, hsame⟩
      | ok isThere =>
        cases isThere with
        | true => exact ⟨rfl, hsame⟩
        | false =>
          dsimp only
          cases r.drawings.findIdx? fun d => d.file = file && d.isUnfinished with
          | some place => exact ⟨rfl, hsame⟩
          | none => exact ⟨rfl, [{ file }], rfl, List.forall_mem_singleton.2 hlook⟩

/-- The parts of a call queue drawings only where there is no image yet. -/
theorem drawings_parts (r : Rendering) (phases : List ℕ) :
    (r.parts phases).2.world = r.world ∧ ∃ new, (r.parts phases).2.drawings = r.drawings ++ new ∧
      ∀ d ∈ new, r.world.disk.isFile (imageOf d.file) = .ok false := by
  induction phases generalizing r with
  | nil => exact ⟨rfl, [], (List.append_nil _).symm, fun d hd => absurd hd List.not_mem_nil⟩
  | cons phase phases ih =>
    obtain ⟨hworld, new, hnew, habsent⟩ := r.drawings_part phase
    obtain ⟨hworld', new', hnew', habsent'⟩ := ih (r.part phase).2
    rw [hworld] at habsent'
    refine ⟨hworld'.trans hworld, new ++ new', ?_, fun d hd => ?_⟩
    · exact hnew'.trans (by rw [hnew, List.append_assoc])
    · rcases List.mem_append.1 hd with hd | hd
      · exact habsent d hd
      · exact habsent' d hd

/-- A drawing that is unfinished behind a turn was so before, and the turn does not end it; or it is
made, and its image is not there. -/
theorem Sound.unfinished_of_turn (h : r.Sound) (hturn : r.Turn e r₁)
    (hd : r₁.drawings[i]? = some d) (hunfinished : d.isUnfinished = true) :
    (∃ d', r.drawings[i]? = some d' ∧ d'.isUnfinished = true ∧ d'.file = d.file ∧
        ∀ o, e ≠ .finish i o) ∨
      (∃ name several phases, e = .ask name several phases) ∧
        r.world.disk.isFile (imageOf d.file) = .ok false := by
  cases hd' : r.drawings[i]? with
  | none =>
    obtain ⟨name, several, phases, rfl, rfl⟩ := hturn.ask_of_made hd' hd
    obtain ⟨-, new, hnew, habsent⟩ := r.drawings_parts phases
    have hin : (r.drawings ++ new)[i]? = some d := hnew ▸ hd
    rw [List.getElem?_append_right (List.getElem?_eq_none_iff.1 hd')] at hin
    exact Or.inr ⟨⟨name, several, phases, rfl⟩, habsent d (List.mem_of_getElem? hin)⟩
  | some d' =>
    obtain ⟨d₁, hd₁, hstepped⟩ := h.stepped hturn hd'
    obtain rfl := Option.some.inj (hd.symm.trans hd₁)
    cases hstepped with
    | same hother hsame => exact Or.inl ⟨d', rfl, hsame ▸ hunfinished, by rw [hsame], hother⟩
    | started he hqueued hsame =>
      refine Or.inl ⟨d', rfl, Drawing.isUnfinished_of_isQueued hqueued, by rw [hsame], fun o ho => ?_⟩
      rw [he] at ho
      cases ho
    | finished o _ _ hsame =>
      rw [Drawing.not_isUnfinished_of_done (by rw [hsame])] at hunfinished
      exact absurd hunfinished Bool.false_ne_true

/-- An image that is there has been drawn, and nobody draws it again. -/
theorem Draws.hasDrawn (h : r₀.Draws file es r) (h₀ : r₀.IsFresh) (himage : r.HasImage file) :
    r₀.HasDrawn es file ∧ ∀ d ∈ r.drawings, d.isUnfinished = true → d.file ≠ file := by
  induction h with
  | refl habsent => exact absurd himage habsent
  | @next es e r₁ r₂ hdraws hturn hclean ih =>
    have hsound := h₀.sound.reaches hdraws.reaches
    by_cases hbefore : r₁.HasImage file
    · obtain ⟨hdrawn, hnone⟩ := ih hbefore
      refine ⟨hdrawn.append [e], fun d hd hunfinished hfile => ?_⟩
      obtain ⟨i, hi⟩ := List.getElem?_of_mem hd
      rcases hsound.unfinished_of_turn hturn hi hunfinished with
        ⟨d', hd', hgoing, hsame, -⟩ | ⟨-, habsent⟩
      · exact hnone d' (List.mem_of_getElem? hd') hgoing (hsame.trans hfile)
      · unfold HasImage at hbefore
        rw [hfile, hbefore] at habsent
        cases habsent
    · -- The call that has just ended was the only one for the file.
      have hends := (hclean himage).resolve_left hbefore
      refine ⟨⟨es, e, [], r₁, rfl, hdraws.reaches, hends⟩, fun d hd hunfinished hfile => ?_⟩
      obtain ⟨k, d₁, o, p, rfl, hd₁, hrunning, hfile₁, -⟩ := hends
      obtain ⟨i, hi⟩ := List.getElem?_of_mem hd
      rcases hsound.unfinished_of_turn hturn hi hunfinished with
        ⟨d', hd', hgoing, hsame, hother⟩ | ⟨⟨_, _, _, he⟩, -⟩
      · obtain rfl := hsound.unique hd' hd₁ hgoing (Drawing.isUnfinished_of_isRunning hrunning)
          ((hsame.trans hfile).trans hfile₁.symm)
        exact hother o rfl
      · cases he

end Beginnings

/-! ### Answers -/

section Answers

/-- Parts that wait for one drawing get the same answer, unless a request is given up. -/
theorem Reaches.same_answer (hreaches : r.Reaches es r₁) (h : r.Sound) {a b : Asking} {p p' : Part}
    (ha : r.askings[i]? = some a) (hp : a.parts[q]? = some p) (hk : p.drawing = some k)
    (hb : r.askings[j]? = some b) (hp' : b.parts[t]? = some p') (hk' : p'.drawing = some k) :
    ∃ a₁ p₁ b₁ p₁', r₁.askings[i]? = some a₁ ∧ a₁.parts[q]? = some p₁ ∧
      r₁.askings[j]? = some b₁ ∧ b₁.parts[t]? = some p₁' ∧
      (a₁.reply = some .abandoned ∨ b₁.reply = some .abandoned ∨ p₁.answer = p₁'.answer) := by
  have hsound := h.reaches hreaches
  obtain ⟨a₁, p₁, ha₁, hp₁, -, hcases⟩ := hreaches.part h ha hp
  obtain ⟨b₁, p₁', hb₁, hp₁', -, hcases'⟩ := hreaches.part h hb hp'
  refine ⟨a₁, p₁, b₁, p₁', ha₁, hp₁, hb₁, hp₁', ?_⟩
  -- Nobody waits any more for a drawing that has ended.
  have hover : ∀ {i q : ℕ} {a : Asking} {p : Part}, r₁.askings[i]? = some a →
      a.parts[q]? = some p → p.drawing = some k →
      ∀ {d : Drawing} {x : Except Failure Image}, r₁.drawings[k]? = some d → d.stage ≠ .done x := by
    intro i q a p ha hp hk d x hd hdone
    obtain ⟨d', hd', hunfinished, -⟩ :=
      hsound.joined (List.mem_of_getElem? ha) (List.mem_of_getElem? hp) hk
    obtain rfl := Option.some.inj (hd.symm.trans hd')
    rw [Drawing.not_isUnfinished_of_done hdone] at hunfinished
    exact Bool.false_ne_true hunfinished
  rcases hcases with habandoned | rfl | ⟨i', d, x, hi, hd, hdone, hhas⟩
  · exact Or.inl habandoned
  · rcases hcases' with habandoned | rfl | ⟨j', d, x, hj, hd, hdone, -⟩
    · exact Or.inr (Or.inl habandoned)
    · have hwaits := (hsound.settled (List.mem_of_getElem? ha₁)).waits_of_drawing
        (List.mem_of_getElem? hp₁) hk
      have hwaits' := (hsound.settled (List.mem_of_getElem? hb₁)).waits_of_drawing
        (List.mem_of_getElem? hp₁') hk'
      exact Or.inr (Or.inr (hwaits.2.trans hwaits'.2.symm))
    · obtain rfl := Option.some.inj (hk'.symm.trans hj)
      exact absurd hdone (hover ha₁ hp₁ hk hd)
  · obtain rfl := Option.some.inj (hk.symm.trans hi)
    rcases hcases' with habandoned | rfl | ⟨j', d', x', hj, hd', hdone', hhas'⟩
    · exact Or.inr (Or.inl habandoned)
    · exact absurd hdone (hover hb₁ hp₁' hk' hd)
    · obtain rfl := Option.some.inj (hk'.symm.trans hj)
      obtain rfl := Option.some.inj (hd.symm.trans hd')
      obtain rfl := DrawingStage.done.inj (hdone.symm.trans hdone')
      exact Or.inr (Or.inr (hhas.2.trans hhas'.2.symm))

/-- The request, for phases as they are at `r`, gives an image for the file. -/
def Gives (r : Rendering) (phases : List ℕ) (a : Asking) (file image : Text) : Prop :=
  ∃ q phase y, phases[q]? = some phase ∧ r.fileOf phase = some file ∧ a.reply = some y ∧
    y.imageAt q = some image

/-- A part of a request waits for the drawing of the file. -/
def Awaits (r : Rendering) (i q : ℕ) (file : Text) : Prop :=
  ∃ a p k, r.askings[i]? = some a ∧ a.parts[q]? = some p ∧ p.drawing = some k ∧
    r.fileOf p.phase = some file

/-- An image is the one for the file. It was there when the request came, or has been drawn since. -/
theorem Reaches.hasDrawn_of_gives (h : r.Sound)
    (hlater : (r.enter name several phases).Reaches es r₁) {a : Asking}
    (ha : r₁.askings[r.askings.length]? = some a) (hgives : r.Gives phases a file image) :
    image = imageOf file ∧
      (r.HasImage file ∨ (r.enter name several phases).HasDrawn es file) := by
  obtain ⟨a₁, ha₁, -, hphases, hgiven⟩ := hlater.given h
  obtain rfl := Option.some.inj (ha.symm.trans ha₁)
  obtain ⟨q, phase, y, hphase, hfile, hreply, himage⟩ := hgives
  have hsound := (h.enter name several phases).reaches hlater
  obtain ⟨p, hp, hhas⟩ :=
    (hsound.settled (List.mem_of_getElem? ha)).has_of_imageAt hreply himage
  have hwanted : a.reply ≠ some .abandoned := by
    intro habandoned
    obtain rfl := Option.some.inj (hreply.symm.trans habandoned)
    cases q <;> cases himage
  have hsame : p.phase = phase := by
    have hget := congrArg (fun l => l[q]?) hphases
    rw [List.getElem?_map, hp, hphase] at hget
    exact Option.some.inj hget
  rcases hgiven hwanted p (List.mem_of_getElem? hp) _ hhas with hanswer | ⟨k, file', hfile', hended⟩
  · rw [hsame] at hanswer
    rcases hanswer file hfile with ⟨hthere, hx⟩ | ⟨f, -, hx⟩
    · exact ⟨Option.some.inj (Except.ok.inj hx), Or.inl hthere⟩
    · cases hx
  · rw [hsame, hfile] at hfile'
    obtain rfl := Option.some.inj hfile'
    obtain ⟨rfl, hdrawn⟩ := hended.hasDrawn
    exact ⟨rfl, Or.inr hdrawn⟩

/-- Who asks for a graph that others wait for, waits with them, as long as images are drawn by calls
that are ok. -/
theorem Draws.awaits_with (hdraws : r₀.Draws file es r) (h₀ : r₀.IsFresh)
    (hlook : ∃ isThere, r.world.disk.isFile (imageOf file) = .ok isThere) {phase : ℕ}
    (hawaits : r.Awaits i t file) (hphase : phases[q]? = some phase)
    (hfile : r.fileOf phase = some file) :
    ∃ a p b p' k, (r.enter name several phases).askings[r.askings.length]? = some a ∧
      a.parts[q]? = some p ∧ p.drawing = some k ∧
      (r.enter name several phases).askings[i]? = some b ∧ b.parts[t]? = some p' ∧
      p'.drawing = some k := by
  have h := h₀.sound.reaches hdraws.reaches
  have hsound := h.enter name several phases
  obtain ⟨b, p', k, hb, hp', hk, hfile'⟩ := hawaits
  obtain ⟨d, hd, hunfinished, hdfile⟩ :=
    h.joined (List.mem_of_getElem? hb) (List.mem_of_getElem? hp') hk
  rw [hfile'] at hdfile
  have habsent : ¬ r.HasImage file := by
    intro himage
    obtain ⟨-, hnone⟩ := hdraws.hasDrawn h₀ himage
    exact hnone d (List.mem_of_getElem? hd) hunfinished (Option.some.inj hdfile).symm
  obtain ⟨a, ha, -, hphases, hparts, hfiles⟩ := h.entered name several phases
  have hget := congrArg (fun l => l[q]?) hphases
  rw [List.getElem?_map, hphase] at hget
  obtain ⟨p, hp, hsame⟩ := Option.map_eq_some_iff.1 hget
  have hb' := h.asking_enter hb name several phases
  rcases hparts p (List.mem_of_getElem? hp) with ⟨k', hwaits, d', hd', hgoing, hdfile'⟩ |
    ⟨x, -, hanswer⟩
  · obtain ⟨d₁, hd₁, hgoing₁, hdfile₁⟩ :=
      hsound.joined (List.mem_of_getElem? hb') (List.mem_of_getElem? hp') hk
    rw [hfiles] at hdfile' hdfile₁
    have hone : d'.file = d₁.file := by
      rw [hsame, hfile] at hdfile'
      rw [hfile'] at hdfile₁
      exact Option.some.inj (hdfile'.symm.trans hdfile₁)
    obtain rfl := hsound.unique hd' hd₁ hgoing hgoing₁ hone
    exact ⟨a, p, b, p', k', ha, hp, hwaits.1, hb', hp', hk⟩
  · rw [hsame] at hanswer
    rcases hanswer file hfile with ⟨hthere, -⟩ | ⟨f, hf, -⟩
    · exact absurd hthere habsent
    · obtain ⟨isThere, hisThere⟩ := hlook
      rw [hisThere] at hf
      cases hf

/-- A request gives for a file no image but its own. This was on disk when the request came, or a call
for the file has ended since and was ok. If images have come to the disk only by such calls, then a
call for the file has drawn every image that is given, and who asks for a file that others wait for gets
the same answer, unless one of the requests is given up. -/
theorem image_given (h₀ : r₀.IsFresh) (h : r₀.Reaches es r)
    (hlater : (r.enter name several phases).Reaches es' r₁) (file : Text) :
    ∃ a, r₁.askings[r.askings.length]? = some a ∧
      (∀ image, r.Gives phases a file image → image = imageOf file ∧
        (r.HasImage file ∨ r₀.HasDrawn (es ++ .ask name several phases :: es') file)) ∧
      (r₀.Draws file es r →
        (∀ image, r.Gives phases a file image →
          r₀.HasDrawn (es ++ .ask name several phases :: es') file) ∧
        ((∃ isThere, r.world.disk.isFile (imageOf file) = .ok isThere) →
          ∀ i t, r.Awaits i t file → ∃ (b : Asking) (p : Part),
            r₁.askings[i]? = some b ∧ b.parts[t]? = some p ∧
              ∀ (q phase : ℕ), phases[q]? = some phase → r.fileOf phase = some file →
                ∃ p' : Part, a.parts[q]? = some p' ∧ (a.reply = some .abandoned ∨
                  b.reply = some .abandoned ∨ p'.answer = p.answer))) := by
  have hsound := h₀.sound.reaches h
  have hentered := hsound.enter name several phases
  obtain ⟨a, ha, -⟩ := hlater.given hsound
  have hasked : r₀.Reaches (es ++ [.ask name several phases]) (r.enter name several phases) :=
    h.next (.ask name several phases)
  have hwhence : ∀ image, r.Gives phases a file image → image = imageOf file ∧
      (r.HasImage file ∨ r₀.HasDrawn (es ++ .ask name several phases :: es') file) := by
    intro image hgives
    obtain ⟨himage, hthere | hdrawn⟩ := hlater.hasDrawn_of_gives hsound ha hgives
    · exact ⟨himage, Or.inl hthere⟩
    · have hafter := hdrawn.after hasked
      rw [List.append_assoc] at hafter
      exact ⟨himage, Or.inr hafter⟩
  refine ⟨a, ha, hwhence, fun hdraws => ⟨fun image hgives => ?_, fun hlook i t hawaits => ?_⟩⟩
  · rcases (hwhence image hgives).2 with hthere | hdrawn
    · exact (hdraws.hasDrawn h₀ hthere).1.append _
    · exact hdrawn
  · obtain ⟨b₀, p₀, k₀, hb₀, hp₀, hk₀, hfile₀⟩ := hawaits
    obtain ⟨b, p, hb, hp, -⟩ :=
      hlater.part hentered (hsound.asking_enter hb₀ name several phases) hp₀
    refine ⟨b, p, hb, hp, fun q phase hphase hfile => ?_⟩
    obtain ⟨a₁, p₁, b₁, p₁', k, ha₁, hp₁, hk, hb₁, hp₁', hk'⟩ :=
      hdraws.awaits_with h₀ hlook ⟨b₀, p₀, k₀, hb₀, hp₀, hk₀, hfile₀⟩ hphase hfile
    obtain ⟨a₂, p₂, b₂, p₂', ha₂, hp₂, hb₂, hp₂', hcases⟩ :=
      hlater.same_answer hentered ha₁ hp₁ hk hb₁ hp₁' hk'
    obtain rfl := Option.some.inj (ha.symm.trans ha₂)
    obtain rfl := Option.some.inj (hb.symm.trans hb₂)
    obtain rfl := Option.some.inj (hp.symm.trans hp₂')
    exact ⟨p₂, hp₂, hcases⟩

end Answers

/-! ### A graph that is asked for twice -/

section Twice

/-- A renderer for one graph. -/
def oneGraph : Rendering := sample ["b.dot"] []

/-- The graph is being drawn for a request. -/
def oneDrawn : Rendering := (oneGraph.enter [] false [0]).begin 0 "/b.dot"

/-- What has happened until then. -/
def untilDrawn : List Event := [.ask [] false [0], .start 0]

theorem draws_oneDrawn : oneGraph.Draws "/b.dot" untilDrawn oneDrawn := by
  have hnext : (oneGraph.enter [] false [0]).nextQueued = some (0, ("/b.dot" : Text)) := by
    decide +kernel
  have habsent : ¬ oneGraph.HasImage "/b.dot" := by
    unfold HasImage
    decide +kernel
  have hasked : oneGraph.Draws "/b.dot" [.ask [] false [0]] (oneGraph.enter [] false [0]) :=
    (Draws.refl habsent).next (.ask [] false [0]) fun himage => Or.inl himage
  exact hasked.next (.start hnext) fun himage => Or.inl himage

/-- The drawing may end with and without a second call. -/
theorem finish_oneDrawn (o : Outcome) :
    (oneDrawn.enter [] false [0]).Turn (.finish 0 o)
      ((oneDrawn.enter [] false [0]).complete 0 "/b.dot" o) ∧
    oneDrawn.Turn (.finish 0 o) (oneDrawn.complete 0 "/b.dot" o) :=
  ⟨.finish (d := ⟨"/b.dot", .running 0⟩) o rfl rfl, .finish (d := ⟨"/b.dot", .running 0⟩) o rfl rfl⟩

/-- The first images of the replies, as far as there are replies. -/
def firstImages (r : Rendering) : List (Option Image) :=
  r.askings.map fun a => a.reply.map (·.imageAt 0)

/-- The first image that a call was given. -/
theorem firstImages_getElem? {a : Asking} (ha : r.askings[i]? = some a) :
    r.firstImages[i]? = some (a.reply.map (·.imageAt 0)) := by
  rw [firstImages, List.getElem?_map, ha]
  rfl

/-- Who asks for a graph while it is drawn gets the image that whoever has asked before gets. -/
theorem image_given_of_two :
    oneGraph.IsFresh ∧ oneGraph.Reaches untilDrawn oneDrawn ∧
      oneGraph.Draws "/b.dot" untilDrawn oneDrawn ∧ oneDrawn.Awaits 0 0 "/b.dot" ∧
      ∃ r a b p p', (oneDrawn.enter [] false [0]).Reaches [.finish 0 drawingCall] r ∧
        r.firstImages = [some (some "/b.dot.png".toList), some (some "/b.dot.png".toList)] ∧
        oneGraph.HasDrawn (untilDrawn ++ [.ask [] false [0], .finish 0 drawingCall]) "/b.dot" ∧
        r.askings[0]? = some b ∧ b.parts[0]? = some p ∧ r.askings[1]? = some a ∧
        a.parts[0]? = some p' ∧ p'.answer = p.answer := by
  have hfresh : oneGraph.IsFresh := ⟨rfl, rfl, rfl⟩
  have hdraws := draws_oneDrawn
  have hlater := (finish_oneDrawn drawingCall).1.reaches
  have hawaits : oneDrawn.Awaits 0 0 "/b.dot" := ⟨_, _, 0, rfl, rfl, rfl, by decide +kernel⟩
  have hfile : oneDrawn.fileOf 0 = some ("/b.dot" : Text) := by decide +kernel
  have hlook : oneDrawn.world.disk.isFile (imageOf "/b.dot") = .ok false := by decide +kernel
  have hgets : ((oneDrawn.enter [] false [0]).complete 0 "/b.dot" drawingCall).firstImages =
      [some (some "/b.dot.png".toList), some (some "/b.dot.png".toList)] := by
    decide +kernel
  -- So no request was given up.
  have hreply : ∀ {i : ℕ} {a : Asking}, i < 2 →
      ((oneDrawn.enter [] false [0]).complete 0 "/b.dot" drawingCall).askings[i]? = some a →
      ∃ y, a.reply = some y ∧ y.imageAt 0 = some "/b.dot.png".toList := by
    intro i a hi ha
    have hget := firstImages_getElem? ha
    rw [hgets] at hget
    rcases i with _ | _ | i
    · exact Option.map_eq_some_iff.1 (Option.some.inj hget).symm
    · exact Option.map_eq_some_iff.1 (Option.some.inj hget).symm
    · omega
  have hwanted : ∀ {i : ℕ} {a : Asking}, i < 2 →
      ((oneDrawn.enter [] false [0]).complete 0 "/b.dot" drawingCall).askings[i]? = some a →
      a.reply ≠ some .abandoned := by
    intro i a hi ha habandoned
    obtain ⟨y, hy, himage⟩ := hreply hi ha
    obtain rfl := Option.some.inj (hy.symm.trans habandoned)
    cases himage
  obtain ⟨a, ha, -, hgiven⟩ := image_given hfresh hdraws.reaches hlater "/b.dot"
  obtain ⟨hdrawn, hsame⟩ := hgiven hdraws
  obtain ⟨y, hy, himage⟩ := hreply (by decide) ha
  obtain ⟨b, p, hb, hp, hanswers⟩ := hsame ⟨false, hlook⟩ 0 0 hawaits
  obtain ⟨p', hp', hcases⟩ := hanswers 0 0 rfl hfile
  have hequal := (hcases.resolve_left (hwanted (by decide) ha)).resolve_left
    (hwanted (by decide) hb)
  exact ⟨hfresh, hdraws.reaches, hdraws, hawaits, _, a, b, p, p', hlater, hgets,
    hdrawn _ ⟨0, 0, y, rfl, hfile, hy, himage⟩, hb, hp, ha, hp', hequal⟩

/-- A call that fails and leaves the image of the second graph behind. -/
def leavingCall : Outcome := { drawingCall with ending := failingCall.ending }

/-- The disk while the call is still writing the image. -/
def writing : Disk :=
  (StateT.run (drawingCall.effect (oneGraph.renderer.command "/b.dot")).run oneGraph.world.disk).2

/-- A call that fails gives no image to the request that has waited for it. Who asks later is told the
image that it has left behind, and who asks while it runs is told the one that it is writing, although
no call for the graph was ok. -/
theorem ask_gives_leftover :
    oneGraph.IsFresh ∧ ¬ oneGraph.HasImage "/b.dot" ∧
      (∃ r, oneGraph.Reaches (untilDrawn ++ [.finish 0 leavingCall, .ask [] false [0]]) r ∧
        r.firstImages = [some none, some (some "/b.dot.png".toList)] ∧
        ¬ oneGraph.HasDrawn (untilDrawn ++ [.finish 0 leavingCall, .ask [] false [0]]) "/b.dot") ∧
      ∃ r, oneGraph.Reaches (untilDrawn ++
          [.meanwhile writing [] [], .ask [] false [0], .finish 0 failingCall]) r ∧
        r.firstImages = [some none, some (some "/b.dot.png".toList)] ∧
        ¬ oneGraph.HasDrawn (untilDrawn ++
          [.meanwhile writing [] [], .ask [] false [0], .finish 0 failingCall]) "/b.dot" := by
  have hbefore := draws_oneDrawn.reaches
  have hfails : ∀ {es : List Event}, (∀ k o, Event.finish k o ∈ es →
      o.ending = .ok { errors := "no" }) → ¬ oneGraph.HasDrawn es "/b.dot" := by
    intro es hall hdrawn
    obtain ⟨k, o, p, hmem, hending, hok⟩ := hdrawn.exists_finish
    rw [hall k o hmem] at hending
    obtain rfl := Except.ok.inj hending
    exact absurd hok (by decide)
  refine ⟨⟨rfl, rfl, rfl⟩, ?_, ?_, ?_⟩
  · unfold HasImage
    decide +kernel
  · refine ⟨_, hbefore.trans ((finish_oneDrawn leavingCall).2.reaches.next (.ask [] false [0])),
      by decide +kernel, hfails fun k o hmem => ?_⟩
    obtain ⟨rfl, rfl⟩ : k = 0 ∧ o = leavingCall := by simpa [untilDrawn] using hmem
    rfl
  · have hlater : oneDrawn.Reaches [.meanwhile writing [] [], .ask [] false [0]] _ :=
      (Turn.meanwhile writing [] []).reaches.next (.ask [] false [0])
    refine ⟨_, hbefore.trans (hlater.next
      (.finish (d := ⟨"/b.dot", .running 0⟩) failingCall rfl rfl)), by decide +kernel,
      hfails fun k o hmem => ?_⟩
    obtain ⟨rfl, rfl⟩ : k = 0 ∧ o = failingCall := by simpa [untilDrawn] using hmem
    rfl

end Twice

end Rendering

end JitInspect
