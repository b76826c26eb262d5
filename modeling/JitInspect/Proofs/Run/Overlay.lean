import JitInspect.Proofs.Gate.Plans
import JitInspect.Proofs.Run.Pipeline

/-!
# The local runtime over a published program

A program that is published with a local runtime gets the files of that runtime, which the gates have to
find. They do so for each route but one (`Job.checked_of_publish`): for the compiler of native programs they
look for its tools only. The options may ask for the publish there as well, and then the run is bound to
fail behind the publish, however well that went (`overlay_finds_runtime`, `overlay_lost`).
-/

namespace JitInspect

/-- What is said when the files of the local runtime are not to be had. -/
def Job.runtimeLost : Text := "Locally built CoreCLR was not found."

namespace Job

open JitInspect.Action

variable {ws : Workshop} {r : Request} {w : World} {j : Job}

/-! ### The folder of the runtime -/

section Folder

/-- A job that is published with a local runtime does not publish a native program. -/
theorem needsBuild_of_customRuntime (hjob : ((r.toJob ws).perform w).1 = .ok j)
    (hcustom : r.settings.customRuntime = true) : j.strategy.route.needsBuild = true := by
  have hchosen := Strategy.chosenBy_of_select (Request.toJob_eq_ok hjob).1
  cases hroute : j.strategy.route with
  | nativePublish =>
    rw [hroute] at hchosen
    rw [hchosen.2] at hcustom
    cases hcustom
  | _ => rfl

/-- The gates have found the folder of the runtime, unless it is the compiler of native programs that is
local. -/
theorem checked_of_publish (hjob : ((r.toJob ws).perform w).1 = .ok j)
    (hpublish : r.settings.publish = true) (hcustom : r.settings.customRuntime = true) :
    (∀ typed, j.strategy.route = .localIlc typed → j.layout.checked = none) ∧
      ((∀ typed, j.strategy.route ≠ .localIlc typed) →
        ∃ checked, j.layout.checked = some checked ∧ w.disk.isDirectory checked.text = .ok true) := by
  have hpasses := Gate.passes_of_check (Request.toJob_eq_ok hjob).2.1
  rcases hpasses.layout with ⟨hnone, -⟩ | ⟨-, -, root, -, -, hsupplies⟩
  · rcases hnone with hnone | hroute
    · rw [hcustom] at hnone
      cases hnone
    · have hbuild := needsBuild_of_customRuntime hjob hcustom
      rw [hroute] at hbuild
      cases hbuild
  · generalize j.strategy.route = route at hsupplies
    generalize j.layout = layout at hsupplies
    cases hsupplies with
    | native typed tools =>
      exact ⟨fun _ _ => rfl, fun hno => absurd rfl (hno typed)⟩
    | published _ checked hroute _ _ hchecked =>
      exact ⟨fun typed heq => absurd heq (hroute typed), fun _ => ⟨checked, rfl, hchecked⟩⟩
    | built _ checked pack hroute hbuilt =>
      rw [hpublish] at hbuilt
      cases hbuilt

end Folder

/-! ### The overlay -/

section Overlaying

/-- Where the folder is known, the overlay may fail, but not because it is not. -/
theorem overlay_ne_lost {checked : Path} (hchecked : j.layout.checked = some checked) (v : World) :
    (j.overlay.perform v).1 ≠ .error (.tool runtimeLost) := by
  have hcopy : ∀ v, (j.overlayRuntime.perform v).1 ≠ .error (.tool runtimeLost) := by
    intro v hlost
    unfold overlayRuntime at hlost
    simp only [hchecked] at hlost
    rw [perform_tryCatch, perform_change] at hlost
    generalize StateT.run (Disk.copyTree checked j.project.output).run v.disk = copied at hlost
    rcases copied with ⟨f | _, d⟩
    · simp only [Except.mapError, Failure.ofFile] at hlost
      by_cases hsystem : f.isSystem = true
      · rw [if_pos hsystem, perform_throw] at hlost
        have hwords := Failure.tool.inj (Except.error.inj hlost)
        exact absurd (List.cons.inj hwords).1 (by decide)
      · rw [if_neg hsystem, perform_throw] at hlost
        cases hlost
    · cases hlost
  unfold overlay
  by_cases hneeded : (j.settings.publish && j.settings.customRuntime) = true
  · rw [if_pos hneeded, perform_bind_of_ok (perform_report _ _)]
    exact hcopy _
  · rw [if_neg hneeded]
    exact fun h => by cases h

/-- Where it is not known, the overlay fails and changes nothing but the progress. -/
theorem perform_overlay_of_none (hpublish : j.settings.publish = true)
    (hcustom : j.settings.customRuntime = true) (hchecked : j.layout.checked = none) (v : World) :
    ∃ progress, j.overlay.perform v = (.error (.tool runtimeLost), { v with progress }) := by
  unfold overlay overlayRuntime
  rw [if_pos (by simp [hpublish, hcustom]), perform_bind_of_ok (perform_report _ _), hchecked]
  exact ⟨_, rfl⟩

/-- Behind a clean publish the run ends there. -/
theorem perform_behindBuild_lost (hpublish : j.settings.publish = true)
    (hcustom : j.settings.customRuntime = true) (hchecked : j.layout.checked = none) {v : World}
    (hgo : v.isCancelled = false) {printed : Printed} (hclean : buildErrors? printed = none) :
    ∃ progress, (Request.behindBuild ws j printed).perform v =
      (.error (.tool runtimeLost), { v with progress }) := by
  obtain ⟨progress, hoverlay⟩ := perform_overlay_of_none hpublish hcustom hchecked v
  refine ⟨progress, ?_⟩
  unfold Request.behindBuild
  rw [perform_bind_of_ok (perform_checkpoint_of_not_isCancelled hgo), hclean]
  exact perform_bind_of_error (perform_bind_of_error hoverlay)

/-- So a run whose publish is clean starts nothing else and fails. -/
theorem stages_lost (hjob : ((r.toJob ws).perform w).1 = .ok j) (hpublish : r.settings.publish = true)
    (hcustom : r.settings.customRuntime = true) (hchecked : j.layout.checked = none)
    (hw : w.AllReturn) (hcancels : w.nextOutcome.cancels = false)
    (hclean : ∀ p, w.nextOutcome.ending = .ok p → buildErrors? p = none) :
    w.Starts [] (r.performStages ws w).2 ∨
      ∃ p, w.Starts [p] (r.performStages ws w).2 ∧ j.IsBuild ws w.temporaries p.command ∧
        (r.performStages ws w).1 = .error (.tool runtimeLost) := by
  have hsettings := (Request.toJob_eq_ok hjob).2.2.2
  obtain ⟨t, hstages⟩ :=
    Request.performStages_of_build hjob (needsBuild_of_customRuntime hjob hcustom)
  have hquiet : w.Starts [] { w with toDelete := [], progress := t :: w.progress } :=
    .of_same rfl rfl rfl
  have hyields : (j.startBuild ws.host).Yields { w with toDelete := [], progress := t :: w.progress } _ :=
    startBuild_yields hw rfl
  obtain ⟨es, hes, hbuild⟩ := hyields
  rw [hstages]
  rcases hrun : (j.startBuild ws.host).perform { w with toDelete := [], progress := t :: w.progress }
    with ⟨f | printed, v⟩
  · rw [hrun] at hes hbuild
    rw [perform_bind_of_error hrun]
    rcases hbuild with ⟨rfl, -⟩ | ⟨p, -, -, hp, -⟩
    · exact Or.inl (hquiet.trans hes)
    · cases hp
  · rw [hrun] at hes hbuild
    rw [perform_bind_of_ok hrun]
    rcases hbuild with ⟨-, f, hf⟩ | ⟨p, rfl, hcommand, hprinted, -⟩
    · cases hf
    · cases hprinted
      have hstarts : w.Starts [p] v := hquiet.trans hes
      -- The build takes the first outcome, so that the run goes on with what this one says.
      have houtcome : p.outcome = w.nextOutcome := by
        rw [hstarts.outcome 0 p rfl, World.nextOutcome, List.head?_eq_getElem?]
      have hv : v.isCancelled = false := by
        rw [hstarts.isCancelled_eq, Request.not_isCancelled_of_toJob hjob]
        simp [Process.cancels, houtcome, hcancels]
      have hnone : buildErrors? p.printed = none := by
        obtain ⟨x, hx⟩ := hw.nextOutcome.ending
        unfold Process.printed
        rw [houtcome, hx]
        exact hclean x hx
      obtain ⟨progress, hlost⟩ := perform_behindBuild_lost (hsettings ▸ hpublish)
        (hsettings ▸ hcustom) hchecked hv hnone
      refine Or.inr ⟨p, ?_, hcommand, ?_⟩
      · rw [hlost]
        exact hstarts.trans (.of_same rfl rfl rfl)
      · rw [hlost]

end Overlaying

end Job

/-- A run that publishes with a local runtime knows where that is, unless it is the compiler of native
programs that is local. Then a publish that is clean is all that the run starts, and the run fails. -/
theorem overlay_finds_runtime {ws : Workshop} {r : Request} {w : World} {j : Job}
    (hjob : ((r.toJob ws).perform w).1 = .ok j) (hpublish : r.settings.publish = true)
    (hcustom : r.settings.customRuntime = true) :
    ((∀ typed, j.strategy.route ≠ .localIlc typed) →
        (∃ checked, j.layout.checked = some checked ∧
          w.disk.isDirectory checked.text = .ok true) ∧
        ∀ v, (j.overlay.perform v).1 ≠ .error (.tool Job.runtimeLost)) ∧
      ∀ typed, j.strategy.route = .localIlc typed → w.AllReturn →
        w.nextOutcome.cancels = false →
        (∀ p, w.nextOutcome.ending = .ok p → Job.buildErrors? p = none) →
        w.Starts [] ((r.run ws).perform w).2 ∨
          ∃ p x, w.Starts [p] ((r.run ws).perform w).2 ∧ j.IsBuild ws w.temporaries p.command ∧
            ((r.run ws).perform w).1 = .ok x ∧ x.status = .failed ∧ x.output = Job.runtimeLost := by
  obtain ⟨hnone, hsome⟩ := Job.checked_of_publish hjob hpublish hcustom
  refine ⟨fun hroute => ?_, fun typed hroute hw hcancels hclean => ?_⟩
  · obtain ⟨checked, hchecked, hdirectory⟩ := hsome hroute
    exact ⟨⟨checked, hchecked, hdirectory⟩, Job.overlay_ne_lost hchecked⟩
  · obtain ⟨w₁, hquiet, hrun⟩ := r.perform_run ws w
    rw [hrun]
    rcases Job.stages_lost hjob hpublish hcustom (hnone typed hroute) hw hcancels hclean with
      hstarts | ⟨p, hstarts, hcommand, hlost⟩
    · exact Or.inl (hstarts.trans hquiet)
    · rw [hlost]
      exact Or.inr ⟨p, _, hstarts.trans hquiet, hcommand, rfl, rfl, rfl⟩

/-! ### A program and a native program that are published -/

section Sample

/-- A request that publishes a program with a local runtime. -/
def Request.publishSample (compiler : Compiler) : Request :=
  { Request.sample with
    settings := { compiler, publish := true, customRuntime := true, runtimePath := "/rt" } }

/-- A world with a local runtime that has been built with the compiler of native programs. -/
def World.publishing : World :=
  { World.sample [] with
    disk := { Disk.sample with
      tree := ((Disk.sample.tree.put ["tmp"] .directory).put
        ["rt", "artifacts", "bin", "coreclr", "linux.x64.Checked", "aotsdk"] .directory).put
        ["rt", "artifacts", "bin", "coreclr", "linux.x64.Checked", "ilc"] .directory } }

/-- A published program with a checked runtime. -/
theorem overlay_finds_runtime_jit :
    ∃ j : Job, (((Request.publishSample .jit).toJob .sample).perform .publishing).1 = .ok j ∧
      ∃ checked, j.layout.checked = some checked ∧
        World.publishing.disk.isDirectory checked.text = .ok true := by
  have hmade : (((Request.publishSample .jit).toJob .sample).perform
      .publishing).1.toOption.isSome = true := by
    decide +kernel
  cases hjob : (((Request.publishSample .jit).toJob .sample).perform .publishing).1 with
  | error f =>
    rw [hjob] at hmade
    cases hmade
  | ok j =>
    refine ⟨j, rfl, ((overlay_finds_runtime hjob rfl rfl).1 fun typed hroute => ?_).1⟩
    have hchosen := Strategy.chosenBy_of_select (Request.toJob_eq_ok hjob).1
    rw [hroute] at hchosen
    cases hchosen.1

/-- The run publishes the native program and fails, although the folder of the runtime is there. -/
theorem overlay_lost :
    World.publishing.disk.holdsDirectory "/rt/artifacts/bin/coreclr/linux.x64.Checked" = true ∧
      (((Request.publishSample .nativeAot).run .sample).perform .publishing).1.toOption.map
        (fun x => (x.status, x.output)) = some (.failed, Job.runtimeLost) ∧
      (((Request.publishSample .nativeAot).run .sample).perform .publishing).2.started.map
        (fun p => p.command.args.head?) = [some "publish".toList] := by
  decide +kernel

end Sample

end JitInspect
