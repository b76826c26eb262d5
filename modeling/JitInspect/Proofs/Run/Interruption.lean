import JitInspect.Proofs.Run.Cancellation

/-!
# Interruption

Only a command can be interrupted by the user. So as long as no command is (`World.Undisturbed`), be
it that some fail for other reasons, no step of a run is interrupted (`Action.NotInterrupted`), and the
run has a result (`Request.run_returns_of_undisturbed`). As before this is decided construct by
construct.
-/

namespace JitInspect

namespace World

variable {w w₁ : World}

/-- No command that is still to be started is interrupted by the user. -/
def Undisturbed (w : World) : Prop := ∀ o ∈ w.outcomes, o.ending ≠ .error .interrupted

/-- So the next command is not interrupted, also when there is no outcome left for it. -/
theorem Undisturbed.nextOutcome (h : w.Undisturbed) : w.nextOutcome.ending ≠ .error .interrupted := by
  unfold World.nextOutcome
  cases hw : w.outcomes with
  | nil => exact fun hno => by cases hno
  | cons o os => exact h o (by simp [hw])

/-- What is not interrupted stays so when outcomes have been used up. -/
theorem Undisturbed.of_drop {k : ℕ} (h : w.Undisturbed) (ho : w₁.outcomes = w.outcomes.drop k) :
    w₁.Undisturbed := by
  intro o hmem
  rw [ho] at hmem
  exact h o (List.mem_of_mem_drop hmem)

end World

namespace Action

variable {α β : Type}

/-- As long as no command is interrupted the action may fail, but not because the user interrupts the
program. -/
def NotInterrupted (a : Action α) : Prop :=
  ∀ w, w.Undisturbed → (a.perform w).2.Undisturbed ∧ (a.perform w).1 ≠ .error .interrupted

namespace NotInterrupted

/-! ### Constructs -/

section Constructs

/-- A value is no interruption. -/
theorem pure (x : α) : NotInterrupted (pure x : Action α) :=
  fun _ hw => ⟨hw, fun h => by cases h⟩

/-- A failure of another kind is no interruption. -/
theorem throw {f : Failure} (hf : f ≠ .interrupted) : NotInterrupted (throw f : Action α) :=
  fun _ hw => ⟨hw, fun h => hf (Except.error.inj h)⟩

/-- A sequence is interrupted only if one of its parts is. -/
theorem bind {a : Action α} {g : α → Action β} (ha : NotInterrupted a)
    (hg : ∀ x, NotInterrupted (g x)) : NotInterrupted (a >>= g) := by
  intro w hw
  obtain ⟨hkept, hf⟩ := ha w hw
  rcases hrun : a.perform w with ⟨f | x, w₁⟩
  · rw [hrun] at hkept hf
    rw [perform_bind_of_error hrun]
    exact ⟨hkept, fun h => hf (by cases h; rfl)⟩
  · rw [hrun] at hkept
    rw [perform_bind_of_ok hrun]
    exact hg x w₁ hkept

/-- A choice is interrupted only if the branch that is taken is. -/
theorem ite {c : Prop} [Decidable c] {a b : Action α} (ha : NotInterrupted a)
    (hb : NotInterrupted b) : NotInterrupted (if c then a else b) := by
  by_cases hc : c
  · rwa [if_pos hc]
  · rwa [if_neg hc]

/-- A handler is given a failure that is no interruption. -/
theorem tryCatch {a : Action α} {handle : Failure → Action α} (ha : NotInterrupted a)
    (hh : ∀ f, f ≠ .interrupted → NotInterrupted (handle f)) : NotInterrupted (tryCatch a handle) := by
  intro w hw
  obtain ⟨hkept, hf⟩ := ha w hw
  rw [perform_tryCatch]
  rcases hrun : a.perform w with ⟨f | x, w₁⟩
  · rw [hrun] at hkept hf
    exact hh f (fun h => hf (by rw [h])) w₁ hkept
  · rw [hrun] at hkept
    exact ⟨hkept, fun h => by cases h⟩

/-- A loop is interrupted only if its body is. -/
theorem forM {γ : Type} (xs : List γ) {g : γ → Action PUnit} (hg : ∀ x, NotInterrupted (g x)) :
    NotInterrupted (xs.forM g) := by
  induction xs with
  | nil => exact pure _
  | cons x xs ih => exact (hg x).bind fun _ => ih

end Constructs

/-! ### Elementary actions -/

section Elementary

/-- An action that starts nothing is not interrupted unless it fails with an interruption. -/
theorem of_quiet {a : Action α} (ha : Quiet a)
    (hf : ∀ w, (a.perform w).1 ≠ .error .interrupted) : NotInterrupted a :=
  fun w hw => ⟨hw.of_drop (ha w).outcomes, hf w⟩

/-- Looking at the world is never interrupted. -/
theorem get : NotInterrupted (get : Action World) := of_quiet Keeps.get fun _ h => by cases h

/-- A checkpoint fails only because the run was cancelled. -/
theorem checkpoint : NotInterrupted checkpoint := by
  refine of_quiet Keeps.checkpoint fun w h => ?_
  cases hc : w.isCancelled with
  | true =>
    rw [perform_checkpoint_of_isCancelled hc] at h
    cases h
  | false =>
    rw [perform_checkpoint_of_not_isCancelled hc] at h
    cases h

/-- Reporting progress never fails. -/
theorem report (t : Text) : NotInterrupted (report t) :=
  of_quiet (Keeps.report t) fun _ h => by cases h

/-- Nor does writing to the log. -/
theorem log (r : LogRecord) : NotInterrupted (log r) := of_quiet (Keeps.log r) fun _ h => by cases h

/-- Nor does setting files down for deletion. -/
theorem deleteLater (files : List Text) : NotInterrupted (deleteLater files) :=
  of_quiet (quiet_deleteLater files) fun _ h => by cases h

/-- Nor does drawing an identifier. -/
theorem identifier : NotInterrupted identifier :=
  of_quiet Keeps.identifier fun _ h => by cases h

/-- A computation fails in its own ways, none of which is an interruption. -/
theorem lift {ε : Type} {toFailure : ε → Failure} (hf : ∀ x, toFailure x ≠ .interrupted)
    (e : Except ε α) : NotInterrupted (lift toFailure e) := by
  refine of_quiet (Keeps.lift toFailure e) fun w h => ?_
  rw [perform_lift] at h
  cases e with
  | ok x => cases h
  | error x => exact hf x (Except.error.inj h)

/-- A question about the disk fails with a fault of the disk. -/
theorem ask (question : Disk → Except FileFault α) : NotInterrupted (ask question) := by
  refine of_quiet (Keeps.ask question) fun w h => ?_
  rw [perform_ask] at h
  cases hq : question w.disk <;> rw [hq] at h <;> cases h

/-- Reading a file fails with a fault of the disk. -/
theorem readText (file : Text) : NotInterrupted (readText file) := ask _

/-- A change of the disk fails with a fault of the disk. -/
theorem change (c : Disk.Change α) : NotInterrupted (change c) := by
  refine of_quiet (Keeps.change c) fun w h => ?_
  rw [perform_change] at h
  rcases hc : StateT.run c.run w.disk with ⟨_ | _, _⟩ <;> rw [hc] at h <;> cases h

/-- Writing a file fails with a fault of the disk. -/
theorem writeText (file content : Text) : NotInterrupted (writeText file content) := change _

/-- Deleting never fails. -/
theorem delete (file : Text) : NotInterrupted (delete file) := by
  refine of_quiet (Keeps.delete file) fun w h => ?_
  obtain ⟨log, hrun⟩ := perform_delete file w
  rw [hrun] at h
  cases h

/-- A temporary file is refused with a fault of the disk. -/
theorem temporaryFile (h : Host) (extension : Text) :
    NotInterrupted (temporaryFile h extension) := by
  have hcount : NotInterrupted (modify fun w => { w with temporaries := w.temporaries + 1 }) :=
    fun _ hw => ⟨hw, fun h => by cases h⟩
  exact hcount.bind fun _ => get.bind fun _ => (change _).bind fun _ => pure _

/-- A command may fail when it changes the disk; otherwise it ends as its outcome says. -/
theorem start (c : Command) : NotInterrupted (start c) := by
  intro w hw
  have htail : w.outcomes.tail = w.outcomes.drop 1 := List.drop_one.symm
  rw [perform_start_eq]
  rcases w.after_cases c with ⟨f, -, hafter⟩ | ⟨-, hafter⟩
  · rw [hafter]
    exact ⟨hw.of_drop htail, fun h => by cases h⟩
  · rw [hafter]
    exact ⟨hw.of_drop htail, hw.nextOutcome⟩

/-- Deleting a file in any case does not change how the action ends. -/
theorem thenDelete {a : Action α} (ha : NotInterrupted a) (file : Text) :
    NotInterrupted (a.thenAlways (Action.delete file)) := by
  intro w hw
  obtain ⟨hdone, hf⟩ := ha w hw
  obtain ⟨log, hdelete⟩ := perform_delete file (a.perform w).2
  have hkept := (delete file (a.perform w).2 hdone).1
  rw [hdelete] at hkept
  rw [perform_thenAlways a hdelete]
  exact ⟨hkept, hf⟩

end Elementary

end NotInterrupted

end Action

/-! ### The steps of a run -/

section Steps

open JitInspect.Action

/-- Writing one of the loader's sources is not interrupted. -/
theorem LoaderCache.notInterrupted_writeOnce (file : Path) (content : Text) :
    NotInterrupted (LoaderCache.writeOnce file content) :=
  (NotInterrupted.ask _).bind fun _ => .ite (.pure _) (.writeText _ _)

/-- Nor is choosing the folder for a loader. -/
theorem LoaderCache.notInterrupted_folder (c : LoaderCache) (framework : Text) :
    NotInterrupted (c.folder framework) := by
  unfold LoaderCache.folder
  refine (NotInterrupted.start _).bind fun printed => NotInterrupted.checkpoint.bind fun _ => ?_
  by_cases h : isVersion (Text.strip printed.output) = true
  · simp only [h, if_true]
    exact .pure _
  · simp only [h]
    exact NotInterrupted.identifier.bind fun _ => .pure _

/-- Nor is building a loader. -/
theorem LoaderCache.notInterrupted_build (c : LoaderCache) (folder : Path) (framework : Text) :
    NotInterrupted (c.build folder framework) :=
  (NotInterrupted.change _).bind fun _ => (notInterrupted_writeOnce _ _).bind fun _ =>
    (notInterrupted_writeOnce _ _).bind fun _ => NotInterrupted.checkpoint.bind fun _ =>
    (NotInterrupted.start _).bind fun _ => NotInterrupted.checkpoint.bind fun _ =>
    (NotInterrupted.ask _).bind fun _ => .ite (.pure _) (.throw (by simp))

/-- Nor is supplying a loader, whichever of these steps it needs. -/
theorem LoaderCache.notInterrupted_ensure (c : LoaderCache) (framework : Text)
    (destination : Path) : NotInterrupted (c.ensure framework destination) := by
  have honce : ∀ folder, NotInterrupted (c.buildOnce folder framework) := fun _ =>
    (NotInterrupted.ask _).bind fun _ => .ite (.pure _)
      ((NotInterrupted.report _).bind fun _ => c.notInterrupted_build _ _)
  have hcopy : ∀ folder, NotInterrupted (copyTo destination folder) := fun _ =>
    .forM _ fun _ => .change _
  have hsupply : NotInterrupted (c.supply framework destination) :=
    (NotInterrupted.report _).bind fun _ => (c.notInterrupted_folder _).bind fun _ =>
      (honce _).bind fun _ => NotInterrupted.checkpoint.bind fun _ => hcopy _
  exact (NotInterrupted.ask _).bind fun _ => .ite (.throw (by simp))
    ((NotInterrupted.ask _).bind fun _ => .ite (.pure _) hsupply)

/-- Copying a checked runtime over the published files may fail in many ways, but is not interrupted. -/
theorem Job.notInterrupted_overlay (j : Job) : NotInterrupted j.overlay := by
  have hcopy : NotInterrupted j.overlayRuntime := by
    unfold Job.overlayRuntime
    cases j.layout.checked with
    | none => exact .throw (by simp)
    | some checked =>
      refine NotInterrupted.tryCatch (.change _) fun f hf => ?_
      split
      · exact .ite (.throw (by simp)) (.throw hf)
      · exact .throw hf
  exact .ite ((NotInterrupted.report _).bind fun _ => hcopy) (.pure _)

/-- The build is not interrupted, from its temporary file to the loader. -/
theorem Job.notInterrupted_build (w : Workshop) (j : Job) : NotInterrupted (j.build w) := by
  have hstart : NotInterrupted (j.startBuild w.host) :=
    (NotInterrupted.temporaryFile _ _).bind fun _ =>
      .thenDelete ((NotInterrupted.writeText _ _).bind fun _ => .start _) _
  refine (NotInterrupted.report _).bind fun _ => hstart.bind fun printed =>
    NotInterrupted.checkpoint.bind fun _ => ?_
  cases Job.buildErrors? printed with
  | some errors => exact .throw (by simp)
  | none =>
    exact j.notInterrupted_overlay.bind fun _ => .ite (w.loaders.notInterrupted_ensure _ _) (.pure _)

/-- Carrying out a plan is not interrupted. -/
theorem Job.notInterrupted_startPlan (w : Workshop) (j : Job) (inputs : PlanInputs) :
    NotInterrupted (j.startPlan w inputs) := by
  refine NotInterrupted.bind (.lift ?_ _) fun _ => (NotInterrupted.report _).bind fun _ =>
    (NotInterrupted.start _).bind fun _ => NotInterrupted.checkpoint.bind fun _ => .pure _
  intro f
  cases f <;> simp [Failure.ofPlan, Failure.ofArguments]

/-- Nor is the execution, for native compilers with their temporary files. -/
theorem Job.notInterrupted_execute (w : Workshop) (j : Job) (file : Option Text) :
    NotInterrupted (j.execute w file) := by
  have hlisting : ∀ file printed, NotInterrupted (Job.nativeListing file printed) := fun _ _ =>
    .ite (.throw (by simp)) (NotInterrupted.get.bind fun _ => .ite (.throw (by simp))
      ((NotInterrupted.readText _).bind fun _ => .pure _))
  have hnative : ∀ environment, NotInterrupted (j.executeNative w environment) := fun _ =>
    (NotInterrupted.temporaryFile _ _).bind fun _ => (NotInterrupted.delete _).bind fun _ =>
      (NotInterrupted.temporaryFile _ _).bind fun _ => (NotInterrupted.deleteLater _).bind fun _ =>
      (NotInterrupted.writeText _ _).bind fun _ => (j.notInterrupted_startPlan w _).bind fun _ =>
      hlisting _ _
  exact .ite (hnative _) ((j.notInterrupted_startPlan w _).bind fun _ => .pure _)

/-- Nor is the splitting of a dump into phases. -/
theorem Job.notInterrupted_phases (w : Workshop) (file : Option Text) :
    NotInterrupted (Job.phases w file) := by
  have hdump : ∀ file, NotInterrupted (Job.dumpText file) := by
    intro file
    refine NotInterrupted.tryCatch (.readText _) fun f hf => ?_
    split
    · exact .ite (.pure _) (.throw hf)
    · exact .throw hf
  cases file with
  | none => exact .pure _
  | some file =>
    refine (NotInterrupted.report _).bind fun _ => (hdump _).bind fun _ =>
      .ite (.throw (by simp)) ?_
    exact NotInterrupted.identifier.bind fun _ => (NotInterrupted.change _).bind fun _ =>
      (NotInterrupted.forM _ .log).bind fun _ => .pure _

/-- All that stands behind the build is not interrupted. -/
theorem Request.notInterrupted_list (w : Workshop) (j : Job) :
    NotInterrupted (Request.list w j) := by
  have hfile : NotInterrupted (j.flowGraphFile w) :=
    .ite ((NotInterrupted.temporaryFile _ _).bind fun _ =>
      (NotInterrupted.deleteLater _).bind fun _ => .pure _) (.pure _)
  have hshown : ∀ raw asIs, NotInterrupted (j.shown raw asIs) := fun _ _ =>
    .ite ((NotInterrupted.forM _ .log).bind fun _ => .pure _) (.pure _)
  have hpresent : ∀ file l, NotInterrupted (Request.present w j file l) := fun _ _ =>
    .ite (.pure _) ((hshown _ _).bind fun _ => (Job.notInterrupted_phases w _).bind fun _ => .pure _)
  exact hfile.bind fun _ => (j.notInterrupted_execute w _).bind fun _ =>
    NotInterrupted.checkpoint.bind fun _ => hpresent _ _

/-- A request is refused for many reasons, none of which is an interruption. -/
theorem Request.notInterrupted_toJob (w : Workshop) (r : Request) :
    NotInterrupted (r.toJob w) := by
  have hgate : ∀ f : GateFault, Failure.ofGate f ≠ .interrupted := by
    intro f
    cases f <;> simp [Failure.ofGate, Failure.ofFile]
  have hresolve : ∀ f : ResolveFault, Failure.ofResolve f ≠ .interrupted := by
    intro f
    cases f <;> simp [Failure.ofResolve, Failure.ofFile]
  have hpass : NotInterrupted (r.pass w) := by
    refine NotInterrupted.bind (.lift (by simp [Failure.ofArguments]) _) fun strategy =>
      NotInterrupted.get.bind fun _ => NotInterrupted.bind (.lift hgate _) fun layout => ?_
    split
    · exact .pure _
    · exact .throw (hgate _)
  exact hpass.bind fun _ => NotInterrupted.checkpoint.bind fun _ => NotInterrupted.get.bind fun _ =>
    NotInterrupted.bind (.lift hresolve _) fun _ => .pure _

/-- So no stage of a run is interrupted. -/
theorem Request.notInterrupted_stages (w : Workshop) (r : Request) :
    NotInterrupted (r.stages w) :=
  (r.notInterrupted_toJob w).bind fun j => NotInterrupted.checkpoint.bind fun _ =>
    .ite ((j.notInterrupted_build w).bind fun _ => NotInterrupted.checkpoint.bind fun _ =>
      Request.notInterrupted_list w j) (Request.notInterrupted_list w j)

end Steps

/-- A run of which no command is interrupted hands back a result. -/
theorem Request.run_returns_of_undisturbed (ws : Workshop) (r : Request) {w : World}
    (hw : w.Undisturbed) : ∃ x, r.handBack ws (r.performStages ws w).1 = .ok x := by
  have hnot : (r.performStages ws w).1 ≠ .error .interrupted :=
    (r.notInterrupted_stages ws { w with toDelete := [] } hw).2
  cases hstages : (r.performStages ws w).1 with
  | ok x => exact ⟨x, rfl⟩
  | error f =>
    rw [hstages] at hnot
    cases f with
    | interrupted => exact absurd rfl hnot
    | cancelled m => exact ⟨_, rfl⟩
    | rejected m => exact ⟨_, rfl⟩
    | tool o => exact ⟨_, rfl⟩
    | unforeseen u => exact ⟨_, rfl⟩

end JitInspect
