import JitInspect.Proofs.Run.Process

/-!
# What actions leave alone

A frame is a relation between worlds that may be followed from step to step and that holds as long as
nothing is started, the token stays as it is, no temporary file is created or set down for deletion, and
identifiers are drawn in order. An action that keeps a frame does so however it ends. Whether it does is
decided construct by construct, so that an action keeps a frame as soon as its elementary actions do.

Two frames matter here. An action is `Action.Quiet` if it starts nothing and leaves the token alone;
all actions of a run are quiet except those that start a command. The other frame is the number of
temporary files, which tells how the next one will be named, together with those that are set down for
deletion, `Action.KeepsTemporaries`. It is also kept by commands, and so by whatever needs no other
action that does not keep every frame (`LoaderCache.keeps_ensure`).
-/

namespace JitInspect

/-- A relation between worlds that looks at nothing but the commands, the token, the temporary files
and whether identifiers are drawn in order, and that is respected by doing one thing after another. -/
class World.Frame (R : World → World → Prop) : Prop where
  of_same : ∀ {w w₁ : World}, w₁.started = w.started → w₁.outcomes = w.outcomes →
    w₁.token = w.token → w₁.temporaries = w.temporaries → w₁.toDelete = w.toDelete →
    w.identifiers ≤ w₁.identifiers → R w w₁
  trans : ∀ {w₁ w₂ w₃}, R w₁ w₂ → R w₂ w₃ → R w₁ w₃

/-- A world is in every frame with itself. -/
theorem World.Frame.refl {R : World → World → Prop} [World.Frame R] (w : World) : R w w :=
  World.Frame.of_same rfl rfl rfl rfl rfl (Nat.le_refl _)

namespace Action

variable {α β : Type} {R : World → World → Prop}

/-- However the action ends, the world that it leaves behind is in the relation to the one before. -/
def Keeps (R : World → World → Prop) (a : Action α) : Prop := ∀ w, R w (a.perform w).2

namespace Keeps

/-- A choice keeps what both branches keep. -/
theorem ite {c : Prop} [Decidable c] {a b : Action α} (ha : Keeps R a) (hb : Keeps R b) :
    Keeps R (if c then a else b) := by
  by_cases hc : c
  · rwa [if_pos hc]
  · rwa [if_neg hc]

section Constructs

variable [World.Frame R]

/-- Handing over a value changes nothing. -/
theorem pure (x : α) : Keeps R (pure x : Action α) := fun w => World.Frame.refl w

/-- Failing changes nothing. -/
theorem throw (f : Failure) : Keeps R (throw f : Action α) := fun w => World.Frame.refl w

/-- Looking at the world changes nothing. -/
theorem get : Keeps R (get : Action World) := fun w => World.Frame.refl w

/-- What follows upon an action leaves alone what it keeps, from where the action left it. -/
theorem behind {g : α → Action β} (hg : ∀ x, Keeps R (g x)) (a : Action α) (w : World) :
    R (a.perform w).2 ((a >>= g).perform w).2 := by
  rcases h : a.perform w with ⟨f | x, w₁⟩
  · rw [perform_bind_of_error h]
    exact World.Frame.refl w₁
  · rw [perform_bind_of_ok h]
    exact hg x w₁

/-- A sequence keeps what its two parts keep. -/
theorem bind {a : Action α} {g : α → Action β} (ha : Keeps R a) (hg : ∀ x, Keeps R (g x)) :
    Keeps R (a >>= g) :=
  fun w => World.Frame.trans (ha w) (behind hg a w)

/-- A handled action keeps what the action and the handler keep. -/
theorem tryCatch {a : Action α} {handle : Failure → Action α} (ha : Keeps R a)
    (hh : ∀ f, Keeps R (handle f)) : Keeps R (tryCatch a handle) := by
  intro w
  have hw := ha w
  rw [perform_tryCatch]
  rcases h : a.perform w with ⟨f | x, w₁⟩
  · rw [h] at hw
    exact World.Frame.trans hw (hh f w₁)
  · rw [h] at hw
    exact hw

/-- A loop keeps what its body keeps. -/
theorem forM {γ : Type} (xs : List γ) {g : γ → Action PUnit} (hg : ∀ x, Keeps R (g x)) :
    Keeps R (xs.forM g) := by
  induction xs with
  | nil => exact pure _
  | cons x xs ih => exact (hg x).bind fun _ => ih

end Constructs

/-! ### Elementary actions that keep every frame -/

section Elementary

variable [World.Frame R]

/-- Looking at the token changes nothing. -/
theorem checkpoint : Keeps R checkpoint := by
  intro w
  rw [perform_checkpoint]
  exact World.Frame.refl w

/-- A question about the disk changes nothing. -/
theorem ask (question : Disk → Except FileFault α) : Keeps R (ask question) := by
  intro w
  rw [perform_ask]
  exact World.Frame.refl w

/-- A computation without effects changes nothing. -/
theorem lift {ε : Type} (toFailure : ε → Failure) (e : Except ε α) :
    Keeps R (lift toFailure e) := by
  intro w
  rw [perform_lift]
  exact World.Frame.refl w

/-- Reading a file changes nothing. -/
theorem readText (file : Text) : Keeps R (readText file) := ask _

/-- Progress is none of the things that a frame looks at. -/
theorem report (t : Text) : Keeps R (report t) :=
  fun _ => World.Frame.of_same rfl rfl rfl rfl rfl (Nat.le_refl _)

/-- Nor is the log. -/
theorem log (r : LogRecord) : Keeps R (log r) :=
  fun _ => World.Frame.of_same rfl rfl rfl rfl rfl (Nat.le_refl _)

/-- The next identifier is drawn, and identifiers are drawn in order. -/
theorem identifier : Keeps R identifier :=
  fun w => World.Frame.of_same rfl rfl rfl rfl rfl (Nat.le_succ w.identifiers)

/-- A frame does not look at the disk, so that any change of it keeps every frame. -/
theorem change (c : Disk.Change α) : Keeps R (change c) := by
  intro w
  rw [perform_change]
  exact World.Frame.of_same rfl rfl rfl rfl rfl (Nat.le_refl _)

/-- Writing a file changes the disk only. -/
theorem writeText (file content : Text) : Keeps R (writeText file content) := change _

/-- Deleting a file changes the disk and the log only, also when it fails. -/
theorem delete (file : Text) : Keeps R (delete file) := by
  intro w
  obtain ⟨log, h⟩ := perform_delete file w
  rw [h]
  exact World.Frame.of_same rfl rfl rfl rfl rfl (Nat.le_refl _)

/-- Deleting a file behind an action respects whatever the action respects. -/
theorem thenDelete {a : Action α} (ha : Keeps R a) (file : Text) :
    Keeps R (a.thenAlways (Action.delete file)) := by
  intro w
  obtain ⟨log, hdelete⟩ := perform_delete file (a.perform w).2
  have hkept := delete (R := R) file (a.perform w).2
  rw [hdelete] at hkept
  rw [perform_thenAlways a hdelete]
  exact World.Frame.trans (ha w) hkept

end Elementary

end Keeps

/-! ### The two frames -/

section Frames

instance : World.Frame fun w w₁ => w.Starts [] w₁ :=
  ⟨fun hs ho ht _ _ _ => .of_same hs ho ht, World.Starts.trans⟩

/-- The action starts nothing and leaves the token alone. -/
abbrev Quiet (a : Action α) : Prop := Keeps (fun w w₁ => w.Starts [] w₁) a

instance : World.Frame fun w w₁ => w₁.temporaries = w.temporaries ∧ w₁.toDelete = w.toDelete :=
  ⟨fun _ _ _ h hd _ => ⟨h, hd⟩, fun h h₁ => ⟨h₁.1.trans h.1, h₁.2.trans h.2⟩⟩

/-- The action creates no temporary file and sets none down for deletion. -/
abbrev KeepsTemporaries (a : Action α) : Prop :=
  Keeps (fun w w₁ => w₁.temporaries = w.temporaries ∧ w₁.toDelete = w.toDelete) a

/-- What follows upon an action and creates no temporary file leaves those that there are. -/
theorem keepsTemporaries_behind {a : Action α} {g : α → Action β} {w : World} {count : ℕ}
    {files : List Text} (hg : ∀ x, KeepsTemporaries (g x))
    (ha : (a.perform w).2.temporaries = count ∧ (a.perform w).2.toDelete = files) :
    ((a >>= g).perform w).2.temporaries = count ∧ ((a >>= g).perform w).2.toDelete = files := by
  obtain ⟨hcount, hset⟩ := Keeps.behind hg a w
  exact ⟨hcount.trans ha.1, hset.trans ha.2⟩

/-- Creating a temporary file starts nothing. -/
theorem quiet_temporaryFile (h : Host) (extension : Text) : Quiet (temporaryFile h extension) := by
  have hcount : Quiet (modify fun w => { w with temporaries := w.temporaries + 1 }) :=
    fun _ => .of_same rfl rfl rfl
  exact hcount.bind fun _ => Keeps.get.bind fun _ => (Keeps.change _).bind fun _ => Keeps.pure _

/-- Setting files down for deletion starts nothing. -/
theorem quiet_deleteLater (files : List Text) : Quiet (deleteLater files) :=
  fun _ => .of_same rfl rfl rfl

/-- A command does not create temporary files for the run. -/
theorem keepsTemporaries_start (c : Command) : KeepsTemporaries (start c) := by
  intro w
  rw [perform_start_eq]
  exact ⟨w.temporaries_after c, w.toDelete_after c⟩

end Frames

end Action

/-! ### Parts of a run that keep every frame -/

section Parts

open JitInspect.Action

variable {R : World → World → Prop} [World.Frame R]

/-- Writing one of the loader's sources changes the disk only. -/
theorem LoaderCache.keeps_writeOnce (file : Path) (content : Text) :
    Keeps R (LoaderCache.writeOnce file content) :=
  (Keeps.ask _).bind fun _ => Keeps.ite (Keeps.pure _) (Keeps.writeText _ _)

/-- Copying the loader changes the disk only. -/
theorem LoaderCache.keeps_copyTo (destination folder : Path) :
    Keeps R (LoaderCache.copyTo destination folder) :=
  Keeps.forM _ fun _ => Keeps.change _

/-- Copying a checked runtime over the published files changes the disk only, however it fails. -/
theorem Job.keeps_overlayRuntime (j : Job) : Keeps R j.overlayRuntime := by
  unfold Job.overlayRuntime
  cases j.layout.checked with
  | none => exact Keeps.throw _
  | some checked =>
    refine Keeps.tryCatch (Keeps.change _) fun f => ?_
    split
    · exact Keeps.ite (Keeps.throw _) (Keeps.throw _)
    · exact Keeps.throw _

/-- The same with the report ahead of it. -/
theorem Job.keeps_overlay (j : Job) : Keeps R j.overlay :=
  Keeps.ite ((Keeps.report _).bind fun _ => j.keeps_overlayRuntime) (Keeps.pure _)

/-- Fetching the listing of a native compiler only reads. -/
theorem Job.keeps_nativeListing (file : Text) (printed : Printed) :
    Keeps R (Job.nativeListing file printed) :=
  Keeps.ite (Keeps.throw _) (Keeps.get.bind fun _ => Keeps.ite (Keeps.throw _)
    ((Keeps.readText _).bind fun _ => Keeps.pure _))

/-- Condensing a listing adds to the log only. -/
theorem Job.keeps_shown (j : Job) (raw asIs : Text) : Keeps R (j.shown raw asIs) :=
  Keeps.ite ((Keeps.forM _ Keeps.log).bind fun _ => Keeps.pure _) (Keeps.pure _)

/-- Fetching a dump only reads; a dump that is missing counts as empty. -/
theorem Job.keeps_dumpText (file : Text) : Keeps R (Job.dumpText file) := by
  refine Keeps.tryCatch (Keeps.readText _) fun f => ?_
  split
  · exact Keeps.ite (Keeps.pure _) (Keeps.throw _)
  · exact Keeps.throw _

/-- Splitting a dump draws an identifier and changes the disk. -/
theorem Job.keeps_splitDump (w : Workshop) (file : Text) : Keeps R (Job.splitDump w file) := by
  refine (Job.keeps_dumpText _).bind fun dump => Keeps.ite (Keeps.throw _) ?_
  exact Keeps.identifier.bind fun _ => (Keeps.change _).bind fun _ =>
    (Keeps.forM _ Keeps.log).bind fun _ => Keeps.pure _

/-- The same with the report ahead of it, or nothing without a file. -/
theorem Job.keeps_phases (w : Workshop) (file : Option Text) : Keeps R (Job.phases w file) := by
  cases file with
  | none => exact Keeps.pure _
  | some file => exact (Keeps.report _).bind fun _ => Job.keeps_splitDump w _

/-- The gates only look. -/
theorem Request.keeps_pass (w : Workshop) (r : Request) : Keeps R (r.pass w) := by
  refine (Keeps.lift _ _).bind fun _ => Keeps.get.bind fun _ => (Keeps.lift _ _).bind fun _ => ?_
  split
  · exact Keeps.pure _
  · exact Keeps.throw _

/-- Making a job of a request only looks. -/
theorem Request.keeps_toJob (w : Workshop) (r : Request) : Keeps R (r.toJob w) :=
  (r.keeps_pass w).bind fun _ => Keeps.checkpoint.bind fun _ => Keeps.get.bind fun _ =>
    (Keeps.lift _ _).bind fun _ => Keeps.pure _

/-- The presentation of a listing with its phases starts nothing and creates no temporary file. -/
theorem Request.keeps_present (w : Workshop) (j : Job) (file : Option Text) (l : Listed) :
    Keeps R (Request.present w j file l) :=
  Keeps.ite (Keeps.pure _) ((j.keeps_shown _ _).bind fun _ => (Job.keeps_phases w file).bind fun _ =>
    Keeps.pure _)

section Commands

variable (hstart : ∀ c, Keeps R (start c))
include hstart

/-- Choosing the folder for a loader starts one command and draws at most one identifier. -/
theorem LoaderCache.keeps_folder (c : LoaderCache) (framework : Text) :
    Keeps R (c.folder framework) := by
  unfold LoaderCache.folder
  refine (hstart _).bind fun printed => Keeps.checkpoint.bind fun _ => ?_
  by_cases h : isVersion (Text.strip printed.output) = true
  · simp only [h, if_true]
    exact Keeps.pure _
  · simp only [h]
    exact Keeps.identifier.bind fun _ => Keeps.pure _

/-- Building a loader writes its sources and starts one command. -/
theorem LoaderCache.keeps_build (c : LoaderCache) (folder : Path) (framework : Text) :
    Keeps R (c.build folder framework) :=
  (Keeps.change _).bind fun _ => (keeps_writeOnce _ _).bind fun _ =>
    (keeps_writeOnce _ _).bind fun _ => Keeps.checkpoint.bind fun _ => (hstart _).bind fun _ =>
    Keeps.checkpoint.bind fun _ => (Keeps.ask _).bind fun _ => Keeps.ite (Keeps.pure _) (Keeps.throw _)

/-- Supplying a loader keeps what its commands keep. -/
theorem LoaderCache.keeps_ensure (c : LoaderCache) (framework : Text) (destination : Path) :
    Keeps R (c.ensure framework destination) := by
  have honce : ∀ folder, Keeps R (c.buildOnce folder framework) := fun _ =>
    (Keeps.ask _).bind fun _ => Keeps.ite (Keeps.pure _)
      ((Keeps.report _).bind fun _ => c.keeps_build hstart _ _)
  have hsupply : Keeps R (c.supply framework destination) :=
    (Keeps.report _).bind fun _ => (c.keeps_folder hstart _).bind fun _ => (honce _).bind fun _ =>
      Keeps.checkpoint.bind fun _ => keeps_copyTo _ _
  exact (Keeps.ask _).bind fun _ => Keeps.ite (Keeps.throw _)
    ((Keeps.ask _).bind fun _ => Keeps.ite (Keeps.pure _) hsupply)

/-- Carrying out a plan starts one command. -/
theorem Job.keeps_startPlan (w : Workshop) (j : Job) (inputs : PlanInputs) :
    Keeps R (j.startPlan w inputs) :=
  (Keeps.lift _ _).bind fun _ => (Keeps.report _).bind fun _ => (hstart _).bind fun _ =>
    Keeps.checkpoint.bind fun _ => Keeps.pure _

end Commands

/-- The file for the flow graphs is a temporary file, so that this is not true of every frame. -/
theorem Job.quiet_flowGraphFile (w : Workshop) (j : Job) : Quiet (j.flowGraphFile w) :=
  Keeps.ite ((quiet_temporaryFile _ _).bind fun _ => (quiet_deleteLater _).bind fun _ =>
    Keeps.pure _) (Keeps.pure _)

end Parts

end JitInspect
