import JitInspect.Proofs.FlowGraph.Stored
import JitInspect.Proofs.Run.Cleanup

/-!
# What a run presents

Everything that a run does before it presents its result is its preparation (`Request.prepare`). The
presentation then touches the disk in one case only: it splits the dump of flow graphs, into a folder of
its own (`Request.Presented`). The phases of a result are the files of this folder
(`Request.storedIn_of_run`), and a run that does not split a dump has no phases in its result.
-/

namespace JitInspect

open JitInspect.Action

/-- The folder for the flow graphs of the run that draws the identifier. -/
def Workshop.graphFolder (ws : Workshop) (n : ℕ) : Path :=
  ws.graphs.child (Text.hex identifierLength n)

namespace Request

variable {ws : Workshop} {r : Request} {j : Job} {l : Listed} {file : Option Text} {w w₁ : World}
  {e : Except Failure RunResult} {x : RunResult}

/-! ### The preparation of a run -/

section Preparation

/-- Executes the plan of a job, for a file of flow graphs perhaps. -/
def prepareListing (ws : Workshop) (j : Job) : Action (Job × Option Text × Listed) := do
  let file ← j.flowGraphFile ws
  let l ← j.execute ws file
  Action.checkpoint
  pure (j, file, l)

/-- Builds the project of a job if its strategy needs that, and executes the plan. -/
def prepareJob (ws : Workshop) (j : Job) : Action (Job × Option Text × Listed) :=
  if j.strategy.route.needsBuild then do
    j.build ws
    Action.checkpoint
    prepareListing ws j
  else prepareListing ws j

/-- All stages of a run but the presentation. -/
def prepare (ws : Workshop) (r : Request) : Action (Job × Option Text × Listed) := do
  let j ← r.toJob ws
  Action.checkpoint
  prepareJob ws j

/-- A listing is prepared and then presented. -/
theorem list_eq (ws : Workshop) (j : Job) :
    list ws j = prepareListing ws j >>= fun p => present ws p.1 p.2.1 p.2.2 := by
  unfold list prepareListing
  simp only [bind_assoc, pure_bind]

theorem work_eq_prepareJob (ws : Workshop) (j : Job) :
    work ws j = prepareJob ws j >>= fun p => present ws p.1 p.2.1 p.2.2 := by
  unfold work prepareJob
  by_cases hbuild : j.strategy.route.needsBuild = true
  · rw [if_pos hbuild, if_pos hbuild, list_eq]
    simp only [bind_assoc]
  · rw [if_neg hbuild, if_neg hbuild, list_eq]

/-- A run prepares its result and then presents it. -/
theorem stages_eq_prepare (ws : Workshop) (r : Request) :
    r.stages ws = r.prepare ws >>= fun p => present ws p.1 p.2.1 p.2.2 := by
  unfold stages prepare
  simp only [bind_assoc, work_eq_prepareJob]

/-- A job keeps the options of the request. -/
theorem settings_of_toJob (h : (r.toJob ws).perform w = (.ok j, w₁)) : j.settings = r.settings := by
  unfold toJob at h
  obtain ⟨passed, w₂, -, h⟩ := perform_bind_eq_ok.1 h
  obtain ⟨-, w₃, -, h⟩ := perform_bind_eq_ok.1 h
  obtain ⟨w₄, w₅, -, h⟩ := perform_bind_eq_ok.1 h
  obtain ⟨project, w₆, -, h⟩ := perform_bind_eq_ok.1 h
  obtain ⟨hj, -⟩ := Prod.mk.inj h
  rw [← Except.ok.inj hj]

/-- A file is prepared for the flow graphs exactly if they are asked for. -/
theorem file_of_flowGraphFile (h : (j.flowGraphFile ws).perform w = (.ok file, w₁)) :
    file.isSome = j.settings.flowGraphs := by
  unfold Job.flowGraphFile at h
  by_cases hgraphs : j.settings.flowGraphs = true
  · rw [if_pos hgraphs] at h
    obtain ⟨path, w₂, -, h⟩ := perform_bind_eq_ok.1 h
    obtain ⟨-, w₃, -, h⟩ := perform_bind_eq_ok.1 h
    obtain ⟨hfile, -⟩ := Prod.mk.inj h
    rw [← Except.ok.inj hfile, hgraphs]
    rfl
  · rw [if_neg hgraphs] at h
    obtain ⟨hfile, -⟩ := Prod.mk.inj h
    rw [← Except.ok.inj hfile, Bool.eq_false_iff.2 hgraphs]
    rfl

/-- The preparation hands on its job, and a file for flow graphs if they are on. -/
theorem file_of_prepareListing (h : (prepareListing ws j).perform w = (.ok (j₁, file, l), w₁)) :
    j₁ = j ∧ file.isSome = j.settings.flowGraphs := by
  unfold prepareListing at h
  obtain ⟨file₁, w₂, hfile, h⟩ := perform_bind_eq_ok.1 h
  obtain ⟨l₁, w₃, -, h⟩ := perform_bind_eq_ok.1 h
  obtain ⟨-, w₄, -, h⟩ := perform_bind_eq_ok.1 h
  rw [perform_pure] at h
  cases h
  exact ⟨rfl, file_of_flowGraphFile hfile⟩

/-- So it is when a run is prepared. -/
theorem file_of_prepare (h : (r.prepare ws).perform w = (.ok (j, file, l), w₁)) :
    file.isSome = r.settings.flowGraphs := by
  unfold prepare at h
  obtain ⟨j₁, w₂, hjob, h⟩ := perform_bind_eq_ok.1 h
  obtain ⟨-, w₃, -, h⟩ := perform_bind_eq_ok.1 h
  have hlisting : ∃ w₄, (prepareListing ws j₁).perform w₄ = (.ok (j, file, l), w₁) := by
    unfold prepareJob at h
    by_cases hbuild : j₁.strategy.route.needsBuild = true
    · rw [if_pos hbuild] at h
      obtain ⟨-, w₄, -, h⟩ := perform_bind_eq_ok.1 h
      obtain ⟨-, w₅, -, h⟩ := perform_bind_eq_ok.1 h
      exact ⟨w₅, h⟩
    · rw [if_neg hbuild] at h
      exact ⟨w₃, h⟩
  obtain ⟨w₄, hlisting⟩ := hlisting
  rw [(file_of_prepareListing hlisting).2, settings_of_toJob hjob]

end Preparation

/-! ### What the preparation keeps -/

section Keeping

variable {R : World → World → Prop} [World.Frame R] (hstart : ∀ c, Keeps R (start c))
  (htemporary : ∀ h extension, Keeps R (temporaryFile h extension))
  (hset : ∀ files, Keeps R (deleteLater files))
include hstart htemporary

/-- A build keeps what its commands and its temporary file keep. -/
theorem keeps_build (ws : Workshop) (j : Job) : Keeps R (j.build ws) := by
  have hbuild : Keeps R (j.startBuild ws.host) := (htemporary _ _).bind fun _ =>
    Keeps.thenDelete ((Keeps.writeText _ _).bind fun _ => hstart _) _
  refine (Keeps.report _).bind fun _ => hbuild.bind fun printed => Keeps.checkpoint.bind fun _ => ?_
  cases Job.buildErrors? printed with
  | some errors => exact Keeps.throw _
  | none =>
    exact j.keeps_overlay.bind fun _ =>
      Keeps.ite (ws.loaders.keeps_ensure hstart _ _) (Keeps.pure _)

include hset

theorem keeps_execute (ws : Workshop) (j : Job) (file : Option Text) :
    Keeps R (j.execute ws file) := by
  have hnative : ∀ environment, Keeps R (j.executeNative ws environment) := fun _ =>
    (htemporary _ _).bind fun _ => (Keeps.delete _).bind fun _ => (htemporary _ _).bind fun _ =>
      (hset _).bind fun _ => (Keeps.writeText _ _).bind fun _ =>
      (j.keeps_startPlan hstart ws _).bind fun _ => Job.keeps_nativeListing _ _
  exact Keeps.ite (hnative _) ((j.keeps_startPlan hstart ws _).bind fun _ => Keeps.pure _)

/-- A run keeps, until its result is presented, what its commands and its temporary files keep. -/
theorem keeps_prepare (ws : Workshop) (r : Request) : Keeps R (r.prepare ws) := by
  have hfile : ∀ j : Job, Keeps R (j.flowGraphFile ws) := fun _ =>
    Keeps.ite ((htemporary _ _).bind fun _ => (hset _).bind fun _ => Keeps.pure _) (Keeps.pure _)
  have hlisting : ∀ j, Keeps R (prepareListing ws j) := fun j =>
    (hfile j).bind fun _ => (keeps_execute hstart htemporary hset ws j _).bind fun _ =>
      Keeps.checkpoint.bind fun _ => Keeps.pure _
  exact (r.keeps_toJob ws).bind fun j => Keeps.checkpoint.bind fun _ =>
    Keeps.ite ((keeps_build hstart htemporary ws j).bind fun _ => Keeps.checkpoint.bind fun _ =>
      hlisting j) (hlisting j)

end Keeping

/-! ### Identifiers -/

section Identifiers

instance : World.Frame fun w w₁ => w.identifiers ≤ w₁.identifiers :=
  ⟨fun _ _ _ _ _ h => h, Nat.le_trans⟩

/-- The action draws identifiers in order, if it draws any. -/
abbrev DrawsInOrder {α : Type} (a : Action α) : Prop :=
  Keeps (fun w w₁ => w.identifiers ≤ w₁.identifiers) a

/-- A command draws no identifier. -/
theorem drawsInOrder_start (c : Command) : DrawsInOrder (start c) := by
  intro w
  rw [perform_start_eq]
  rcases w.after_cases c with ⟨f, -, hafter⟩ | ⟨-, hafter⟩
  · rw [hafter]
    exact Nat.le_refl _
  · rw [hafter]
    exact Nat.le_refl _

theorem drawsInOrder_temporaryFile (h : Host) (extension : Text) :
    DrawsInOrder (temporaryFile h extension) := by
  intro w
  rw [perform_temporaryFile]
  cases w.disk.createFile (temporaryPath h (w.temporaries + 1) extension) <;> exact Nat.le_refl _

/-- Until the result is presented, identifiers are only drawn in order. -/
theorem drawsInOrder_prepare (ws : Workshop) (r : Request) : DrawsInOrder (r.prepare ws) :=
  keeps_prepare drawsInOrder_start drawsInOrder_temporaryFile (fun _ _ => Nat.le_refl _) ws r

end Identifiers

/-! ### The presentation -/

section Presentation

/-- What the presentation of a result comes to: no dump is split, or a dump is split into a new folder,
or this folder cannot be created. -/
inductive Presented (ws : Workshop) (file : Option Text) (w : World) :
    Except Failure RunResult → World → Prop where
  | unsplit {e : Except Failure RunResult} {w₁ : World} (hdisk : w₁.disk = w.disk)
      (hids : w.identifiers ≤ w₁.identifiers)
      (hnone : ∀ x, e = .ok x → x.phases = [] ∧ (x.status = .completed → file = none)) :
      Presented ws file w e w₁
  | split {x : RunResult} {w₁ : World} {dump : Text} {s : FlowGraph.Split} (hfile : file ≠ none)
      (hids : w₁.identifiers = w.identifiers + 1)
      (hsplit : StateT.run (FlowGraph.splitInto (ws.graphFolder (w.identifiers + 1)) dump).run w.disk =
        (.ok s, w₁.disk))
      (hstatus : x.status = .completed) (hphases : x.phases = s.phases) :
      Presented ws file w (.ok x) w₁
  | failed {f : Failure} {w₁ : World} {dump : Text} {g : FileFault}
      (hids : w₁.identifiers = w.identifiers + 1)
      (hsplit : StateT.run (FlowGraph.splitInto (ws.graphFolder (w.identifiers + 1)) dump).run w.disk =
        (.error g, w₁.disk)) : Presented ws file w (.error f) w₁

/-- Splitting a dump draws an identifier for its folder, once it is known that there is a dump. -/
theorem splitDump_eq (ws : Workshop) (dumpFile : Text) (w : World) :
    (∃ f, (Job.splitDump ws dumpFile).perform w = (.error f, w)) ∨
      ∃ dump : Text,
        (∃ g w₁, (Job.splitDump ws dumpFile).perform w = (.error (.ofFile g), w₁) ∧
          w₁.identifiers = w.identifiers + 1 ∧
          StateT.run (FlowGraph.splitInto (ws.graphFolder (w.identifiers + 1)) dump).run w.disk =
            (.error g, w₁.disk)) ∨
        ∃ (s : FlowGraph.Split) (w₁ : World),
          (Job.splitDump ws dumpFile).perform w = (.ok s.phases, w₁) ∧
          w₁.identifiers = w.identifiers + 1 ∧
          StateT.run (FlowGraph.splitInto (ws.graphFolder (w.identifiers + 1)) dump).run w.disk =
            (.ok s, w₁.disk) := by
  have hdump := Job.perform_dumpText dumpFile w
  unfold Job.splitDump
  rcases hread : (Job.dumpText dumpFile).perform w with ⟨f | dump, w₂⟩
  · have hw₂ := congrArg Prod.snd (hread.symm.trans hdump)
    obtain rfl : w₂ = w := hw₂
    exact Or.inl ⟨f, perform_bind_of_error hread⟩
  · have hw₂ := congrArg Prod.snd (hread.symm.trans hdump)
    obtain rfl : w₂ = w := hw₂
    rw [perform_bind_of_ok hread]
    by_cases hblank : Text.blank dump = true
    · rw [if_pos hblank]
      exact Or.inl ⟨_, rfl⟩
    · rw [if_neg hblank, perform_bind_of_ok (perform_identifier w₂)]
      refine Or.inr ⟨dump, ?_⟩
      have hchange := perform_change (FlowGraph.splitInto (ws.graphFolder (w₂.identifiers + 1)) dump)
        { w₂ with identifiers := w₂.identifiers + 1 }
      rcases hsplit : StateT.run (FlowGraph.splitInto (ws.graphFolder (w₂.identifiers + 1)) dump).run
          w₂.disk with ⟨g | s, d⟩
      · rw [hsplit] at hchange
        exact Or.inl ⟨g, _, perform_bind_of_error hchange, rfl, rfl⟩
      · rw [hsplit] at hchange
        obtain ⟨records, hlog⟩ := perform_logs s.warnings
          { w₂ with identifiers := w₂.identifiers + 1, disk := d }
        refine Or.inr ⟨s, { w₂ with identifiers := w₂.identifiers + 1, disk := d, log := records },
          ?_, rfl, rfl⟩
        exact (perform_bind_of_ok hchange).trans (perform_bind_of_ok hlog)

/-- What a result with a listing and phases is. -/
theorem finished_of_listed (hl : l.failed = false) (shown : Text) (phases : List FlowGraph.Phase) :
    (finished j l shown phases).status = .completed ∧ (finished j l shown phases).phases = phases := by
  unfold finished
  rw [hl]
  exact ⟨rfl, rfl⟩

/-- The presentation comes to what `Presented` lists. -/
theorem presented_present (ws : Workshop) (j : Job) (file : Option Text) (l : Listed) (w : World) :
    Presented ws file w ((present ws j file l).perform w).1 ((present ws j file l).perform w).2 := by
  unfold present
  by_cases hfailed : l.failed = true
  · rw [if_pos hfailed, perform_pure]
    refine .unsplit rfl (Nat.le_refl _) fun x hx => ?_
    obtain rfl := Except.ok.inj hx
    unfold finished
    rw [if_pos hfailed]
    exact ⟨rfl, fun hcompleted => by cases hcompleted⟩
  · have hlisted : l.failed = false := Bool.eq_false_iff.2 hfailed
    rw [if_neg hfailed]
    obtain ⟨shown, records, hshown⟩ := Job.perform_shown j l.raw l.shown w
    rw [perform_bind_of_ok hshown]
    cases file with
    | none =>
      refine .unsplit rfl (Nat.le_refl _) fun x hx => ?_
      obtain rfl := Except.ok.inj hx
      exact ⟨(finished_of_listed hlisted shown []).2, fun _ => rfl⟩
    | some file =>
      have hreport : (Job.phases ws (some file)).perform { w with log := records } =
          (Job.splitDump ws (file ++ Job.dumpExtension)).perform
            { w with log := records, progress := "Splitting flow graphs..." :: w.progress } := rfl
      rcases splitDump_eq ws (file ++ Job.dumpExtension)
          { w with log := records, progress := "Splitting flow graphs..." :: w.progress } with
        ⟨f, hrun⟩ | ⟨dump, ⟨g, w₁, hrun, hids, hsplit⟩ | ⟨s, w₁, hrun, hids, hsplit⟩⟩
      · rw [perform_bind_of_error (hreport.trans hrun)]
        exact .unsplit rfl (Nat.le_refl _) fun x hx => by cases hx
      · rw [perform_bind_of_error (hreport.trans hrun)]
        exact .failed hids hsplit
      · rw [perform_bind_of_ok (hreport.trans hrun), perform_pure]
        obtain ⟨hstatus, hphases⟩ := finished_of_listed (j := j) hlisted shown s.phases
        exact .split (Option.some_ne_none file) hids hsplit hstatus hphases

end Presentation

/-! ### The result of a run -/

section Result

/-- A run that fails has no phases, and it does not count as completed. -/
theorem handBack_eq_ok (h : r.handBack ws e = .ok x) :
    e = .ok x ∨ x.phases = [] ∧ x.status ≠ .completed := by
  cases e with
  | ok y => exact Or.inl h
  | error f =>
    refine Or.inr ?_
    cases f with
    | interrupted => cases h
    | _ =>
      cases h
      exact ⟨rfl, by simp⟩

/-- The stages of a run come to what they present, or to the failure of the preparation. -/
theorem performStages_cases (ws : Workshop) (r : Request) (w : World) :
    (∃ f, (r.performStages ws w).1 = .error f ∧
        (r.performStages ws w).2 = ((r.prepare ws).perform { w with toDelete := [] }).2) ∨
      ∃ (j : Job) (file : Option Text) (l : Listed) (w₁ : World),
        (r.prepare ws).perform { w with toDelete := [] } = (.ok (j, file, l), w₁) ∧
        r.performStages ws w = (present ws j file l).perform w₁ := by
  unfold performStages
  rw [stages_eq_prepare]
  rcases h : (r.prepare ws).perform { w with toDelete := [] } with ⟨f | ⟨j, file, l⟩, w₁⟩
  · rw [perform_bind_of_error h]
    exact Or.inl ⟨f, rfl, rfl⟩
  · rw [perform_bind_of_ok h]
    exact Or.inr ⟨j, file, l, w₁, rfl, rfl⟩

end Result

end Request

end JitInspect
