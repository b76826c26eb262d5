import JitInspect.Proofs.FileTree.Walking
import JitInspect.Proofs.Gate.Plans
import JitInspect.Proofs.Run.Temporaries
import Mathlib.Data.Nat.Digits.Defs

/-!
# Cleaning up

However a run ends, it deletes the temporary files that it has created (`run_cleans_up`). It keeps them in
one case only: a tool has failed that publishes a native program (`Job.Retains`). This is so only if the
command of the plan was started; then the file of properties is there, as the tool has left it, and a file
for the listing only if the tool has written one. For the compiler finds no file where it writes the
listing: the file was deleted again, and the file of properties has another name.
-/

namespace JitInspect

/-! ### The names of temporary files -/

section Names

open JitInspect.Action

variable {h : Host} {d d₁ d₂ d₃ : Disk} {k m : ℕ}

/-- What a temporary file is called begins with a letter. -/
theorem Action.temporaryName_eq (n : ℕ) (extension : Text) :
    temporaryStart ++ Text.ofNat n ++ extension =
      'j' :: ("itscope_".toList ++ Text.ofNat n ++ extension) := rfl

/-- The name of a temporary file is not the directory above. -/
theorem Action.temporaryName_ne_dots (n : ℕ) (extension : Text) :
    temporaryStart ++ Text.ofNat n ++ extension ≠ ['.', '.'] := by
  rw [temporaryName_eq]
  intro heq
  exact absurd (List.cons.inj heq).1 (by decide)

theorem Path.isName_temporary (n : ℕ) {extension : Text} (hslash : Path.separator ∉ extension) :
    Path.IsName (temporaryStart ++ Text.ofNat n ++ extension) := by
  refine ⟨?_, ?_, ?_⟩
  · rw [temporaryName_eq]
    exact List.cons_ne_nil _ _
  · rw [temporaryName_eq]
    intro heq
    exact absurd (List.cons.inj heq).1 (by decide)
  · have hstart : Path.separator ∉ temporaryStart := by decide
    have hdigits : Path.separator ∉ Text.ofNat n := fun hmem =>
      absurd (Nat.isDigit_of_mem_toDigits (by decide) (by decide) hmem) (by decide)
    simp only [List.mem_append, not_or]
    exact ⟨⟨hstart, hdigits⟩, hslash⟩

/-- The listing and the properties of a native program are put in different places. -/
theorem Disk.ne_of_locate_temporaryPath {loc place : Location}
    (hloc : d.locate (temporaryPath h k ".asm") false = .ok loc)
    (hplace : d.locate (temporaryPath h m ".props") false = .ok place) : loc ≠ place := by
  have hasm := Disk.getLast?_of_locate (Path.isName_temporary k (by decide))
    (temporaryName_ne_dots _ _) hloc
  have hprops := Disk.getLast?_of_locate (Path.isName_temporary m (by decide))
    (temporaryName_ne_dots _ _) hplace
  rintro rfl
  rw [hasm, Option.some.injEq] at hprops
  have hlast := congrArg List.getLast? hprops
  simp only [List.getLast?_append] at hlast
  exact absurd (Option.some.inj hlast) (by decide)

/-- A file for the listing that was created where nothing was, and deleted again, is not there after
the properties have been written. -/
theorem Disk.holdsFile_listing {content : Bytes} (hasm : d.Vacant (temporaryPath h k ".asm"))
    (hprops : d.Vacant (temporaryPath h m ".props"))
    (hcreated : d.createFile (temporaryPath h k ".asm") = .ok d₁)
    (hcreated₁ : (d₁.without (temporaryPath h k ".asm")).createFile (temporaryPath h m ".props") =
      .ok d₂)
    (hwritten : d₂.writeBytes (temporaryPath h m ".props") content = .ok d₃) :
    d₃.holdsFile (temporaryPath h k ".asm") = false := by
  obtain ⟨loc, hloc, -, -⟩ := Disk.puts_of_createFile hcreated
  obtain ⟨place, hplace, -, -⟩ := Disk.puts_of_createFile hcreated₁
  have hsame := Disk.locate_without_of_puts hasm (Disk.puts_of_createFile hcreated)
  have hfree : (d₁.without (temporaryPath h k ".asm")).FreeAt (temporaryPath h k ".asm") loc :=
    ⟨(hsame _ true).1.trans hloc, ((hsame [] true).2 loc).trans (hasm.freeAt hloc).none⟩
  have hne : loc ≠ place := by
    refine Disk.ne_of_locate_temporaryPath (hasm.locate_false hloc) (hprops.locate_false ?_)
    rw [← (hsame _ true).1, hplace]
  obtain ⟨hfree₁, hplace₁⟩ := hfree.of_puts hplace hne (Disk.puts_of_createFile hcreated₁)
  exact (hfree₁.of_puts hplace₁ hne (Disk.puts_of_writeBytes hwritten)).1.holdsFile

end Names

namespace Job

open JitInspect.Action

variable {ws : Workshop} {j : Job} {n : ℕ} {w w₁ : World} {environment : Variables} {o : Text}

/-! ### A tool that fails -/

section Failing

/-- The process that publishes a native program was the only one, and all that it has left behind is
there, with the file of properties that it was given. The file for the listing was not there before, as
long as the two files could be created where nothing was. -/
structure Retains (ws : Workshop) (j : Job) (w : World) (p : Process) (w₁ : World) : Prop where
  starts : w.Starts [p] w₁
  disk : w₁.disk = p.left
  temporaries : w₁.temporaries = w.temporaries + 2
  properties : p.disk.holdsFile (j.nativeProperties ws w.temporaries) = true
  listing : w.disk.Vacant (j.nativeFile ws w.temporaries) →
    w.disk.Vacant (j.nativeProperties ws w.temporaries) →
    p.disk.holdsFile (j.nativeFile ws w.temporaries) = false

/-- A plan whose command was not started fails, but no tool does. -/
theorem startPlan_ran {inputs : PlanInputs} {e : Except Failure Printed}
    (hrun : (j.startPlan ws inputs).perform w = (e, w₁)) (he : ∀ f, e = .error f → ∃ o, f = .tool o) :
    ∃ p, w.Starts [p] w₁ ∧ p.disk = w.disk ∧ w₁.disk = p.left := by
  unfold startPlan at hrun
  rcases hlift : (lift Failure.ofPlan (j.strategy.plan ws.host inputs)).perform w with ⟨f | plan, w₂⟩
  · rw [perform_bind_of_error hlift] at hrun
    cases hrun
    obtain ⟨o, rfl⟩ := he _ rfl
    rw [perform_lift] at hlift
    cases hplan : j.strategy.plan ws.host inputs with
    | ok plan =>
      rw [hplan] at hlift
      cases hlift
    | error g =>
      rw [hplan] at hlift
      cases g <;> cases hlift
  · obtain ⟨-, rfl⟩ := perform_lift_eq_ok.1 hlift
    rw [perform_bind_of_ok hlift, perform_bind_of_ok (perform_report _ _)] at hrun
    generalize hv : ({ w with progress := plan.status :: w.progress } : World) = v at hrun
    have hstart := perform_start_eq plan.command v
    rcases v.after_cases plan.command with ⟨f, -, hafter⟩ | ⟨-, hafter⟩
    · rw [hafter] at hstart
      rw [perform_bind_of_error hstart] at hrun
      cases hrun
      obtain ⟨o, ho⟩ := he _ rfl
      cases ho
    · have hw₁ : w₁ = v.ran plan.command := by
        rw [hafter] at hstart
        cases hending : v.nextOutcome.ending with
        | error f =>
          rw [hending] at hstart
          rw [perform_bind_of_error hstart] at hrun
          exact (congrArg Prod.snd hrun).symm
        | ok printed =>
          rw [hending] at hstart
          rw [perform_bind_of_ok hstart, perform_bind, perform_checkpoint] at hrun
          cases hc : (v.ran plan.command).isCancelled <;> rw [hc] at hrun <;>
            exact (congrArg Prod.snd hrun).symm
      have hquiet : w.Starts [] v := by
        subst hv
        exact .of_same rfl rfl rfl
      subst hw₁
      exact ⟨v.next plan.command, hquiet.trans (.ran v plan.command), by subst hv; rfl, rfl⟩

/-- A tool that fails after the files were reserved is the command of the plan. -/
theorem publishNative_tool {file properties : Text}
    (hrun : (j.publishNative ws environment file properties).perform w = (.error (.tool o), w₁)) :
    ∃ p content, w.disk.writeBytes properties content = .ok p.disk ∧ w.Starts [p] w₁ ∧
      w₁.disk = p.left := by
  unfold publishNative at hrun
  simp only at hrun
  generalize Knobs.set environment (ws.host.defaults.knobStart ++ "JitStdOutFile") file = variables₁
    at hrun
  have hwrite := perform_writeText properties (Knobs.nativeProperties ws.host variables₁) w
  cases hwritten : w.disk.writeBytes properties
      (Text.toUtf8 (Knobs.nativeProperties ws.host variables₁)) with
  | error f =>
    rw [hwritten] at hwrite
    rw [perform_bind_of_error hwrite] at hrun
    cases hrun
  | ok d =>
    rw [hwritten] at hwrite
    rw [perform_bind_of_ok hwrite] at hrun
    have hplanned : ∃ e, (j.startPlan ws (j.planInputs variables₁
        (some (Path.ofText properties)))).perform { w with disk := d } = (e, w₁) ∧
        ∀ f, e = .error f → ∃ o, f = .tool o := by
      rcases hplan : (j.startPlan ws (j.planInputs variables₁
        (some (Path.ofText properties)))).perform { w with disk := d } with ⟨f | printed, w₂⟩
      · rw [perform_bind_of_error hplan] at hrun
        cases hrun
        exact ⟨_, rfl, fun f hf => ⟨o, (Except.error.inj hf).symm⟩⟩
      · rw [perform_bind_of_ok hplan] at hrun
        refine ⟨.ok printed, ?_, fun f hf => by cases hf⟩
        rw [← perform_nativeListing_snd file printed w₂, hrun]
    obtain ⟨e, hplan, he⟩ := hplanned
    obtain ⟨p, hp, hdisk, hleft⟩ := startPlan_ran hplan he
    have hquiet : w.Starts [] { w with disk := d } := .of_same rfl rfl rfl
    exact ⟨p, _, hwritten.trans (congrArg Except.ok hdisk.symm), hquiet.trans hp, hleft⟩

/-- Without flow graphs the first temporary file is for the listing. -/
theorem nativeFile_eq (ws : Workshop) (hgraphs : j.settings.flowGraphs = false) :
    j.nativeFile ws n = temporaryPath ws.host (n + 1) ".asm" := by
  simp [nativeFile, behindGraphs, hgraphs]

/-- The second one is for the properties. -/
theorem nativeProperties_eq (ws : Workshop) (hgraphs : j.settings.flowGraphs = false) :
    j.nativeProperties ws n = temporaryPath ws.host (n + 2) ".props" := by
  simp [nativeProperties, behindGraphs, hgraphs]

/-- A native compiler that fails as a tool leaves its files as `Retains` tells. -/
theorem executeNative_tool (hgraphs : j.settings.flowGraphs = false)
    (hrun : (j.executeNative ws environment).perform w = (.error (.tool o), w₁)) :
    ∃ p, j.Retains ws w p w₁ := by
  have hcases := publishes_executeNative ws j environment w
  generalize (j.executeNative ws environment).perform w = run at hcases hrun
  cases hcases with
  | noListing f hfile => cases hrun
  | noProperties d log f hfile hproperties => cases hrun
  | reserved d d₁ log hfile hproperties =>
    obtain ⟨p, content, hwritten, hp, hleft⟩ := publishNative_tool hrun
    have hkept := keepsTemporaries_publishNative ws j environment
      (temporaryPath ws.host (w.temporaries + 1) ".asm")
      (temporaryPath ws.host (w.temporaries + 2) ".props") (publishing ws w d₁ log)
    rw [hrun] at hkept
    have hquiet : w.Starts [] (publishing ws w d₁ log) := .of_same rfl rfl rfl
    refine ⟨p, hquiet.trans hp, hleft, hkept.1, ?_, ?_⟩
    · rw [nativeProperties_eq ws hgraphs]
      exact Disk.holdsFile_eq_true.2 (Disk.isFile_writeBytes hwritten)
    · rw [nativeProperties_eq ws hgraphs, nativeFile_eq ws hgraphs]
      exact fun hasm hprops => Disk.holdsFile_listing hasm hprops hfile hproperties hwritten

/-- Without flow graphs a run whose execution came to its end is not ended by a tool. -/
theorem present_ne_tool (l : Listed) : ((Request.present ws j none l).perform w).1 ≠ .error (.tool o) := by
  unfold Request.present
  by_cases hfailed : l.failed = true
  · rw [if_pos hfailed]
    exact fun h => by cases h
  · obtain ⟨t, records, hshown⟩ := perform_shown j l.raw l.shown w
    rw [if_neg hfailed, perform_bind_of_ok hshown]
    exact fun h => by cases h

theorem list_tool (hroute : j.strategy.route = .nativePublish) (hgraphs : j.settings.flowGraphs = false)
    (hrun : (Request.list ws j).perform w = (.error (.tool o), w₁)) : ∃ p, j.Retains ws w p w₁ := by
  have hfile : (j.flowGraphFile ws).perform w = (.ok none, w) := by
    simp [flowGraphFile, hgraphs]
  unfold Request.list at hrun
  rw [perform_bind_of_ok hfile] at hrun
  unfold execute at hrun
  simp only [hroute, if_true] at hrun
  generalize Knobs.environment ws.host j.strategy j.info j.settings j.layout none = environment at hrun
  rcases hexecute : (j.executeNative ws environment).perform w with ⟨f | l, w₂⟩
  · rw [perform_bind_of_error hexecute] at hrun
    cases hrun
    exact executeNative_tool hgraphs hexecute
  · rw [perform_bind_of_ok hexecute, perform_bind, perform_checkpoint] at hrun
    cases hc : w₂.isCancelled with
    | true =>
      rw [hc] at hrun
      cases hrun
    | false =>
      rw [hc] at hrun
      exact absurd (congrArg Prod.fst hrun) (present_ne_tool l)

end Failing

end Job

/-! ### Runs -/

/-- What a run has left of the files of its execution, when there were so many temporary files before:
of those that it has begun none is there. Nor is the dump of the flow graphs, unless the file beside it
could not be created, so that nothing was executed. -/
structure Job.CleansUp (ws : Workshop) (j : Job) (n : ℕ) (w : World) : Prop where
  number : w.temporaries ≤ j.filesBefore n + (j.executionFiles ws (j.filesBefore n)).length
  files : ∀ file ∈ (j.executionFiles ws (j.filesBefore n)).take (w.temporaries - j.filesBefore n),
    w.disk.holdsFile file = false
  dump : ∀ file, j.graphFile ws (j.filesBefore n) = some file → j.filesBefore n < w.temporaries →
    w.disk.holdsFile (file ++ Job.dumpExtension) = false ∨ ∃ f, w.disk.createFile file = .error f

namespace Request

open JitInspect.Action

variable {ws : Workshop} {r : Request} {w : World} {j : Job}

/-- A run that builds its project comes by a world in which the file for the build is gone again. Its
stages end there, or they go on from there, and the clean-up behind them does not bring the file back. -/
structure PassesBuild (ws : Workshop) (r : Request) (j : Job) (w v : World) : Prop where
  temporaries : v.temporaries = w.temporaries + 1
  gone : v.disk.holdsFile (temporaryPath ws.host (w.temporaries + 1) ".props") = false
  stages : (∃ f, r.performStages ws w = (.error f, v)) ∨
    ∃ printed, r.performStages ws w = (behindBuild ws j printed).perform v
  remains : (r.performStages ws w).2.disk.holdsFile
      (temporaryPath ws.host (w.temporaries + 1) ".props") = false →
    ((r.run ws).perform w).2.disk.holdsFile
      (temporaryPath ws.host (w.temporaries + 1) ".props") = false

/-- A run ends with its build, with the file for the build created, or it comes to its last part, with
no file set down for deletion. -/
theorem stages_reach (hjob : ((r.toJob ws).perform w).1 = .ok j) :
    (j.strategy.route ≠ .nativePublish ∧
        (r.performStages ws w).2.temporaries = j.filesBefore w.temporaries) ∨
      ∃ v, v.temporaries = j.filesBefore w.temporaries ∧ v.toDelete = [] ∧
        r.performStages ws w = (list ws j).perform v ∧
        (j.strategy.route = .nativePublish → v = { w with toDelete := [] }) := by
  rw [performStages_eq_work hjob]
  unfold work
  by_cases hbuild : j.strategy.route.needsBuild = true
  · have hroute : j.strategy.route ≠ .nativePublish := of_decide_eq_true hbuild
    rw [if_pos hbuild, Job.filesBefore_of_ne hroute]
    obtain ⟨hcount, hset⟩ := j.build_leaves ws { w with toDelete := [] }
    rcases hrun : (j.build ws).perform { w with toDelete := [] } with ⟨f | x, u⟩
    · rw [hrun] at hcount
      rw [perform_bind_of_error hrun]
      exact Or.inl ⟨hroute, hcount⟩
    · rw [hrun] at hcount hset
      rw [perform_bind_of_ok hrun]
      cases hcu : u.isCancelled with
      | true =>
        rw [perform_bind_of_error (perform_checkpoint_of_isCancelled hcu)]
        exact Or.inl ⟨hroute, hcount⟩
      | false =>
        rw [perform_bind_of_ok (perform_checkpoint_of_not_isCancelled hcu)]
        exact Or.inr ⟨u, hcount, hset, rfl, fun h => absurd h hroute⟩
  · rw [if_neg hbuild]
    refine Or.inr ⟨{ w with toDelete := [] }, ?_, rfl, rfl, fun _ => rfl⟩
    rw [Job.filesBefore, if_neg hbuild]

/-- Only the word for publishing a native program says that this is done. -/
theorem key_eq_nativePublish {route : Route} :
    route.key = Route.nativePublish.key ↔ route = .nativePublish := by
  refine ⟨fun h => ?_, fun h => congrArg Route.key h⟩
  cases route <;> first
    | rfl
    | exact absurd (congrArg List.length h) (by dsimp only [Route.key]; decide)

/-- Whether the files are kept is decided by the failure and by the route of the job. -/
theorem keepsFiles_eq (hjob : ((r.toJob ws).perform w).1 = .ok j) (f : Failure) :
    r.keepsFiles ws f = true ↔ (∃ o, f = .tool o) ∧ j.strategy.route = .nativePublish := by
  have hkey : r.strategyKey ws = some j.strategy.route.key := by
    rw [strategyKey, (toJob_eq_ok hjob).1]
    rfl
  cases f with
  | tool o =>
    unfold keepsFiles
    rw [decide_eq_true_iff, hkey, Option.some.injEq, key_eq_nativePublish]
    exact ⟨fun h => ⟨⟨o, rfl⟩, h⟩, And.right⟩
  | _ => simp [keepsFiles]

/-- A run whose files are not kept deletes those that are set down. -/
theorem run_of_not_keeps (hjob : ((r.toJob ws).perform w).1 = .ok j)
    (hnot : ∀ o, j.strategy.route = .nativePublish → (r.performStages ws w).1 ≠ .error (.tool o)) :
    ∃ log, ((r.run ws).perform w).2 = { (r.performStages ws w).2 with
      disk := (r.performStages ws w).2.disk.withoutAll (r.performStages ws w).2.toDelete, log } := by
  obtain ⟨log, hclean⟩ := perform_cleanUp (r.performStages ws w).2
  refine ⟨log, ?_⟩
  rw [perform_run_eq]
  have hafter : r.cleanUpAfter ws (r.performStages ws w).1 = cleanUp := by
    cases hstages : (r.performStages ws w).1 with
    | ok x => rfl
    | error f =>
      refine if_neg fun hkeeps => ?_
      obtain ⟨⟨o, rfl⟩, hroute⟩ := (keepsFiles_eq hjob f).1 hkeeps
      exact hnot o hroute hstages
  rw [hafter, hclean]

/-- A job that is built either fails there or passes. -/
theorem exists_passesBuild (hjob : ((r.toJob ws).perform w).1 = .ok j)
    (hbuild : j.strategy.route.needsBuild = true) : ∃ v, r.PassesBuild ws j w v := by
  obtain ⟨t, hstages⟩ := performStages_of_build hjob hbuild
  obtain ⟨hcount, -, hgone⟩ :=
    Job.startBuild_leaves ws.host j { w with toDelete := [], progress := t :: w.progress }
  refine ⟨_, hcount, hgone, ?_, fun hnone => ?_⟩
  · rw [hstages]
    rcases hrun : (j.startBuild ws.host).perform { w with toDelete := [], progress := t :: w.progress }
      with ⟨f | printed, v⟩
    · exact Or.inl ⟨f, perform_bind_of_error hrun⟩
    · exact Or.inr ⟨printed, perform_bind_of_ok hrun⟩
  · have hroute : j.strategy.route ≠ .nativePublish := of_decide_eq_true hbuild
    obtain ⟨log, hrun⟩ := run_of_not_keeps hjob fun o h => absurd h hroute
    rw [hrun]
    exact Disk.holdsFile_withoutAll_of_not hnone

/-- A run whose files are kept leaves everything as it is behind its stages. -/
theorem run_of_keeps {o : Text} (hjob : ((r.toJob ws).perform w).1 = .ok j)
    (hroute : j.strategy.route = .nativePublish)
    (hstages : (r.performStages ws w).1 = .error (.tool o)) :
    ((r.run ws).perform w).2 = (r.performStages ws w).2 := by
  have hafter : r.cleanUpAfter ws (r.performStages ws w).1 = pure () := by
    rw [hstages]
    exact if_pos ((keepsFiles_eq hjob (.tool o)).2 ⟨⟨o, rfl⟩, hroute⟩)
  rw [perform_run_eq, hafter]
  rfl

/-- Cleaning up creates no temporary file. -/
theorem keepsTemporaries_cleanUpAfter (ws : Workshop) (r : Request) (e : Except Failure RunResult) :
    KeepsTemporaries (r.cleanUpAfter ws e) := by
  have hclean : KeepsTemporaries cleanUp := Keeps.get.bind fun _ => Keeps.forM _ Keeps.delete
  cases e with
  | ok x => exact hclean
  | error f => exact Keeps.ite (Keeps.pure _) hclean

/-- The only failure that a run hands back is that the user has interrupted it. -/
theorem eq_interrupted_of_handBack {e : Except Failure RunResult} {f : Failure}
    (h : r.handBack ws e = .error f) : f = .interrupted := by
  cases e with
  | ok x => cases h
  | error g =>
    cases g with
    | interrupted =>
      cases h
      rfl
    | _ => cases h

/-- A tool that ends a run that publishes a native program is the command of its plan. -/
theorem retains_of_keeps {o : Text} (hjob : ((r.toJob ws).perform w).1 = .ok j)
    (hroute : j.strategy.route = .nativePublish)
    (hstages : (r.performStages ws w).1 = .error (.tool o)) :
    ∃ p, j.Retains ws w p ((r.run ws).perform w).2 := by
  obtain ⟨hselect, hgate, -, hsettings⟩ := toJob_eq_ok hjob
  have hgraphs : j.settings.flowGraphs = false := by
    have hchosen := Strategy.chosenBy_of_select hselect
    rw [hroute] at hchosen
    rw [hsettings]
    exact (Gate.passes_of_check hgate).flowGraphs (by simp [Settings.isAot, hchosen.1])
  rw [run_of_keeps hjob hroute hstages]
  rcases stages_reach hjob with ⟨hnot, -⟩ | ⟨v, -, -, hlist, hv⟩
  · exact absurd hroute hnot
  · obtain rfl := hv hroute
    obtain ⟨p, hp⟩ := Job.list_tool hroute hgraphs (Prod.ext (hlist ▸ hstages) rfl)
    rw [← hlist] at hp
    have hquiet : w.Starts [] { w with toDelete := [] } := .of_same rfl rfl rfl
    exact ⟨p, hquiet.trans hp.starts, hp.disk, hp.temporaries, hp.properties, hp.listing⟩

/-- The clean-up deletes the files of the execution. -/
theorem cleansUp_of_not_keeps (hjob : ((r.toJob ws).perform w).1 = .ok j)
    (hnot : ∀ o, j.strategy.route = .nativePublish → (r.performStages ws w).1 ≠ .error (.tool o)) :
    j.CleansUp ws w.temporaries ((r.run ws).perform w).2 := by
  obtain ⟨log, hrun⟩ := run_of_not_keeps hjob hnot
  rw [hrun]
  rcases stages_reach hjob with ⟨-, hearly⟩ | ⟨v, hcount, hset, hlist, -⟩
  · have hle := Nat.le_of_eq hearly
    refine ⟨Nat.le_trans hle (Nat.le_add_right _ _), fun file hmem => ?_, fun file _ hlt => ?_⟩
    · rw [Nat.sub_eq_zero_of_le hle] at hmem
      cases hmem
    · exact absurd hlt (Nat.not_lt_of_le hle)
  · have haccounts := (Job.accountsFor_list ws j v).1
    rw [← hlist, hcount] at haccounts
    have hgone : ∀ file, file ∈ (r.performStages ws w).2.toDelete ∨
        (r.performStages ws w).2.disk.holdsFile file = false →
        ((r.performStages ws w).2.disk.withoutAll (r.performStages ws w).2.toDelete).holdsFile file =
          false := by
      rintro file (hmem | hnone)
      · exact Disk.holdsFile_withoutAll hmem
      · exact Disk.holdsFile_withoutAll_of_not hnone
    refine ⟨?_, fun file hmem => ?_, fun file hfile _ => ?_⟩
    · have hle := haccounts.le_add
      rwa [hcount] at hle
    · refine hgone file (haccounts.begun file ?_)
      rwa [hcount]
    · rw [← hcount] at hfile
      rcases Job.list_dump hfile with hmem | ⟨f, hrefused, hsame⟩
      · rw [← hlist] at hmem
        exact Or.inl (hgone _ (Or.inl hmem))
      · rw [← hlist] at hsame
        refine Or.inr ⟨f, ?_⟩
        rw [hsame]
        change (v.disk.withoutAll v.toDelete).createFile file = .error f
        rw [hset]
        exact hrefused

end Request

/-- A run cleans up behind itself. It has a result unless the user interrupts a command of it. However
it ends, the file for the build is deleted as soon as the build has ended, and in the end the other
temporary files are gone as well. They are kept in one case only: a tool has failed that publishes a
native program. Then the file of properties is there, as the tool has left it, and a file for the listing
only if the tool has written it. -/
theorem run_cleans_up (ws : Workshop) (r : Request) (w : World) :
    (∀ f, ((r.run ws).perform w).1 = .error f →
        f = .interrupted ∧ ∃ o ∈ w.outcomes, o.ending = .error .interrupted) ∧
      (∀ f, ((r.toJob ws).perform w).1 = .error f →
        ((r.run ws).perform w).2.temporaries = w.temporaries) ∧
      ∀ j, ((r.toJob ws).perform w).1 = .ok j →
        (j.strategy.route.needsBuild → ∃ v, r.PassesBuild ws j w v) ∧
        (∀ o, j.strategy.route = .nativePublish → (r.performStages ws w).1 = .error (.tool o) →
          ∃ p, j.Retains ws w p ((r.run ws).perform w).2) ∧
        ((∀ o, j.strategy.route = .nativePublish → (r.performStages ws w).1 ≠ .error (.tool o)) →
          j.CleansUp ws w.temporaries ((r.run ws).perform w).2) := by
  refine ⟨fun f hf => ?_, fun f hf => ?_, fun j hjob =>
    ⟨Request.exists_passesBuild hjob, fun o => Request.retains_of_keeps hjob,
      Request.cleansUp_of_not_keeps hjob⟩⟩
  · rw [Request.perform_run_eq] at hf
    refine ⟨Request.eq_interrupted_of_handBack hf, ?_⟩
    by_contra hnone
    obtain ⟨x, hx⟩ := r.run_returns_of_undisturbed ws (fun o ho ho₁ => hnone ⟨o, ho, ho₁⟩)
    rw [hx] at hf
    cases hf
  · rw [Request.perform_run_eq, Request.performStages_of_toJob_error hf]
    exact (r.keepsTemporaries_cleanUpAfter ws _ _).1

/-! ### A native program that cannot be published -/

section Sample

/-- A request for the listing of a native program. -/
def Request.nativeSample : Request :=
  { Request.sample with settings := { compiler := .nativeAot } }

/-- A world in which the first command writes a listing and fails. -/
def World.failing : World :=
  World.sample [{
    effect := fun _ => Disk.single fun d => d.writeBytes "/tmp/jitscope_1.asm" []
    ending := .error (.tool "error") }]

/-- A native compilation that fails: the compiler has written the listing, and the run has not deleted
it. -/
theorem run_cleans_up_failing :
    ∃ j p, ((Request.nativeSample.toJob .sample).perform .failing).1 = .ok j ∧
      j.Retains .sample .failing p ((Request.nativeSample.run .sample).perform .failing).2 ∧
      p.disk.holdsFile (j.nativeFile .sample 0) = false ∧
      p.left.holdsFile (j.nativeFile .sample 0) = true := by
  have hmade : ((Request.nativeSample.toJob .sample).perform .failing).1.toOption.isSome = true := by
    decide +kernel
  have hstages : (Request.nativeSample.performStages .sample .failing).1 = .error (.tool "error") := by
    decide +kernel
  have hvacant : ∀ n : Text, World.failing.disk.locate ("/tmp/" ++ n) false = .ok ["tmp", n] →
      World.failing.disk.tree.get? ["tmp", n] = none → World.failing.disk.Vacant ("/tmp/" ++ n) := by
    intro n hlocate hnone loc hloc
    rw [hlocate] at hloc
    cases hloc
    exact hnone
  have hlisting : World.failing.disk.Vacant "/tmp/jitscope_1.asm" :=
    hvacant "jitscope_1.asm" rfl (by decide)
  have hproperties : World.failing.disk.Vacant "/tmp/jitscope_2.props" :=
    hvacant "jitscope_2.props" rfl (by decide)
  have hwritten : ((Request.nativeSample.run .sample).perform .failing).2.disk.holdsFile
      "/tmp/jitscope_1.asm" = true := by
    decide +kernel
  cases hjob : ((Request.nativeSample.toJob .sample).perform .failing).1 with
  | error f =>
    rw [hjob] at hmade
    cases hmade
  | ok j =>
    have hgraphs : j.settings.flowGraphs = false := by
      rw [(Request.toJob_eq_ok hjob).2.2.2]
      rfl
    have hroute : j.strategy.route = .nativePublish := by
      have hselect : Strategy.select {} Request.nativeSample.settings = .ok ⟨.nativePublish, .disasm⟩ :=
        rfl
      exact congrArg Strategy.route
        (Except.ok.inj ((Request.toJob_eq_ok hjob).1.symm.trans hselect))
    obtain ⟨p, hp⟩ := ((run_cleans_up .sample .nativeSample .failing).2.2 j hjob).2.1 _ hroute hstages
    have hfile : j.nativeFile .sample 0 = "/tmp/jitscope_1.asm" := Job.nativeFile_eq _ hgraphs
    have hprops : j.nativeProperties .sample 0 = "/tmp/jitscope_2.props" :=
      Job.nativeProperties_eq _ hgraphs
    refine ⟨j, p, rfl, hp, hp.listing ?_ ?_, ?_⟩
    · rw [show World.failing.temporaries = 0 from rfl, hfile]
      exact hlisting
    · rw [show World.failing.temporaries = 0 from rfl, hprops]
      exact hproperties
    · rw [hfile, ← hp.disk, hwritten]

end Sample

end JitInspect
