import JitInspect.Proofs.Run.Frame

/-!
# Cancellation

A run shares one token with all of its processes. The main statement, `run_of_isCancelled`, says
what becomes of a run whose token is cancelled before it begins or while one of its processes runs:
no further process is started, and the run ends as cancelled and says nothing else, whatever the
process has printed or left on the disk. Only a run that does not pass the gates fails instead, and
such a run starts nothing at all.

The proof follows the run from step to step. A step heeds the token (`Action.Heeds`) if the last
process that it starts is the only one that may cancel the token, and if the step then ends as
cancelled. Sequences of such steps heed the token, quiet steps do, and so does a step that starts a
single command with a checkpoint behind it.
-/

namespace JitInspect

/-- The failure that ends a run whose token is cancelled. -/
def Failure.atCheckpoint : Failure := .cancelled Failure.cancelledMessage

namespace Action

variable {α β : Type}

/-! ### Steps that heed the token -/

section Heeding

/-- A step that begins with a token that is not cancelled ends with such a token, or the last of its
processes has cancelled the token and the step ends as cancelled. -/
def Heeds (a : Action α) : Prop :=
  ∀ w, w.AllReturn → w.isCancelled = false →
    ∃ ps, w.Starts ps (a.perform w).2 ∧
      ((a.perform w).2.isCancelled = false ∨
        ps.dropLast.any Process.cancels = false ∧ (a.perform w).1 = .error Failure.atCheckpoint)

/-- A step that starts nothing heeds the token. -/
theorem Keeps.heeds {a : Action α} (h : Quiet a) : Heeds a := by
  intro w _ hc
  refine ⟨[], h w, Or.inl ?_⟩
  rw [(h w).isCancelled_of_nil, hc]

/-- Behind a step that ended well the token is not cancelled, so that the next one may follow. -/
theorem Heeds.bind {a : Action α} {g : α → Action β} (ha : Heeds a) (hg : ∀ x, Heeds (g x)) :
    Heeds (a >>= g) := by
  intro w hw hc
  obtain ⟨ps, hps, hend⟩ := ha w hw hc
  rcases hrun : a.perform w with ⟨f | x, w₁⟩
  · rw [perform_bind_of_error hrun]
    rw [hrun] at hps hend
    refine ⟨ps, hps, ?_⟩
    rcases hend with hend | ⟨hlast, hf⟩
    · exact Or.inl hend
    · cases hf
      exact Or.inr ⟨hlast, rfl⟩
  · rw [perform_bind_of_ok hrun]
    rw [hrun] at hps hend
    have hc₁ : w₁.isCancelled = false := by
      rcases hend with hend | ⟨-, hf⟩
      · exact hend
      · cases hf
    obtain ⟨qs, hqs, hend₁⟩ := hg x w₁ (hps.allReturn hw) hc₁
    refine ⟨ps ++ qs, hps.trans hqs, ?_⟩
    rcases hend₁ with hend₁ | ⟨hlast, hf⟩
    · exact Or.inl hend₁
    by_cases hq : qs = []
    · subst hq
      rw [hqs.isCancelled_of_nil]
      exact Or.inl hc₁
    · cases hcan : ((g x).perform w₁).2.isCancelled with
      | false => exact Or.inl rfl
      | true =>
        refine Or.inr ⟨?_, hf⟩
        -- The token is there, as it is cancelled in the end; so none of the first processes did it.
        have htoken : w.token.isSome = true := by
          rw [(hps.trans hqs).isCancelled_eq, hc, Bool.false_or, Bool.and_eq_true] at hcan
          exact hcan.1
        have hfirst : ps.any Process.cancels = false := by
          rw [hps.isCancelled_eq, hc, htoken] at hc₁
          simpa using hc₁
        rw [List.dropLast_append_of_ne_nil hq, List.any_append, hfirst, hlast]
        rfl

/-- A choice between actions that heed the token heeds it. -/
theorem Heeds.ite {c : Prop} [Decidable c] {a b : Action α} (ha : Heeds a) (hb : Heeds b) :
    Heeds (if c then a else b) := by
  by_cases hc : c
  · rwa [if_pos hc]
  · rwa [if_neg hc]

end Heeding

/-! ### Steps that start a single command -/

section Single

/-- The step starts at most one command, and if it starts one it ends well. -/
def StartsOne (a : Action α) : Prop :=
  ∀ w, w.AllReturn → w.Starts [] (a.perform w).2 ∨
    ∃ p x, w.Starts [p] (a.perform w).2 ∧ (a.perform w).1 = .ok x

/-- A command is one command. -/
theorem startsOne_start (c : Command) : StartsOne (start c) := by
  intro w hw
  rw [perform_start c hw]
  exact Or.inr ⟨w.next c, _, World.Starts.ran w c, rfl⟩

/-- Where the first part is quiet, the second may start a command. -/
theorem Keeps.bind_startsOne {a : Action α} {g : α → Action β} (ha : Quiet a)
    (hg : ∀ x, StartsOne (g x)) : StartsOne (a >>= g) := by
  intro w hw
  have hquiet := ha w
  rcases hrun : a.perform w with ⟨f | x, w₁⟩
  · rw [hrun] at hquiet
    rw [perform_bind_of_error hrun]
    exact Or.inl hquiet
  · rw [hrun] at hquiet
    rw [perform_bind_of_ok hrun]
    rcases hg x w₁ (hquiet.allReturn hw) with hnone | ⟨p, y, hone, hy⟩
    · exact Or.inl (hquiet.trans hnone)
    · exact Or.inr ⟨p, y, hquiet.trans hone, hy⟩

/-- Deleting a file behind the step changes nothing about what it starts. -/
theorem StartsOne.thenDelete {a : Action α} (ha : StartsOne a) (file : Text) :
    StartsOne (a.thenAlways (delete file)) := by
  intro w hw
  obtain ⟨log, hdelete⟩ := perform_delete file (a.perform w).2
  have hquiet : Quiet (delete file) := Keeps.delete file
  have hkept := hquiet (a.perform w).2
  rw [hdelete] at hkept
  rw [perform_thenAlways a hdelete]
  rcases ha w hw with hnone | ⟨p, x, hone, hx⟩
  · exact Or.inl (hnone.trans hkept)
  · exact Or.inr ⟨p, x, hone.trans hkept, hx⟩

/-- With a checkpoint behind it a step that starts a single command heeds the token. -/
theorem StartsOne.heeds {a : Action α} (ha : StartsOne a) :
    Heeds (do
      let x ← a
      Action.checkpoint
      pure x) := by
  intro w hw hc
  rcases hrun : a.perform w with ⟨f | x, w₁⟩
  · rw [perform_bind_of_error hrun]
    rcases ha w hw with hnone | ⟨p, x, -, hx⟩
    · rw [hrun] at hnone
      refine ⟨[], hnone, Or.inl ?_⟩
      rw [hnone.isCancelled_of_nil, hc]
    · rw [hrun] at hx
      cases hx
  · have hstarts : ∃ ps, w.Starts ps w₁ ∧ ps.dropLast = [] := by
      rcases ha w hw with hnone | ⟨p, y, hone, -⟩
      · rw [hrun] at hnone
        exact ⟨[], hnone, rfl⟩
      · rw [hrun] at hone
        exact ⟨[p], hone, rfl⟩
    obtain ⟨ps, hps, hlast⟩ := hstarts
    rw [perform_bind_of_ok hrun]
    cases hc₁ : w₁.isCancelled with
    | true =>
      rw [perform_bind_of_error (perform_checkpoint_of_isCancelled hc₁)]
      refine ⟨ps, hps, Or.inr ⟨?_, rfl⟩⟩
      rw [hlast]
      rfl
    | false =>
      rw [perform_bind_of_ok (perform_checkpoint_of_not_isCancelled hc₁)]
      exact ⟨ps, hps, Or.inl hc₁⟩

/-- What follows behind the checkpoint has to heed the token as well. -/
theorem StartsOne.bind_checkpoint {a : Action α} {g : α → Action β} (ha : StartsOne a)
    (hg : ∀ x, Heeds (g x)) :
    Heeds (do
      let x ← a
      Action.checkpoint
      g x) := by
  have h := ha.heeds.bind hg
  simpa only [bind_assoc, pure_bind] using h

end Single

end Action

/-! ### The steps of a run -/

section Steps

open JitInspect.Action

/-- The question for the version is followed by a checkpoint. -/
theorem LoaderCache.heeds_folder (c : LoaderCache) (framework : Text) :
    Heeds (c.folder framework) := by
  unfold LoaderCache.folder
  refine (startsOne_start _).bind_checkpoint fun printed => Keeps.heeds ?_
  by_cases h : isVersion (Text.strip printed.output) = true
  · simp only [h, if_true]
    exact Keeps.pure _
  · simp only [h]
    exact Keeps.identifier.bind fun _ => Keeps.pure _

theorem LoaderCache.heeds_build (c : LoaderCache) (folder : Path) (framework : Text) :
    Heeds (c.build folder framework) := by
  refine (Keeps.change _).heeds.bind fun _ => (keeps_writeOnce _ _).heeds.bind fun _ =>
    (keeps_writeOnce _ _).heeds.bind fun _ => Keeps.checkpoint.heeds.bind fun _ =>
    (startsOne_start _).bind_checkpoint fun printed => Keeps.heeds ?_
  exact (Keeps.ask _).bind fun _ => Keeps.ite (Keeps.pure _) (Keeps.throw _)

/-- Supplying a loader heeds the token in both of its commands. -/
theorem LoaderCache.heeds_supply (c : LoaderCache) (framework : Text) (destination : Path) :
    Heeds (c.supply framework destination) := by
  refine (Keeps.report _).heeds.bind fun _ => (c.heeds_folder framework).bind fun folder => ?_
  have hbuild : Heeds (c.buildOnce folder framework) :=
    (Keeps.ask _).heeds.bind fun _ => Heeds.ite (Keeps.pure _).heeds
      ((Keeps.report _).heeds.bind fun _ => c.heeds_build folder framework)
  exact hbuild.bind fun _ => Keeps.checkpoint.heeds.bind fun _ => (keeps_copyTo _ _).heeds

theorem LoaderCache.heeds_ensure (c : LoaderCache) (framework : Text) (destination : Path) :
    Heeds (c.ensure framework destination) :=
  (Keeps.ask _).heeds.bind fun _ => Heeds.ite (Keeps.throw _).heeds
    ((Keeps.ask _).heeds.bind fun _ => Heeds.ite (Keeps.pure _).heeds
      (c.heeds_supply framework destination))

/-- A build is one command, with a temporary file around it. -/
theorem Job.startsOne_startBuild (h : Host) (j : Job) : StartsOne (j.startBuild h) := by
  refine (quiet_temporaryFile _ _).bind_startsOne fun properties => StartsOne.thenDelete ?_ _
  exact (Keeps.writeText _ _).bind_startsOne fun _ => startsOne_start _

/-- It is followed by a checkpoint, as is the supply of the loader. -/
theorem Job.heeds_build (w : Workshop) (j : Job) : Heeds (j.build w) := by
  refine (Keeps.report _).heeds.bind fun _ =>
    (j.startsOne_startBuild w.host).bind_checkpoint fun printed => ?_
  cases Job.buildErrors? printed with
  | some errors => exact (Keeps.throw _).heeds
  | none =>
    exact j.keeps_overlay.heeds.bind fun _ =>
      Heeds.ite (w.loaders.heeds_ensure _ _) (Keeps.pure _).heeds

/-- A plan is one command that a checkpoint follows. -/
theorem Job.heeds_startPlan (w : Workshop) (j : Job) (inputs : PlanInputs) :
    Heeds (j.startPlan w inputs) :=
  (Keeps.lift _ _).heeds.bind fun _ => (Keeps.report _).heeds.bind fun _ => (startsOne_start _).heeds

/-- Native compilers are run in this way too. -/
theorem Job.heeds_executeNative (w : Workshop) (j : Job) (environment : Variables) :
    Heeds (j.executeNative w environment) :=
  (quiet_temporaryFile _ _).heeds.bind fun _ => (Keeps.delete _).heeds.bind fun _ =>
    (quiet_temporaryFile _ _).heeds.bind fun _ => (quiet_deleteLater _).heeds.bind fun _ =>
    (Keeps.writeText _ _).heeds.bind fun _ => (j.heeds_startPlan w _).bind fun _ =>
    (Job.keeps_nativeListing _ _).heeds

theorem Job.heeds_execute (w : Workshop) (j : Job) (file : Option Text) :
    Heeds (j.execute w file) :=
  Heeds.ite (j.heeds_executeNative w _) ((j.heeds_startPlan w _).bind fun _ => (Keeps.pure _).heeds)

/-- What follows upon the build heeds the token. -/
theorem Request.heeds_list (w : Workshop) (j : Job) : Heeds (Request.list w j) :=
  (j.quiet_flowGraphFile w).heeds.bind fun _ => (j.heeds_execute w _).bind fun _ =>
    Keeps.checkpoint.heeds.bind fun _ => (Request.keeps_present w j _ _).heeds

theorem Request.heeds_stages (w : Workshop) (r : Request) : Heeds (r.stages w) :=
  (r.keeps_toJob w).heeds.bind fun j => Keeps.checkpoint.heeds.bind fun _ =>
    Heeds.ite ((j.heeds_build w).bind fun _ => Keeps.checkpoint.heeds.bind fun _ =>
      Request.heeds_list w j) (Request.heeds_list w j)

end Steps

/-! ### Runs -/

namespace Request

open JitInspect.Action

/-- Cleaning up removes the files that are set down for deletion and changes nothing else. -/
theorem perform_cleanUp (w : World) :
    ∃ log, cleanUp.perform w = (.ok (), { w with disk := w.disk.withoutAll w.toDelete, log }) := by
  have hall : ∀ (files : List Text) (w : World), ∃ log, (files.forM delete).perform w =
      (.ok (), { w with disk := w.disk.withoutAll files, log }) := by
    intro files
    induction files with
    | nil => exact fun w => ⟨w.log, rfl⟩
    | cons file files ih =>
      intro w
      obtain ⟨log, hlog⟩ := perform_delete file w
      obtain ⟨log₁, hrest⟩ := ih { w with disk := w.disk.without file, log }
      exact ⟨log₁, (perform_bind_of_ok hlog).trans hrest⟩
  exact hall w.toDelete w

/-- Cleaning up always ends well and starts nothing. -/
theorem perform_cleanUpAfter (ws : Workshop) (r : Request) (v : Except Failure RunResult)
    (w : World) : ∃ w₁, (r.cleanUpAfter ws v).perform w = (.ok (), w₁) ∧ w.Starts [] w₁ := by
  obtain ⟨log, hclean⟩ := perform_cleanUp w
  cases v with
  | ok x => exact ⟨_, hclean, .of_same rfl rfl rfl⟩
  | error f =>
    change ∃ w₁, (if r.keepsFiles ws f then pure () else cleanUp).perform w = (.ok (), w₁) ∧ _
    by_cases hkeep : r.keepsFiles ws f = true
    · rw [if_pos hkeep]
      exact ⟨w, rfl, .refl w⟩
    · rw [if_neg hkeep]
      exact ⟨_, hclean, .of_same rfl rfl rfl⟩

/-- How the stages of a run end, and the world that they leave behind. -/
def performStages (ws : Workshop) (r : Request) (w : World) : Except Failure RunResult × World :=
  (r.stages ws).perform { w with toDelete := [] }

/-- A run cleans up behind its stages and hands back what they came to. -/
theorem perform_run_eq (ws : Workshop) (r : Request) (w : World) :
    (r.run ws).perform w = (r.handBack ws (r.performStages ws w).1,
      ((r.cleanUpAfter ws (r.performStages ws w).1).perform (r.performStages ws w).2).2) := by
  unfold run
  rw [perform_bind_of_ok (perform_modify _ w), perform_bind_of_ok (perform_try _ _)]
  obtain ⟨w₁, hw₁, -⟩ :=
    r.perform_cleanUpAfter ws (r.performStages ws w).1 (r.performStages ws w).2
  rw [hw₁]
  exact (perform_bind_of_ok hw₁).trans (perform_lift_id _ _)

/-- A run hands back what its stages came to; behind them it starts nothing. -/
theorem perform_run (ws : Workshop) (r : Request) (w : World) :
    ∃ w₁, (r.performStages ws w).2.Starts [] w₁ ∧
      (r.run ws).perform w = (r.handBack ws (r.performStages ws w).1, w₁) := by
  obtain ⟨w₁, hw₁, hquiet⟩ :=
    r.perform_cleanUpAfter ws (r.performStages ws w).1 (r.performStages ws w).2
  refine ⟨w₁, hquiet, ?_⟩
  rw [perform_run_eq, hw₁]

/-- Passing the gates changes nothing, and the files to delete do not matter to it. -/
theorem perform_pass (ws : Workshop) (r : Request) (w : World) :
    (r.pass ws).perform w = (((r.pass ws).perform { w with toDelete := [] }).1, w) := by
  unfold pass
  simp only [perform_bind, perform_lift, perform_get]
  cases Strategy.select ws.host r.settings with
  | error f => rfl
  | ok strategy =>
    simp only [Except.mapError]
    cases Gate.check ws.host w.disk r.symbol (r.symbol.bind fun s => s.info.toOption) r.settings
      strategy.route with
    | error f => rfl
    | ok layout => cases r.symbol.bind fun s => s.info.toOption <;> rfl

/-- Who passes the gates has options that choose the strategy, and is handed the layout that the gates
have found. -/
theorem pass_eq_ok {ws : Workshop} {r : Request} {w w₁ : World} {strategy : Strategy}
    {info : SymbolInfo} {layout : RuntimeLayout}
    (h : (r.pass ws).perform w = (.ok (strategy, info, layout), w₁)) :
    Strategy.select ws.host r.settings = .ok strategy ∧
      Gate.check ws.host w.disk r.symbol (r.symbol.bind fun s => s.info.toOption) r.settings
        strategy.route = .ok layout ∧ w = w₁ := by
  unfold pass at h
  simp only [perform_bind, perform_lift, perform_get] at h
  cases hselect : Strategy.select ws.host r.settings with
  | error f =>
    rw [hselect] at h
    cases h
  | ok chosen =>
    rw [hselect] at h
    simp only [Except.mapError] at h
    cases hgate : Gate.check ws.host w.disk r.symbol (r.symbol.bind fun s => s.info.toOption)
      r.settings chosen.route with
    | error f =>
      rw [hgate] at h
      cases h
    | ok found =>
      rw [hgate] at h
      cases hinfo : r.symbol.bind fun s => s.info.toOption with
      | none =>
        rw [hinfo] at h
        cases h
      | some info₁ =>
        rw [hinfo] at h hgate
        cases h
        exact ⟨rfl, hgate, rfl⟩

/-- What keeps a run from passing the gates are arguments that cannot be split and the gates. -/
theorem pass_error_cases {ws : Workshop} {r : Request} {w : World} {f : Failure}
    (h : ((r.pass ws).perform w).1 = .error f) :
    (∃ a, f = .ofArguments a) ∨ ∃ g, f = .ofGate g := by
  unfold pass at h
  simp only [perform_bind, perform_lift, perform_get] at h
  cases hs : Strategy.select ws.host r.settings with
  | error a =>
    rw [hs] at h
    cases h
    exact Or.inl ⟨a, rfl⟩
  | ok strategy =>
    rw [hs] at h
    simp only [Except.mapError] at h
    cases hg : Gate.check ws.host w.disk r.symbol (r.symbol.bind fun s => s.info.toOption) r.settings
      strategy.route with
    | error g =>
      rw [hg] at h
      cases h
      exact Or.inr ⟨g, rfl⟩
    | ok layout =>
      rw [hg] at h
      cases hi : r.symbol.bind fun s => s.info.toOption with
      | none =>
        rw [hi] at h
        cases h
        exact Or.inr ⟨_, rfl⟩
      | some info =>
        rw [hi] at h
        cases h

/-- A run that does not pass the gates has failed. -/
theorem ended_of_pass_error {ws : Workshop} {r : Request} {w : World} {f : Failure}
    (h : ((r.pass ws).perform w).1 = .error f) :
    ∃ x, r.ended? ws f = some x ∧ x.status = .failed := by
  rcases pass_error_cases h with ⟨a, rfl⟩ | ⟨g, rfl⟩
  · exact ⟨_, rfl, rfl⟩
  · cases g <;> exact ⟨_, rfl, rfl⟩

/-- A run that does not pass the gates ends there. -/
theorem performStages_of_pass_error {ws : Workshop} {r : Request} {w : World} {f : Failure}
    (h : ((r.pass ws).perform w).1 = .error f) :
    r.performStages ws w = (.error f, { w with toDelete := [] }) := by
  rw [perform_pass] at h
  have hpass : (r.pass ws).perform { w with toDelete := [] } = (.error f, { w with toDelete := [] }) := by
    rw [perform_pass, ← h]
  exact perform_bind_of_error (perform_bind_of_error hpass)

/-- A run that passes the gates with a token that is cancelled ends behind them. -/
theorem performStages_of_isCancelled {ws : Workshop} {r : Request} {w : World}
    {a : Strategy × SymbolInfo × RuntimeLayout} (h : ((r.pass ws).perform w).1 = .ok a)
    (hc : w.isCancelled = true) :
    r.performStages ws w = (.error Failure.atCheckpoint, { w with toDelete := [] }) := by
  rw [perform_pass] at h
  have hpass : (r.pass ws).perform { w with toDelete := [] } = (.ok a, { w with toDelete := [] }) := by
    rw [perform_pass, ← h]
  have hstop : checkpoint.perform { w with toDelete := [] } = _ :=
    perform_checkpoint_of_isCancelled hc
  exact perform_bind_of_error ((perform_bind_of_ok hpass).trans (perform_bind_of_error hstop))

end Request

/-- The result says that the run was cancelled, and nothing else. -/
def RunResult.TellsCancelled (x : RunResult) : Prop :=
  x.status = .cancelled ∧ x.output = "The operation was cancelled.".toList ∧ x.phases = [] ∧
    x.dumpPhases = []

/-- A run that ended at a checkpoint tells that it was cancelled. -/
theorem Request.handBack_atCheckpoint (ws : Workshop) (r : Request) :
    ∃ x, r.handBack ws (.error Failure.atCheckpoint) = .ok x ∧ x.TellsCancelled :=
  ⟨_, rfl, rfl, rfl, rfl, rfl⟩

/-- Once the token of a run is cancelled, be it before the run begins or while one of its processes
runs, no further process is started, and the run tells that it was cancelled. A run that does not
pass the gates fails instead, and such a run starts no process at all. -/
theorem run_of_isCancelled (ws : Workshop) (r : Request) (w : World) (hw : w.AllReturn) :
    ∃ ps, w.Starts ps ((r.run ws).perform w).2 ∧
      (∀ f, ((r.pass ws).perform w).1 = .error f →
        ps = [] ∧ ∃ x, ((r.run ws).perform w).1 = .ok x ∧ x.status = .failed) ∧
      (∀ a, ((r.pass ws).perform w).1 = .ok a → w.isCancelled = true →
        ps = [] ∧ ∃ x, ((r.run ws).perform w).1 = .ok x ∧ x.TellsCancelled) ∧
      (∀ before p behind, ps = before ++ p :: behind → w.token.isSome → p.cancels = true →
        behind = [] ∧ ∃ x, ((r.run ws).perform w).1 = .ok x ∧ x.TellsCancelled) := by
  obtain ⟨w₁, hquiet, hrun⟩ := r.perform_run ws w
  have hstart : w.Starts [] { w with toDelete := [] } := .of_same rfl rfl rfl
  rw [hrun]
  -- Either a gate fails, or the run ends at the checkpoint behind the gates, or it goes to work.
  cases hpass : ((r.pass ws).perform w).1 with
  | error f =>
    rw [Request.performStages_of_pass_error hpass] at hquiet ⊢
    obtain ⟨x, hx, hfailed⟩ := Request.ended_of_pass_error hpass
    refine ⟨[], hstart.trans hquiet, ?_, ?_, ?_⟩
    · rintro f' h
      cases h
      refine ⟨rfl, x, ?_, hfailed⟩
      simp only [Request.handBack, hx]
    · rintro a h
      cases h
    · rintro before p behind h
      simp at h
  | ok a =>
    cases hc : w.isCancelled with
    | true =>
      rw [Request.performStages_of_isCancelled hpass hc] at hquiet ⊢
      refine ⟨[], hstart.trans hquiet, ?_, ?_, ?_⟩
      · rintro f h
        cases h
      · exact fun _ _ _ => ⟨rfl, r.handBack_atCheckpoint ws⟩
      · rintro before p behind h
        simp at h
    | false =>
      obtain ⟨ps, hps, hend⟩ := r.heeds_stages ws { w with toDelete := [] } hw hc
      have hall := (hstart.trans hps).trans hquiet
      rw [List.nil_append, List.append_nil] at hall
      refine ⟨ps, hall, ?_, ?_, ?_⟩
      · rintro f h
        cases h
      · rintro a - h
        cases h
      · rintro before p behind rfl htoken hp
        have hcancelled : (r.performStages ws w).2.isCancelled = true := by
          rw [Request.performStages, hps.isCancelled_eq]
          simp [htoken, hp]
        rcases hend with hend | ⟨hlast, hf⟩
        · rw [Request.performStages, hend] at hcancelled
          cases hcancelled
        · -- only the last process can have cancelled the token
          refine ⟨?_, ?_⟩
          · by_contra hne
            rw [List.dropLast_append_cons, List.dropLast_cons_of_ne_nil hne] at hlast
            simp [hp] at hlast
          · rw [Request.performStages, hf]
            exact r.handBack_atCheckpoint ws

/-! ### A run that is cancelled while its project is built -/

section Sample

/-- A workshop on a plain host. -/
def Workshop.sample : Workshop := ⟨{}, ⟨⟨.root, ["cache"]⟩, "dotnet"⟩, ⟨.root, ["graphs"]⟩⟩

/-- A request that runs the program of a project. -/
def Request.sample : Request :=
  { symbol := some { kind := .method, typePath := ["Program"], name := "Square" }
    project := { path := "/p/p.csproj" }
    settings := { runApp := true } }

/-- A world with a folder for temporary files and one for the project. -/
def World.sample (outcomes : List Outcome) : World :=
  { disk := { tree := (FileTree.empty.put ["tmp"] .directory).put ["p"] .directory, cwd := [] }
    outcomes
    token := some false }

/-- A run that is cancelled during its build starts nothing more and tells so. -/
theorem run_of_isCancelled_build :
    (World.sample [{ cancels := true }, {}]).AllReturn ∧
      ∃ p, (World.sample [{ cancels := true }, {}]).Starts [p]
          ((Request.sample.run .sample).perform (.sample [{ cancels := true }, {}])).2 ∧
        ∃ x, ((Request.sample.run .sample).perform (.sample [{ cancels := true }, {}])).1 = .ok x ∧
          x.TellsCancelled := by
  have hreturn : (World.sample [{ cancels := true }, {}]).AllReturn := by
    intro o ho
    simp only [World.sample, List.mem_cons, List.not_mem_nil, or_false] at ho
    rcases ho with rfl | rfl <;> exact ⟨fun _ _ => rfl, {}, rfl⟩
  obtain ⟨ps, hps, -, -, hstop⟩ := run_of_isCancelled .sample .sample _ hreturn
  have hlength : ((Request.sample.run .sample).perform
      (.sample [{ cancels := true }, {}])).2.started.length = 1 := by
    decide +kernel
  rw [hps.started] at hlength
  obtain ⟨p, rfl⟩ := List.length_eq_one_iff.1 (by simpa [World.sample] using hlength)
  have hcancels : p.cancels = true := by
    unfold Process.cancels
    rw [hps.outcome 0 p rfl]
    rfl
  exact ⟨hreturn, p, hps, (hstop [] p [] rfl rfl hcancels).2⟩

end Sample

end JitInspect
