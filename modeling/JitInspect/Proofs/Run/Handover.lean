import JitInspect.Proofs.Gate.Plans
import JitInspect.Proofs.Run.Cancellation
import JitInspect.Proofs.Run.Temporaries
import JitInspect.Proofs.Strategy.Overrides

/-!
# How commands are given the variables

The command that executes a plan is given the variables of the run in the way of its route
(`Started.Receives`): the loader and the program have them as their own, a compiler ahead of time has
them as options among its arguments, and the stock toolchain for native programs has them as items of a
properties file. Whatever the world, no other command is started (`Job.execute_started`).

So the user has the last word on each knob that a variable of the user names, in either spelling and in
any case (`overrides_win`). The one exception is the file to which a native program's listing is
printed: the run sets it behind all other variables.
-/

namespace JitInspect

open JitInspect.Action

/-! ### The command of a plan -/

/-- The command is given the variables in the way of the route. -/
def Started.Receives (h : Host) (vars : Variables) (p : Started) : Route → Prop
  | .crossgen _ | .localIlc _ => Knobs.optionArgs h vars <:+: p.command.args
  | .nativePublish =>
    ∃ listing properties,
      Plan.propertiesArg (Path.ofText properties).text ∈ p.command.args ∧
        p.disk.readBytes properties = .ok (Text.toUtf8 (Knobs.nativeProperties h
          (Knobs.set vars (h.defaults.knobStart ++ "JitStdOutFile") listing)))
  | .disasm | .dump | .inlinees | .altJit _ | .runApp _ => p.command.environment = vars

namespace Job

variable {ws : Workshop} {j : Job} {i : PlanInputs} {plan : Plan} {vars : Variables}

/-- Starting a plan starts the command of the plan, if there is one, and no other one. -/
theorem startPlan_started (ws : Workshop) (j : Job) (i : PlanInputs) (w : World) :
    ((j.startPlan ws i).perform w).2.started = w.started ∨
      ∃ plan, j.strategy.plan ws.host i = .ok plan ∧
        ((j.startPlan ws i).perform w).2.started = ⟨plan.command, w.disk⟩ :: w.started := by
  unfold startPlan
  cases hplan : j.strategy.plan ws.host i with
  | error f =>
    refine Or.inl ?_
    rw [perform_bind, perform_lift]
    rfl
  | ok plan =>
    refine Or.inr ⟨plan, rfl, ?_⟩
    have hlift : (lift Failure.ofPlan (.ok plan)).perform w = (.ok plan, w) := perform_lift _ _ w
    rw [perform_bind_of_ok hlift, perform_bind_of_ok (perform_report _ _), perform_bind,
      perform_start_eq]
    generalize hv : ({ w with progress := plan.status :: w.progress } : World) = v
    have hstarted : (v.after plan.command).2.started = ⟨plan.command, w.disk⟩ :: w.started := by
      subst hv
      exact World.started_after _ plan.command
    rcases hafter : v.after plan.command with ⟨f | printed, w₁⟩ <;> rw [hafter] at hstarted
    · exact hstarted
    · simp only [perform_bind, perform_checkpoint]
      cases w₁.isCancelled <;> exact hstarted

/-- The command of a plan is given the variables that the plan was made from. -/
theorem receives_command (hplan : j.strategy.plan ws.host i = .ok plan)
    (hroute : j.strategy.route ≠ .nativePublish) (d : Disk) :
    Started.Receives ws.host i.environment ⟨plan.command, d⟩ j.strategy.route := by
  have hrunner : ∀ f : Text → Plan, (∀ x, (f x).environment = i.environment) →
      (Plan.runner ws.host i).map f = .ok plan → plan.command.environment = i.environment := by
    intro f hf hmade
    cases hrunner : Plan.runner ws.host i with
    | error g =>
      rw [hrunner] at hmade
      cases hmade
    | ok program =>
      rw [hrunner] at hmade
      cases hmade
      exact hf program
  unfold Strategy.plan at hplan
  cases hkind : j.strategy.route with
  | crossgen extra =>
    rw [hkind] at hplan
    simp only [Plan.crossgen] at hplan
    cases hchecked : i.layout.checked with
    | none =>
      rw [hchecked] at hplan
      cases hplan
    | some checked =>
      rw [hchecked] at hplan
      obtain ⟨references, -, hplan⟩ := bind_eq_ok.1 hplan
      obtain ⟨script, -, hplan⟩ := bind_eq_ok.1 hplan
      cases hplan
      simp only [Started.Receives, Plan.command, List.append_assoc]
      exact List.infix_append' _ _ _
  | localIlc typed =>
    rw [hkind] at hplan
    obtain ⟨args, -, hplan⟩ := bind_eq_ok.1 hplan
    obtain ⟨program, -, hplan⟩ := bind_eq_ok.1 hplan
    cases hplan
    simp only [Started.Receives, Plan.command, List.append_assoc]
    exact List.infix_append' _ _ _
  | nativePublish => exact absurd hkind hroute
  | runApp listed =>
    rw [hkind] at hplan
    exact hrunner _ (fun _ => rfl) hplan
  | _ =>
    rw [hkind] at hplan
    exact hrunner _ (fun _ => rfl) hplan

/-- Publishing a native program starts a command that is given the variables in the file of properties,
or no command. -/
theorem publishNative_started (hroute : j.strategy.route = .nativePublish) (file properties : Text)
    (w : World) :
    ∃ ps, ((j.publishNative ws vars file properties).perform w).2.started = ps ++ w.started ∧
      ∀ p ∈ ps, Started.Receives ws.host vars p .nativePublish := by
  unfold publishNative
  simp only
  generalize hset : Knobs.set vars (ws.host.defaults.knobStart ++ "JitStdOutFile") file = vars₁
  have hwrite := perform_writeText properties (Knobs.nativeProperties ws.host vars₁) w
  cases hwritten : w.disk.writeBytes properties
      (Text.toUtf8 (Knobs.nativeProperties ws.host vars₁)) with
  | error f =>
    rw [hwritten] at hwrite
    rw [perform_bind_of_error hwrite]
    exact ⟨[], rfl, List.forall_mem_nil _⟩
  | ok d =>
    rw [hwritten] at hwrite
    rw [perform_bind_of_ok hwrite]
    generalize hi : j.planInputs vars₁ (some (Path.ofText properties)) = i
    -- the listing is read from a file, which starts nothing
    have hlisting : ∀ v : World, ((j.startPlan ws i >>= nativeListing file).perform v).2.started =
        ((j.startPlan ws i).perform v).2.started := by
      intro v
      rw [perform_bind]
      rcases (j.startPlan ws i).perform v with ⟨f | printed, v₁⟩
      · rfl
      · exact congrArg World.started (perform_nativeListing_snd file printed v₁)
    rw [hlisting]
    rcases startPlan_started ws j i { w with disk := d } with hnone | ⟨plan, hplan, hone⟩
    · exact ⟨[], hnone, List.forall_mem_nil _⟩
    · refine ⟨[⟨plan.command, d⟩], hone, List.forall_mem_singleton.2 ⟨file, properties, ?_, ?_⟩⟩
      · unfold Strategy.plan at hplan
        rw [hroute] at hplan
        subst hi
        cases hplan
        simp [Plan.command]
      · rw [hset]
        exact Disk.readBytes_writeBytes hwritten

/-- Each command that an execution starts is given the variables in the way of its route. -/
theorem execute_started (ws : Workshop) (j : Job) (file : Option Text) (w : World) :
    ∃ ps, ((j.execute ws file).perform w).2.started = ps ++ w.started ∧
      ∀ p ∈ ps, p.Receives ws.host
        (Knobs.environment ws.host j.strategy j.info j.settings j.layout file) j.strategy.route := by
  unfold execute
  simp only
  generalize Knobs.environment ws.host j.strategy j.info j.settings j.layout file = vars
  by_cases hroute : j.strategy.route = .nativePublish
  · rw [if_pos hroute, hroute]
    have hcases := publishes_executeNative ws j vars w
    generalize (j.executeNative ws vars).perform w = result at hcases ⊢
    cases hcases with
    | noListing => exact ⟨[], rfl, List.forall_mem_nil _⟩
    | noProperties => exact ⟨[], rfl, List.forall_mem_nil _⟩
    | reserved d d₁ log => exact publishNative_started hroute _ _ (publishing ws w d₁ log)
  · rw [if_neg hroute]
    have hlisted : ((j.startPlan ws (j.planInputs vars none) >>= fun p => pure (listed p)).perform
        w).2.started = ((j.startPlan ws (j.planInputs vars none)).perform w).2.started := by
      rw [perform_bind]
      rcases (j.startPlan ws (j.planInputs vars none)).perform w with ⟨_ | _, _⟩ <;> rfl
    rw [hlisted]
    rcases startPlan_started ws j (j.planInputs vars none) w with hnone | ⟨plan, hplan, hone⟩
    · exact ⟨[], hnone, List.forall_mem_nil _⟩
    · exact ⟨[⟨plan.command, w.disk⟩], hone,
        List.forall_mem_singleton.2 (receives_command hplan hroute w.disk)⟩

end Job

/-! ### The user's last word -/

/-- The variables of the user win: each has the value that the user gave, the others keep theirs, and
the new ones stand behind the others. Among the options for a knob that the user names, the last one
carries a value that the user gave for it, also among the items for a native program, where the run
itself only sets the file for the listing. These are the options and items that the command is given. -/
theorem overrides_win (ws : Workshop) (j : Job) (file : Option Text) (place : List Step)
    (hstart : ws.host.defaults.knobStart = "DOTNET_")
    (haccepted : Settings.acceptVariables place j.settings.overrides = .ok j.settings.overrides)
    (hkeys : (Knobs.keys j.settings.overrides).Nodup) :
    let vars (s : Settings) := Knobs.environment ws.host j.strategy j.info s j.layout file
    let given := j.settings.overrides
    Knobs.Wins given (vars { j.settings with overrides := [] }) (vars j.settings) ∧
      (∀ knob, Knobs.Decides ws.host given (vars j.settings) knob) ∧
      (∀ knob listing : Text, knob ≠ "jitstdoutfile" → Knobs.Decides ws.host given
        (Knobs.set (vars j.settings) (ws.host.defaults.knobStart ++ "JitStdOutFile") listing) knob) ∧
      (Knobs.optionArgs ws.host (vars j.settings)).map (Text.splitFirst "=") =
        (Knobs.options ws.host (vars j.settings)).map some ∧
      ∀ w, ∃ ps, ((j.execute ws file).perform w).2.started = ps ++ w.started ∧
        ∀ p ∈ ps, p.Receives ws.host (vars j.settings) j.strategy.route := by
  intro vars given
  have hdecides : ∀ knob, Knobs.Decides ws.host given (vars j.settings) knob :=
    Knobs.environment_decides hstart hkeys
  have hlisting : Knobs.knobOf ws.host (ws.host.defaults.knobStart ++ "JitStdOutFile") =
      some ("jitstdoutfile" : Text) := by
    rw [Knobs.knobOf_eq_some_iff hstart, hstart]
    exact Or.inl (by decide)
  refine ⟨Knobs.environment_wins hkeys, hdecides, fun knob listing hknob => ?_, ?_,
    j.execute_started ws file⟩
  · refine (hdecides knob).set (fun hsame => hknob ?_) listing
    rw [hlisting] at hsame
    exact (Option.some.inj hsame).symm
  · exact Knobs.splitFirst_optionArgs hstart
      (Knobs.not_mem_keys_environment hstart (Knobs.not_mem_of_acceptVariables haccepted))

/-! ### A knob that is named in both spellings -/

section Sample

/-- A user who names two knobs in other ways than the run does. -/
def Settings.overridingSample : Settings :=
  { Settings.crossgenSample with
    overrides := [("dotnet_JITDISASM", "Mine"), ("DOTNET_TieredPGO", "2"), ("COMPlus_TieredPGO", "3"),
      ("PATH", "/bin")] }

/-- Compiling ahead of time for that user. -/
def Job.overridingSample : Job :=
  let inputs := PlanInputs.sample Settings.overridingSample (RuntimeLayout.sample .root) []
  ⟨inputs.settings, ⟨.crossgen ["-O"], .disasm⟩, inputs.info, inputs.layout, inputs.project⟩

/-- A compilation ahead of time with overrides. -/
theorem overrides_win_crossgen :
    let j := Job.overridingSample
    let vars := Knobs.environment {} j.strategy j.info j.settings j.layout none
    (Settings.acceptVariables [] j.settings.overrides = .ok j.settings.overrides ∧
        (Knobs.keys j.settings.overrides).Nodup) ∧
      vars.lookup ("PATH" : Text) = some ("/bin" : Text) ∧
      (∃ v ∈ j.settings.overrides, Knobs.Names v.1 "jitdisasm" ∧
        Knobs.lastValue {} vars "jitdisasm" = some v.2) ∧
      ∃ p, ((j.execute .sample none).perform (.sample [])).2.started = [p] ∧
        Knobs.optionArgs {} vars <:+: p.command.args := by
  intro j vars
  have haccepted : Settings.acceptVariables [] j.settings.overrides = .ok j.settings.overrides := rfl
  have hkeys : (Knobs.keys j.settings.overrides).Nodup := by decide
  obtain ⟨hwins, hdecides, -, -, hstarted⟩ := overrides_win .sample j none [] rfl haccepted hkeys
  obtain ⟨ps, hps, hreceives⟩ := hstarted (.sample [])
  have hlength : ((j.execute .sample none).perform (.sample [])).2.started.length = 1 := by
    decide +kernel
  rw [hps] at hlength ⊢
  obtain ⟨p, rfl⟩ := List.length_eq_one_iff.1 (by simpa [World.sample] using hlength)
  exact ⟨⟨haccepted, hkeys⟩, hwins.given ("PATH", "/bin") (by decide),
    hdecides "jitdisasm" ⟨("dotnet_JITDISASM", "Mine"), by decide, Or.inl (by decide)⟩,
    p, rfl, hreceives p List.mem_cons_self⟩

end Sample

end JitInspect
