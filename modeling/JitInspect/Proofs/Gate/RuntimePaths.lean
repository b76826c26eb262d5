import JitInspect.Proofs.Gate.Plans
import JitInspect.Proofs.Strategy.Variables

/-!
# Paths into a local runtime

The gates look for a local runtime from the directory in which the program runs. The command of a plan
runs in a folder of the project, and it is handed paths into that runtime (`Route.runtimePaths`). From
there they lead to where they led for the gates if the root of the runtime is absolute
(`runtimePaths_seenFrom`). A relative root is handed on as it was written, and then they need not lead
anywhere (`runtimePath_lost`).
-/

namespace JitInspect

/-! ### Variables -/

namespace Knobs

section Variables

/-- No knob that ends with another character is the variable for the framework's assemblies. -/
theorem knob_ne_coreLibraries (start : Text) {name : Text} {c : Char}
    (hlast : name.getLast? = some c) (hc : c ≠ 'S') : start ++ name ≠ coreLibraries := by
  intro heq
  have hend := congrArg List.getLast? heq
  rw [List.getLast?_append, hlast] at hend
  exact hc (Option.some.inj hend)

/-- The variable for the core libraries is not one for flow graphs. -/
theorem ne_coreLibraries_of_mem_ofFlowGraphs {h : Host} {info : SymbolInfo} {file : Option Text}
    {v : Text × Text} (hv : v ∈ ofFlowGraphs h info file) : v.1 ≠ coreLibraries := by
  unfold ofFlowGraphs at hv
  cases file with
  | none => cases hv
  | some f =>
    by_cases hempty : f.isEmpty = true
    · simp [hempty] at hv
    · simp only [hempty, Bool.false_eq_true, if_false, List.mem_cons, List.not_mem_nil,
        or_false] at hv
      rcases hv with rfl | rfl | rfl | rfl <;> exact knob_ne_coreLibraries _ rfl (by decide)

/-- None of the variables of a program's own run names the libraries of the runtime. -/
theorem ne_coreLibraries_of_mem_ofRunApp {h : Host} {route : Route} {v : Text × Text}
    (hv : v ∈ ofRunApp h route) : v.1 ≠ coreLibraries := by
  unfold ofRunApp at hv
  split at hv
  · split at hv
    · cases hv
    · rw [List.mem_singleton] at hv
      subst hv
      exact knob_ne_coreLibraries _ rfl (by decide)
  · cases hv

/-- The framework's assemblies of a run that takes them from a pack, unless the user names others. -/
theorem lookup_coreLibraries {h : Host} {strategy : Strategy} {info : SymbolInfo} {s : Settings}
    {l : RuntimeLayout} {file : Option Text} {pack : Path} (hcustom : s.customRuntime = true)
    (hpublish : s.publish = false) (hpack : l.pack = some pack)
    (hfree : ∀ v ∈ s.overrides, v.1 ≠ coreLibraries) :
    (environment h strategy info s l file).lookup coreLibraries = some pack.text := by
  have hset : ofPack s l = [(coreLibraries, pack.text)] := by
    unfold ofPack
    rw [hpack]
    simp [hcustom, hpublish]
  have hbehind : ∀ v ∈ (h.defaults.knobStart ++ "TieredCompilation", flag s.tiered) ::
      (ofFlowGraphs h info file ++ ofRunApp h strategy.route), v.1 ≠ coreLibraries := by
    intro v hv
    rcases List.mem_cons.1 hv with rfl | hv
    · exact knob_ne_coreLibraries _ rfl (by decide)
    rcases List.mem_append.1 hv with hv | hv
    · exact ne_coreLibraries_of_mem_ofFlowGraphs hv
    · exact ne_coreLibraries_of_mem_ofRunApp hv
  have hbase := lookup_setAll_of_mem []
    ((h.defaults.knobStart ++ strategy.listing.knob, info.target) ::
      (ofAltJit h strategy.route info ++ [(h.defaults.knobStart ++ "TieredPGO", flag s.pgo),
        (h.defaults.knobStart ++ "JitDisasmDiffable", flag s.diffable)])) pack.text hbehind
  unfold environment
  rw [lookup_setAll hfree]
  unfold base
  rw [hset]
  simpa using hbase

end Variables

end Knobs

/-! ### What a command sees -/

namespace Disk

section Seeing

/-- The disk as a command sees it that runs in the directory. -/
def seenFrom (d : Disk) (work : Location) : Disk := { d with cwd := work }

/-- A path that begins with a slash leads to the same place from everywhere. -/
theorem locate_seenFrom {d : Disk} {path : Text} (h : Text.startsWith path ['/'] = true)
    (work : Location) (followLast : Bool) :
    (d.seenFrom work).locate path followLast = d.locate path followLast := by
  have hstart : ∀ cwd, FileTree.startOf cwd path = [] := by
    intro cwd
    unfold FileTree.startOf
    rw [if_pos h]
  unfold locate FileTree.locate
  simp only [hstart]
  rfl

end Seeing

end Disk

/-- An absolute path is written with a slash at its start. -/
theorem Path.startsWith_of_isAbsolute {p : Path} (h : p.isAbsolute = true) :
    Text.startsWith p.text ['/'] = true := by
  obtain ⟨anchor, parts⟩ := p
  cases anchor with
  | here => cases h
  | root => exact Text.startsWith_iff.2 ⟨_, rfl⟩
  | doubleRoot => exact Text.startsWith_iff.2 ⟨_, rfl⟩

/-! ### The paths that a plan hands on -/

section Handing

variable {h : Host} {d : Disk} {s : Settings} {strategy : Strategy} {l : RuntimeLayout}
  {i : PlanInputs} {plan : Plan} {p root : Path}

/-- The paths into a local runtime that the plan of a route hands to its command: the program, the
assemblies that it runs or refers to, and the folder of the framework's assemblies. -/
def Route.runtimePaths (h : Host) (s : Settings) (l : RuntimeLayout) : Route → List Path
  | .disasm | .dump | .inlinees | .altJit _ | .runApp _ =>
    if s.customRuntime && !s.publish then (l.coreRun h).toOption.toList ++ l.pack.toList else []
  | .crossgen _ =>
    (l.dotnetScript h).toOption.toList ++
      l.checked.toList.map (fun dir => (dir.child "crossgen2").child "crossgen2.dll") ++
      if s.publish then []
      else
        l.pack.toList.map (·.child "*.dll") ++
          l.checked.toList.map (·.child "System.Private.CoreLib.dll")
  | .localIlc _ => (l.ilc h).toOption.toList
  | .nativePublish => []

/-- The text is handed to the command of the plan. -/
inductive Plan.Hands (plan : Plan) (x : Text) : Prop where
  | executable (heq : plan.executable = x)
  | argument (hmem : x ∈ plan.args)
  | libraries (hvalue : plan.environment.lookup Knobs.coreLibraries = some x)

/-- What a computation hands over, as a list. -/
theorem mem_toOption_toList {ε α : Type} {x : Except ε α} {a : α} :
    a ∈ x.toOption.toList ↔ x = .ok a := by
  cases x <;> simp [Except.toOption, eq_comm]

/-- The runner is within the checked folder. -/
theorem RuntimeLayout.exists_within_of_coreRun (hrun : l.coreRun h = .ok p) :
    ∃ dir, l.checked = some dir ∧ dir.Within p := by
  unfold RuntimeLayout.coreRun at hrun
  cases hchecked : l.checked with
  | none =>
    rw [hchecked] at hrun
    cases hrun
  | some dir =>
    rw [hchecked] at hrun
    cases hrun
    exact ⟨dir, rfl, Path.within_child _ (by split <;> decide)⟩

/-- The script is within the root. -/
theorem RuntimeLayout.exists_within_of_dotnetScript (hscript : l.dotnetScript h = .ok p) :
    ∃ dir, l.root = some dir ∧ dir.Within p := by
  unfold RuntimeLayout.dotnetScript at hscript
  cases hroot : l.root with
  | none =>
    rw [hroot] at hscript
    cases hscript
  | some dir =>
    rw [hroot] at hscript
    cases hscript
    exact ⟨dir, rfl, Path.within_child _ (by split <;> decide)⟩

/-- The native compiler is within the folder of its tools. -/
theorem RuntimeLayout.exists_within_of_ilc (hilc : l.ilc h = .ok p) :
    ∃ dir, l.nativeTools = some dir ∧ dir.Within p := by
  unfold RuntimeLayout.ilc at hilc
  cases htools : l.nativeTools with
  | none =>
    rw [htools] at hilc
    cases hilc
  | some dir =>
    rw [htools] at hilc
    cases hilc
    refine ⟨dir, rfl, (Path.within_child _ (by decide)).trans (Path.within_child _ ?_)⟩
    unfold Host.executableName
    split <;> decide

/-- The paths into a local runtime lie in the folders of its layout. -/
theorem Route.exists_within_of_mem_runtimePaths {route : Route} (hp : p ∈ route.runtimePaths h s l) :
    ∃ dir ∈ l.folders, dir.Within p := by
  have hchecked : ∀ dir, l.checked = some dir → dir ∈ l.folders := fun dir hdir =>
    RuntimeLayout.mem_folders.2 (.inr (.inl hdir))
  have hpack : ∀ dir, l.pack = some dir → dir ∈ l.folders := fun dir hdir =>
    RuntimeLayout.mem_folders.2 (.inr (.inr (.inl hdir)))
  have hown : p ∈ (if s.customRuntime && !s.publish then
      (l.coreRun h).toOption.toList ++ l.pack.toList else []) → ∃ dir ∈ l.folders, dir.Within p := by
    intro hp
    split at hp
    · rcases List.mem_append.1 hp with hp | hp
      · obtain ⟨dir, hdir, hwithin⟩ :=
          RuntimeLayout.exists_within_of_coreRun (mem_toOption_toList.1 hp)
        exact ⟨dir, hchecked dir hdir, hwithin⟩
      · exact ⟨p, hpack p (Option.mem_toList.1 hp), .refl p⟩
    · cases hp
  cases route with
  | crossgen args =>
    rcases List.mem_append.1 hp with hp | hp
    · rcases List.mem_append.1 hp with hp | hp
      · obtain ⟨dir, hdir, hwithin⟩ :=
          RuntimeLayout.exists_within_of_dotnetScript (mem_toOption_toList.1 hp)
        exact ⟨dir, RuntimeLayout.mem_folders.2 (.inl hdir), hwithin⟩
      · obtain ⟨dir, hdir, rfl⟩ := List.mem_map.1 hp
        exact ⟨dir, hchecked dir (Option.mem_toList.1 hdir),
          (Path.within_child _ (by decide)).trans (Path.within_child _ (by decide))⟩
    · split at hp
      · cases hp
      rcases List.mem_append.1 hp with hp | hp
      · obtain ⟨dir, hdir, rfl⟩ := List.mem_map.1 hp
        exact ⟨dir, hpack dir (Option.mem_toList.1 hdir), Path.within_child _ (by decide)⟩
      · obtain ⟨dir, hdir, rfl⟩ := List.mem_map.1 hp
        exact ⟨dir, hchecked dir (Option.mem_toList.1 hdir), Path.within_child _ (by decide)⟩
  | localIlc typed =>
    obtain ⟨dir, hdir, hwithin⟩ :=
      RuntimeLayout.exists_within_of_ilc (mem_toOption_toList.1 hp)
    exact ⟨dir, RuntimeLayout.mem_folders.2 (.inr (.inr (.inr hdir))), hwithin⟩
  | nativePublish => cases hp
  | _ => exact hown hp

/-- A plan that executes its assembly with the runtime hands on the runtime's own program and pack. -/
theorem Plan.hands_of_runner {file : Option Text} {f : Text → Plan}
    (hf : ∀ x, (f x).executable = x ∧ (f x).environment = i.environment)
    (hmade : (Plan.runner h i).map f = .ok plan)
    (henvironment : i.environment =
      Knobs.environment h strategy i.info i.settings i.layout file)
    (hfree : ∀ v ∈ i.settings.overrides, v.1 ≠ Knobs.coreLibraries)
    (hcustom : i.settings.customRuntime = true) (hpublish : i.settings.publish = false)
    (hp : p ∈ (i.layout.coreRun h).toOption.toList ++ i.layout.pack.toList) :
    plan.Hands p.text := by
  obtain ⟨program, hprogram, rfl⟩ : ∃ program, Plan.runner h i = .ok program ∧ f program = plan := by
    cases hrunner : Plan.runner h i with
    | error g =>
      rw [hrunner] at hmade
      cases hmade
    | ok program =>
      rw [hrunner] at hmade
      exact ⟨program, rfl, Except.ok.inj hmade⟩
  rcases List.mem_append.1 hp with hp | hp
  · refine .executable ?_
    unfold Plan.runner at hprogram
    rw [if_pos (by simp [hcustom, hpublish]), mem_toOption_toList.1 hp] at hprogram
    rw [(hf program).1]
    exact (Except.ok.inj hprogram).symm
  · refine .libraries ?_
    rw [(hf program).2, henvironment]
    exact Knobs.lookup_coreLibraries hcustom hpublish (Option.mem_toList.1 hp) hfree

/-- What a plan of the crossgen compiler hands on. -/
theorem Plan.of_crossgen_eq_ok {extra : List Text} (hplan : Plan.crossgen h i extra = .ok plan) :
    ∃ checked script references, i.layout.checked = some checked ∧
      i.layout.dotnetScript h = .ok script ∧ Plan.crossgenReferences i checked = .ok references ∧
      plan.executable = script.text ∧
      ((checked.child "crossgen2").child "crossgen2.dll").text ∈ plan.args ∧
      ∀ x ∈ references, x ∈ plan.args := by
  unfold Plan.crossgen at hplan
  cases hchecked : i.layout.checked with
  | none =>
    rw [hchecked] at hplan
    cases hplan
  | some checked =>
    rw [hchecked] at hplan
    obtain ⟨references, hreferences, hplan⟩ := bind_eq_ok.1 hplan
    obtain ⟨script, hscript, hplan⟩ := bind_eq_ok.1 hplan
    cases hplan
    refine ⟨checked, script, references, rfl, mapError_eq_ok.1 hscript, hreferences, rfl, ?_, ?_⟩
    · simp
    · intro x hx
      simp [hx]

/-- The paths into a local runtime are handed to the crossgen compiler: its script is executed, its
assembly and the folders of references are arguments. -/
theorem Plan.hands_of_crossgen {args extra : List Text} (hplan : Plan.crossgen h i extra = .ok plan)
    (hp : p ∈ (Route.crossgen args).runtimePaths h i.settings i.layout) : plan.Hands p.text := by
  obtain ⟨checked, script, references, hchecked, hscript, hreferences, hexecutable, hassembly,
    hmem⟩ := Plan.of_crossgen_eq_ok hplan
  rcases List.mem_append.1 hp with hp | hp
  · rcases List.mem_append.1 hp with hp | hp
    · rw [mem_toOption_toList, hscript] at hp
      cases hp
      exact .executable hexecutable
    · rw [hchecked] at hp
      cases List.mem_singleton.1 hp
      exact .argument hassembly
  · -- References to the runtime are only given to an assembly that was not published with its own.
    by_cases hpublish : i.settings.publish = true
    · rw [if_pos hpublish] at hp
      cases hp
    rw [if_neg hpublish, hchecked] at hp
    unfold Plan.crossgenReferences at hreferences
    rw [if_neg hpublish] at hreferences
    cases hpack : i.layout.pack with
    | none =>
      rw [hpack] at hreferences
      cases hreferences
    | some pack =>
      rw [hpack] at hreferences hp
      cases hreferences
      refine .argument (hmem _ ?_)
      rcases List.mem_append.1 hp with hp | hp
      · cases List.mem_singleton.1 hp
        simp [Plan.assembliesIn]
      · cases List.mem_singleton.1 hp
        simp

/-- The paths into a local runtime are handed to the command of the plan, unless the user names other
assemblies of the framework. -/
theorem Plan.hands_of_mem_runtimePaths {file : Option Text}
    (hplan : strategy.plan h i = .ok plan)
    (henvironment : i.environment =
      Knobs.environment h strategy i.info i.settings i.layout file)
    (hfree : ∀ v ∈ i.settings.overrides, v.1 ≠ Knobs.coreLibraries)
    (hp : p ∈ strategy.route.runtimePaths h i.settings i.layout) : plan.Hands p.text := by
  unfold Strategy.plan at hplan
  cases hroute : strategy.route with
  | crossgen args =>
    rw [hroute] at hplan hp
    exact Plan.hands_of_crossgen hplan hp
  | localIlc typed =>
    rw [hroute] at hplan hp
    obtain ⟨args, -, hplan⟩ := bind_eq_ok.1 hplan
    obtain ⟨program, hprogram, hplan⟩ := bind_eq_ok.1 hplan
    rw [mapError_eq_ok, mem_toOption_toList.1 hp] at hprogram
    cases hprogram
    cases hplan
    exact .executable rfl
  | nativePublish =>
    rw [hroute] at hp
    cases hp
  | _ =>
    -- The other routes execute the assembly, and with the runtime only if it was not published.
    rw [hroute] at hplan hp
    by_cases hown : (i.settings.customRuntime && !i.settings.publish) = true
    · have hpaths : p ∈ (i.layout.coreRun h).toOption.toList ++ i.layout.pack.toList := by
        simpa only [Route.runtimePaths, hown, if_true] using hp
      simp only [Bool.and_eq_true, Bool.not_eq_true'] at hown
      exact Plan.hands_of_runner (fun x => ⟨rfl, rfl⟩) hplan henvironment hfree hown.1 hown.2 hpaths
    · simp [Route.runtimePaths, hown] at hp

/-- Everything in the layout that the gates hand on starts where the root of the runtime does. -/
theorem Gate.Passes.anchor_eq (hpasses : Gate.Passes h d s strategy.route l)
    (hroot : Gate.expandHome h (Path.ofText s.runtimePath) = .ok root) {dir : Path}
    (hdir : dir ∈ l.folders) : dir.anchor = root.anchor := by
  rcases hpasses.layout with ⟨-, rfl⟩ | ⟨-, -, root₁, -, hroot₁, hsupplies⟩
  · cases hdir
  · rw [hroot] at hroot₁
    cases hroot₁
    generalize strategy.route = route at hsupplies
    cases hsupplies with
    | native typed tools hwithin =>
      rcases RuntimeLayout.mem_folders.1 hdir with h | h | h | h <;> cases h
      · rfl
      · exact hwithin.anchor
    | published _ checked _ _ hwithin =>
      rcases RuntimeLayout.mem_folders.1 hdir with h | h | h | h <;> cases h
      · rfl
      · exact hwithin.anchor
    | built _ checked pack _ _ hwithin _ hanchor =>
      rcases RuntimeLayout.mem_folders.1 hdir with h | h | h | h <;> cases h
      · rfl
      · exact hwithin.anchor
      · exact hanchor

/-- What is typed behind an absolute root begins with a slash. -/
theorem Plan.startsWith_of_writtenRoot {x : Text}
    (hroot : ∀ dir, l.root = some dir → dir.isAbsolute = true)
    (hx : Text.startsWith x (Plan.writtenRoot l ++ "/") = true) :
    Text.startsWith x ['/'] = true := by
  obtain ⟨rest, rfl⟩ := Text.startsWith_iff.1 hx
  have hfirst : ∀ c cs, Plan.writtenRoot l = c :: cs → c = '/' := by
    intro c cs hwritten
    obtain ⟨behind, hbehind⟩ : ∃ behind, (l.root.map Path.text).getD [] =
        Plan.writtenRoot l ++ behind := by
      obtain ⟨trimmed, htrimmed⟩ := List.dropWhile_suffix (fun c => c = '\\' || c = '/')
        (l := ((l.root.map Path.text).getD []).reverse)
      have hback := congrArg List.reverse htrimmed
      rw [List.reverse_append, List.reverse_reverse] at hback
      exact ⟨trimmed.reverse, hback.symm⟩
    cases hdir : l.root with
    | none =>
      rw [hdir, hwritten] at hbehind
      cases hbehind
    | some dir =>
      obtain ⟨more, hmore⟩ := Text.startsWith_iff.1 (Path.startsWith_of_isAbsolute (hroot dir hdir))
      rw [hdir, hwritten] at hbehind
      simp only [Option.map_some, Option.getD_some, hmore] at hbehind
      exact (List.cons.inj hbehind).1.symm
  refine Text.startsWith_iff.2 ?_
  cases hwritten : Plan.writtenRoot l with
  | nil => exact ⟨rest, rfl⟩
  | cons c cs =>
    rw [hfirst c cs hwritten]
    exact ⟨_, rfl⟩

end Handing

/-- If the root of the local runtime is absolute, the paths into it that are handed to the command of a
plan lead, wherever that command runs, to where they led for the gates. So does what the user typed
behind the root. -/
theorem runtimePaths_seenFrom {h : Host} {d : Disk} {symbol? : Option Symbol}
    {info? : Option SymbolInfo} {s : Settings} {l : RuntimeLayout} {plan : Plan}
    (strategy : Strategy) (root : Path) (file : Option Text)
    (hcheck : Gate.check h d symbol? info? s strategy.route = .ok l)
    (hroot : Gate.expandHome h (Path.ofText s.runtimePath) = .ok root)
    (habsolute : root.isAbsolute = true) (i : PlanInputs) (hsettings : i.settings = s)
    (hlayout : i.layout = l)
    (henvironment : i.environment = Knobs.environment h strategy i.info s l file)
    (hplan : strategy.plan h i = .ok plan) :
    ((∀ v ∈ s.overrides, v.1 ≠ Knobs.coreLibraries) →
        ∀ p ∈ strategy.route.runtimePaths h s l, plan.Hands p.text) ∧
      (∀ p ∈ strategy.route.runtimePaths h s l, ∀ work followLast,
        (d.seenFrom work).locate p.text followLast = d.locate p.text followLast) ∧
      ∀ x ∈ plan.args, Text.startsWith x (Plan.writtenRoot l ++ "/") = true → ∀ work followLast,
        (d.seenFrom work).locate x followLast = d.locate x followLast := by
  have hpasses := Gate.passes_of_check hcheck
  have hfolders : ∀ dir ∈ l.folders, dir.isAbsolute = true := by
    intro dir hdir
    rw [← habsolute, Path.isAbsolute, hpasses.anchor_eq hroot hdir]
    rfl
  refine ⟨fun hfree p hp => ?_, fun p hp work followLast => ?_, fun x _ hx work followLast => ?_⟩
  · subst hsettings hlayout
    exact Plan.hands_of_mem_runtimePaths hplan henvironment hfree hp
  · obtain ⟨dir, hdir, hwithin⟩ := Route.exists_within_of_mem_runtimePaths hp
    refine Disk.locate_seenFrom (Path.startsWith_of_isAbsolute ?_) work followLast
    rw [hwithin.isAbsolute]
    exact hfolders dir hdir
  · refine Disk.locate_seenFrom (Plan.startsWith_of_writtenRoot (fun dir hdir => ?_) hx) work
      followLast
    exact hfolders dir (RuntimeLayout.mem_folders.2 (.inl hdir))

/-! ### An absolute and a relative root -/

section Sample

/-- Options that run the program on a local runtime. -/
def Settings.appSample (runtimePath : Text) : Settings :=
  { runApp := true, customRuntime := true, runtimePath }

/-- The inputs of a plan for these options. -/
def PlanInputs.appSample (anchor : Anchor) (runtimePath : Text) : PlanInputs :=
  let s := Settings.appSample runtimePath
  let l := RuntimeLayout.sample anchor
  let i := PlanInputs.sample s l []
  { i with environment := Knobs.environment {} ⟨.runApp none, .disasm⟩ i.info s l none }

/-- The program of the local runtime, as the gates find it. -/
def RuntimeLayout.programSample (anchor : Anchor) : Path :=
  ⟨anchor, ["rt", "artifacts", "bin", "coreclr", "linux.x64.Checked", "corerun"]⟩

/-- The plan for these options. -/
def Plan.appSample (anchor : Anchor) (runtimePath : Text) : Plan :=
  { executable := (RuntimeLayout.programSample anchor).text
    args := ["App.dll"]
    environment := (PlanInputs.appSample anchor runtimePath).environment
    folder := "/p/bin/jitscope-v0.1.0"
    status := "Running the app..." }

/-- The plan of a run of the program itself, with an absolute root. -/
theorem runtimePaths_seenFrom_app :
    Gate.check {} Disk.sample (some Symbol.sample) Symbol.sample.info.toOption
        (Settings.appSample "/rt") (.runApp none) = .ok (RuntimeLayout.sample .root) ∧
      Strategy.plan ⟨.runApp none, .disasm⟩ {} (PlanInputs.appSample .root "/rt") =
        .ok (Plan.appSample .root "/rt") ∧
      (Plan.appSample .root "/rt").Hands (RuntimeLayout.programSample .root).text ∧
      (Disk.sample.seenFrom ["p", "bin", "jitscope-v0.1.0"]).locate
        (RuntimeLayout.programSample .root).text = .ok (RuntimeLayout.programSample .root).parts := by
  have hcheck : Gate.check {} Disk.sample (some Symbol.sample) Symbol.sample.info.toOption
      (Settings.appSample "/rt") (.runApp none) = .ok (RuntimeLayout.sample .root) := by
    rfl
  have hplan : Strategy.plan ⟨.runApp none, .disasm⟩ {} (PlanInputs.appSample .root "/rt") =
      .ok (Plan.appSample .root "/rt") := by
    rfl
  have hlead : Disk.sample.locate (RuntimeLayout.programSample .root).text =
      .ok (RuntimeLayout.programSample .root).parts := by
    rfl
  have hpath : RuntimeLayout.programSample .root ∈ (Route.runApp none).runtimePaths {}
      (Settings.appSample "/rt") (RuntimeLayout.sample .root) := by
    decide
  obtain ⟨hhands, hsame, -⟩ := runtimePaths_seenFrom ⟨.runApp none, .disasm⟩ ⟨.root, ["rt"]⟩ none
    hcheck rfl rfl _ rfl rfl rfl hplan
  refine ⟨hcheck, hplan, hhands (fun _ hv => by cases hv) _ hpath, ?_⟩
  rw [hsame _ hpath, hlead]

/-- With a relative root the program that the gates have found is not there for the command. -/
theorem runtimePath_lost :
    Gate.check {} Disk.sample (some Symbol.sample) Symbol.sample.info.toOption
        (Settings.appSample "rt") (.runApp none) = .ok (RuntimeLayout.sample .here) ∧
      Strategy.plan ⟨.runApp none, .disasm⟩ {} (PlanInputs.appSample .here "rt") =
        .ok (Plan.appSample .here "rt") ∧
      Disk.sample.isFile (Plan.appSample .here "rt").executable = .ok true ∧
      (Disk.sample.seenFrom (Path.ofText (Plan.appSample .here "rt").folder).parts).isFile
        (Plan.appSample .here "rt").executable = .ok false := by
  refine ⟨rfl, rfl, rfl, rfl⟩

end Sample

end JitInspect
