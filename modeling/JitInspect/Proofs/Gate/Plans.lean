import JitInspect.Proofs.Gate.Layout
import JitInspect.Proofs.Strategy.Choosing
import JitInspect.Strategy.Plan

/-!
# Plans behind the gates

The gates decide which folders of a local runtime are looked for, and the plan decides which of them it
needs. Both decide from the options, each in its own way. They agree: a plan that is made from the layout
that the gates hand on lacks nothing, and all folders of that layout are there (`plan_lacks_nothing`).
-/

namespace JitInspect

/-- The folders of a layout. -/
def RuntimeLayout.folders (l : RuntimeLayout) : List Path :=
  l.root.toList ++ l.checked.toList ++ l.pack.toList ++ l.nativeTools.toList

/-- The folders of a layout. -/
theorem RuntimeLayout.mem_folders {l : RuntimeLayout} {dir : Path} :
    dir ∈ l.folders ↔
      l.root = some dir ∨ l.checked = some dir ∨ l.pack = some dir ∨ l.nativeTools = some dir := by
  simp [folders]

/-! ### The route that the options choose -/

section Choosing

/-- What the options say when they choose the route. -/
def Route.ChosenBy (s : Settings) : Route → Prop
  | .disasm | .dump | .inlinees | .altJit _ | .runApp _ => s.compiler = .jit
  | .crossgen _ => s.compiler = .crossgen
  | .localIlc _ => s.compiler = .nativeAot ∧ s.customRuntime = true
  | .nativePublish => s.compiler = .nativeAot ∧ s.customRuntime = false

/-- A route that was selected was chosen by the settings. -/
theorem Strategy.chosenBy_of_select {h : Host} {s : Settings} {strategy : Strategy}
    (hselect : Strategy.select h s = .ok strategy) : strategy.route.ChosenBy s := by
  cases select_eq_ok_iff.1 hselect with
  | crossgen hcompiler => exact hcompiler
  | localIlc hcompiler hcustom => exact ⟨hcompiler, hcustom⟩
  | nativePublish hcompiler hcustom => exact ⟨hcompiler, hcustom⟩
  | runApp hcompiler => exact hcompiler
  | altJit hcompiler => exact hcompiler
  | loader hcompiler =>
    generalize ListingKind.ofSettings s = listing
    cases listing <;> exact hcompiler

end Choosing

/-! ### What a plan needs -/

section Needing

variable {h : Host} {d : Disk} {s : Settings} {strategy : Strategy} {l : RuntimeLayout}
  {i : PlanInputs}

/-- The layout holds the folders that a plan of the route reads. -/
structure Route.HasFolders (s : Settings) (l : RuntimeLayout) (route : Route) : Prop where
  runner : s.customRuntime = true → s.publish = false → (∀ typed, route ≠ .localIlc typed) →
    route ≠ .nativePublish → l.checked.isSome
  crossgen : ∀ args, route = .crossgen args →
    l.root.isSome ∧ l.checked.isSome ∧ (s.publish = false → l.pack.isSome)
  localIlc : ∀ typed, route = .localIlc typed → l.nativeTools.isSome

/-- A run that passes the gates with the route that its options choose has the folders it needs. -/
theorem Gate.Passes.hasFolders (hpasses : Gate.Passes h d s strategy.route l)
    (hchosen : strategy.route.ChosenBy s) : strategy.route.HasFolders s l := by
  rcases hpasses.layout with ⟨hnone, rfl⟩ | ⟨hcustom, hroute, root, -, -, hsupplies⟩
  · refine ⟨?_, ?_, ?_⟩
    · intro hcustom _ _ hroute
      rcases hnone with hnone | hnone
      · rw [hcustom] at hnone
        cases hnone
      · exact absurd hnone hroute
    · intro args hroute
      rw [hroute] at hchosen hnone
      rcases hnone with hnone | hnone
      · rw [hpasses.crossgen hchosen] at hnone
        cases hnone
      · cases hnone
    · intro typed hroute
      rw [hroute] at hchosen hnone
      rcases hnone with hnone | hnone
      · rw [hchosen.2] at hnone
        cases hnone
      · cases hnone
  · generalize strategy.route = route at hsupplies hroute
    cases hsupplies with
    | native typed tools =>
      exact ⟨fun _ _ hno => absurd rfl (hno typed), (fun _ hno => by cases hno), fun _ _ => rfl⟩
    | published _ checked hno hpublish =>
      refine ⟨fun _ _ _ _ => rfl, fun _ _ => ⟨rfl, rfl, fun hbuilt => ?_⟩, fun typed heq =>
        absurd heq (hno typed)⟩
      rw [hpublish] at hbuilt
      cases hbuilt
    | built _ checked pack hno =>
      exact ⟨fun _ _ _ _ => rfl, fun _ _ => ⟨rfl, rfl, fun _ => rfl⟩,
        fun typed heq => absurd heq (hno typed)⟩

/-- A runner is planned where the checked folder is there if it is needed. -/
theorem Plan.runner_eq_ok
    (hchecked : i.settings.customRuntime = true → i.settings.publish = false → i.layout.checked.isSome) :
    ∃ program, Plan.runner h i = .ok program := by
  unfold Plan.runner
  by_cases hown : (i.settings.customRuntime && !i.settings.publish) = true
  · rw [if_pos hown]
    simp only [Bool.and_eq_true, Bool.not_eq_true'] at hown
    obtain ⟨dir, hdir⟩ := Option.isSome_iff_exists.1 (hchecked hown.1 hown.2)
    unfold RuntimeLayout.coreRun
    rw [hdir]
    exact ⟨_, rfl⟩
  · rw [if_neg hown]
    exact ⟨_, rfl⟩

theorem Plan.crossgen_eq_ok (extra : List Text) (hroot : i.layout.root.isSome)
    (hchecked : i.layout.checked.isSome)
    (hpack : i.settings.publish = false → i.layout.pack.isSome) :
    ∃ plan, Plan.crossgen h i extra = .ok plan := by
  obtain ⟨root, hroot⟩ := Option.isSome_iff_exists.1 hroot
  obtain ⟨checked, hchecked⟩ := Option.isSome_iff_exists.1 hchecked
  have hreferences : ∃ references, Plan.crossgenReferences i checked = .ok references := by
    unfold Plan.crossgenReferences
    by_cases hpublish : i.settings.publish = true
    · rw [if_pos hpublish]
      exact ⟨_, rfl⟩
    · obtain ⟨pack, hpack⟩ := Option.isSome_iff_exists.1 (hpack (by simpa using hpublish))
      rw [if_neg hpublish, hpack]
      exact ⟨_, rfl⟩
  obtain ⟨references, hreferences⟩ := hreferences
  unfold Plan.crossgen RuntimeLayout.dotnetScript
  rw [hchecked]
  simp only [hroot, hreferences]
  exact ⟨_, rfl⟩

/-- Typed arguments lack no folder. -/
theorem Plan.isMissing_of_userArgs {typed : Text} {f : PlanFault}
    (hargs : Plan.userArgs h l typed = .error f) : f.isMissing = false := by
  unfold Plan.userArgs at hargs
  by_cases hempty : (Text.strip typed).isEmpty = true
  · rw [if_pos hempty] at hargs
    cases hargs
  · rw [if_neg hempty] at hargs
    cases hwords : Strategy.splitArgs h (Text.replace rootPlaceholder (writtenRoot l) typed) with
    | ok words =>
      rw [hwords] at hargs
      cases hargs
    | error g =>
      rw [hwords] at hargs
      cases hargs
      rfl

/-- With the folders that its route needs a plan fails at most because arguments cannot be split. -/
theorem Strategy.isMissing_of_plan (hfolders : strategy.route.HasFolders i.settings i.layout)
    (hproperties : strategy.route = .nativePublish → i.properties.isSome) {f : PlanFault}
    (hplan : strategy.plan h i = .error f) : f.isMissing = false := by
  have hloader : (∀ typed, strategy.route ≠ .localIlc typed) → strategy.route ≠ .nativePublish →
      ∃ program, Plan.runner h i = .ok program := fun hlocal hpublish =>
    Plan.runner_eq_ok fun hcustom hbuilt => hfolders.runner hcustom hbuilt hlocal hpublish
  unfold Strategy.plan at hplan
  cases hroute : strategy.route with
  | crossgen args =>
    obtain ⟨hroot, hchecked, hpack⟩ := hfolders.crossgen args hroute
    obtain ⟨plan, hmade⟩ := Plan.crossgen_eq_ok (h := h) args hroot hchecked hpack
    simp only [hroute, hmade] at hplan
    cases hplan
  | localIlc typed =>
    obtain ⟨tools, htools⟩ := Option.isSome_iff_exists.1 (hfolders.localIlc typed hroute)
    simp only [hroute, Plan.localIlc, RuntimeLayout.ilc, htools] at hplan
    cases hargs : Plan.userArgs h i.layout typed with
    | error g =>
      rw [hargs] at hplan
      cases hplan
      exact Plan.isMissing_of_userArgs hargs
    | ok args =>
      rw [hargs] at hplan
      cases hplan
  | nativePublish =>
    obtain ⟨file, hfile⟩ := Option.isSome_iff_exists.1 (hproperties hroute)
    simp only [hroute, Plan.nativePublish, hfile] at hplan
    cases hplan
  | _ =>
    obtain ⟨program, hprogram⟩ := hloader (by simp [hroute]) (by simp [hroute])
    simp only [hroute, Plan.loader, Plan.app, hprogram] at hplan
    cases hplan

/-- The folders that the gates hand on are there. -/
theorem Gate.Passes.isDirectory (hpasses : Gate.Passes h d s strategy.route l)
    (hclosed : d.tree.Closed) {dir : Path} (hdir : dir ∈ l.folders) :
    d.isDirectory dir.text = .ok true := by
  rcases hpasses.layout with ⟨-, rfl⟩ | ⟨-, -, root, hproper, -, hsupplies⟩
  · cases hdir
  · generalize strategy.route = route at hsupplies
    cases hsupplies with
    | native typed tools hwithin hilc =>
      have htools : d.isDirectory tools.text = .ok true :=
        Disk.isDirectory_of_within hclosed (hwithin.proper hproper)
          (Path.within_child tools (by decide)) hilc
      rcases RuntimeLayout.mem_folders.1 hdir with h | h | h | h <;> cases h
      · exact Disk.isDirectory_of_within hclosed hproper hwithin htools
      · exact htools
    | published _ checked _ _ hwithin hchecked =>
      rcases RuntimeLayout.mem_folders.1 hdir with h | h | h | h <;> cases h
      · exact Disk.isDirectory_of_within hclosed hproper hwithin hchecked
      · exact hchecked
    | built _ checked pack _ _ hwithin hchecked _ hpack =>
      rcases RuntimeLayout.mem_folders.1 hdir with h | h | h | h <;> cases h
      · exact Disk.isDirectory_of_within hclosed hproper hwithin hchecked
      · exact hchecked
      · exact hpack

end Needing

/-- A plan that is made from the layout that the gates hand on lacks none of its folders, and each of
them is there. -/
theorem plan_lacks_nothing {h : Host} {d : Disk} {symbol? : Option Symbol} {info? : Option SymbolInfo}
    {s : Settings} {strategy : Strategy} {l : RuntimeLayout} (hclosed : d.tree.Closed)
    (hselect : Strategy.select h s = .ok strategy)
    (hcheck : Gate.check h d symbol? info? s strategy.route = .ok l) (i : PlanInputs)
    (hsettings : i.settings = s) (hlayout : i.layout = l)
    (hproperties : strategy.route = .nativePublish → i.properties.isSome) :
    (∀ f, strategy.plan h i = .error f → f.isMissing = false) ∧
      ∀ dir ∈ l.folders, d.isDirectory dir.text = .ok true := by
  have hpasses := Gate.passes_of_check hcheck
  refine ⟨fun f hplan => ?_, fun dir hdir => hpasses.isDirectory hclosed hdir⟩
  refine Strategy.isMissing_of_plan ?_ hproperties hplan
  rw [hsettings, hlayout]
  exact hpasses.hasFolders (Strategy.chosenBy_of_select hselect)

/-! ### A local runtime on a disk -/

section Sample

/-- A disk with a local runtime and the output folder of a project. -/
def Disk.sample : Disk where
  tree := ((((((((((((FileTree.empty.put ["rt"] .directory).put ["rt", "artifacts"] .directory).put
    ["rt", "artifacts", "bin"] .directory).put
    ["rt", "artifacts", "bin", "coreclr"] .directory).put
    ["rt", "artifacts", "bin", "coreclr", "linux.x64.Checked"] .directory).put
    ["rt", "artifacts", "bin", "coreclr", "linux.x64.Checked", "corerun"] (.file [])).put
    ["rt", "artifacts", "bin", "runtime"] .directory).put
    ["rt", "artifacts", "bin", "runtime", "net9.0-linux-Release-x64"] .directory).put
    ["p"] .directory).put ["p", "bin"] .directory).put ["p", "bin", "jitscope-v0.1.0"] .directory).put
    ["p", "App.csproj"] (.file []))
  cwd := []

/-- Everything on the sample's disk stands in a directory. -/
theorem Disk.closed_sample : Disk.sample.tree.Closed := by
  unfold Disk.sample
  repeat' refine FileTree.Closed.put ?_ (by decide) (by decide)
  exact FileTree.closed_empty

/-- A symbol of a program. -/
def Symbol.sample : Symbol := { kind := .method, typePath := ["Program"], name := "Square" }

/-- What a plan is made from for a project, with the layout that the gates hand on. -/
def PlanInputs.sample (s : Settings) (l : RuntimeLayout) (environment : Variables) : PlanInputs :=
  { info := ⟨"Program:Square", "Program", "Square", ["Square"]⟩
    project := ⟨⟨.root, ["p", "App.csproj"]⟩, ⟨.root, ["p"]⟩, "Release", "net9.0", false,
      ⟨.root, ["p", "bin", "jitscope-v0.1.0"]⟩, "App"⟩
    settings := s
    layout := l
    environment }

/-- The layout of the local runtime below the root. -/
def RuntimeLayout.sample (anchor : Anchor) : RuntimeLayout :=
  { root := some ⟨anchor, ["rt"]⟩
    checked := some ⟨anchor, ["rt", "artifacts", "bin", "coreclr", "linux.x64.Checked"]⟩
    pack := some ⟨anchor, ["rt", "artifacts", "bin", "runtime", "net9.0-linux-Release-x64"]⟩ }

/-- Options for the crossgen compiler of a local runtime. -/
def Settings.crossgenSample : Settings :=
  { compiler := .crossgen, customRuntime := true, runtimePath := "/rt" }

/-- A compilation ahead of time that passed the gates. -/
theorem plan_lacks_nothing_crossgen :
    Strategy.select {} Settings.crossgenSample = .ok ⟨.crossgen ["-O"], .disasm⟩ ∧
      Gate.check {} Disk.sample (some Symbol.sample) Symbol.sample.info.toOption
        Settings.crossgenSample (.crossgen ["-O"]) = .ok (RuntimeLayout.sample .root) ∧
      (∀ f, Strategy.plan ⟨.crossgen ["-O"], .disasm⟩ {} (PlanInputs.sample Settings.crossgenSample
        (RuntimeLayout.sample .root) []) = .error f → f.isMissing = false) ∧
      ∀ dir ∈ (RuntimeLayout.sample .root).folders, Disk.sample.isDirectory dir.text = .ok true := by
  have hselect : Strategy.select {} Settings.crossgenSample = .ok ⟨.crossgen ["-O"], .disasm⟩ := by
    rfl
  have hcheck : Gate.check {} Disk.sample (some Symbol.sample) Symbol.sample.info.toOption
      Settings.crossgenSample (.crossgen ["-O"]) = .ok (RuntimeLayout.sample .root) := by
    rfl
  exact ⟨hselect, hcheck, plan_lacks_nothing Disk.closed_sample hselect hcheck _ rfl rfl
    (fun h => by cases h)⟩

end Sample

end JitInspect
