import JitInspect.Proofs.FileTree.Absolute
import JitInspect.Proofs.Project.Selection
import JitInspect.Run.Failure

/-!
# How a project is resolved

A project is refused for its framework alone, and only when the user asks for none: when the framework
of the chosen configuration has no version or too low a one (`ResolvedProject.Unlistable`). Otherwise
it is resolved, as soon as the path of its file can be (`ResolvedProject.resolve_eq_ok_iff`).

What is resolved keeps listings apart from other builds (`ResolvedProject.IsApart`): its output goes
to a folder of its own directly below the folder of the user's builds, and the name of that folder
tells whether the project is published.
-/

namespace JitInspect

/-- The options are rejected for the fault. -/
def ResolveFault.Rejects (f : ResolveFault) : Prop := ∃ message, Failure.ofResolve f = .rejected message

/-- The framework that the user asks for, without the whitespace around it. -/
def Settings.pin (s : Settings) : Text := Text.strip (s.framework.getD [])

namespace ResolvedProject

variable {d d₁ : Disk} {p : Project} {s s₁ : Settings} {r r₁ : ResolvedProject} {framework : Text}
  {chosen : Option BuildConfiguration} {f : ResolveFault}

/-! ### Frameworks that are refused -/

section Refusals

/-- The code for the framework cannot be listed: it has no version, or one that is too low. -/
def Unlistable (s : Settings) (framework : Text) : Prop :=
  Version.ofMoniker framework = .ok none ∨
    ∃ v, Version.ofMoniker framework = .ok (some v) ∧
      (v.major < 6 ∨ v.major < 7 ∧ s.customRuntime = false)

/-- The framework of the chosen configuration. One that is absent or empty is taken to be `net7.0`. -/
def frameworkIn (chosen : Option BuildConfiguration) : Text :=
  (nonempty (chosen.bind (·.framework))).getD "net7.0"

/-- The project is refused: the user asks for no framework, and the code for the one that it has
cannot be listed. -/
def IsRefused (s : Settings) (chosen : Option BuildConfiguration) : Prop :=
  s.pin = [] ∧ Unlistable s (frameworkIn chosen)

/-- The gate opens for all frameworks but those whose code cannot be listed. -/
theorem gate_cases (hreadable : Version.Readable framework) :
    (¬Unlistable s framework ∧ gate framework s = .ok ()) ∨
      Unlistable s framework ∧ ∃ f, gate framework s = .error f ∧ f.Rejects := by
  obtain ⟨found, hfound⟩ := Version.exists_ofMoniker_iff.2 hreadable
  unfold Unlistable gate
  rw [hfound]
  cases found with
  | none => exact Or.inr ⟨Or.inl rfl, _, rfl, _, rfl⟩
  | some v =>
    dsimp only
    by_cases hsix : v.major < 6
    · rw [if_pos hsix]
      exact Or.inr ⟨Or.inr ⟨v, rfl, Or.inl hsix⟩, _, rfl, _, rfl⟩
    rw [if_neg hsix]
    by_cases hseven : v.major < 7 ∧ s.customRuntime = false
    · rw [if_pos (by simpa using hseven)]
      exact Or.inr ⟨Or.inr ⟨v, rfl, Or.inr hseven⟩, _, rfl, _, rfl⟩
    · rw [if_neg (by simpa using hseven)]
      refine Or.inl ⟨?_, rfl⟩
      rintro (hnone | ⟨v₁, hv₁, hlow⟩)
      · cases hnone
      · cases hv₁
        exact hlow.elim hsix hseven

/-- An empty pin is none. -/
theorem pinOf_eq : pinOf s = if s.pin = [] then none else some s.pin := by
  unfold pinOf Settings.pin
  simp only [List.isEmpty_iff]

/-- A path that cannot be followed is not a rejection. -/
theorem not_rejects_path (g : FileFault) : ¬(ResolveFault.path g).Rejects := by
  rintro ⟨message, h⟩
  cases h

end Refusals

/-! ### The two ways to end -/

section Endings

/-- The project as it is resolved for the framework, when its file is at the path. -/
def located (p : Project) (s : Settings) (chosen : Option BuildConfiguration) (framework : Text)
    (file : Path) : ResolvedProject where
  file
  folder := file.parent
  configuration := (chosen.map (·.name)).getD "Release"
  framework
  pinned := (pinOf s).isSome
  output := outputFolder s file.parent (chosen.bind (·.outputPath))
  assemblyName := (nonempty (chosen.bind (·.assemblyName))).getD p.name

/-- How a project is resolved when the candidate is known. -/
theorem resolve_eq {candidate : Option Candidate}
    (hselect : Project.select p.configurations (pinOf s) = .ok candidate) :
    resolve d p s = (do
      let framework ← frameworkOf s (candidate.map (·.configuration))
      let file ← (p.file d).mapError ResolveFault.path
      pure (located p s (candidate.map (·.configuration)) framework file)) := by
  unfold resolve
  rw [hselect]
  rfl

/-- Either a framework is found, or the project is refused for the one that it has. -/
theorem frameworkOf_cases (hreadable : Version.Readable (frameworkIn chosen)) :
    (¬IsRefused s chosen ∧ ∃ framework, frameworkOf s chosen = .ok framework) ∨
      IsRefused s chosen ∧ ∃ f, frameworkOf s chosen = .error f ∧ f.Rejects := by
  unfold frameworkOf IsRefused
  rw [pinOf_eq]
  by_cases hpin : s.pin = []
  · rw [if_pos hpin]
    change (_ ∧ ∃ _, (gate (frameworkIn chosen) s).map _ = _) ∨
      _ ∧ ∃ f, (gate (frameworkIn chosen) s).map _ = _ ∧ _
    rcases gate_cases hreadable with ⟨hlistable, hgate⟩ | ⟨hunlistable, f, hgate, hrejects⟩
    · rw [hgate]
      exact Or.inl ⟨fun h => hlistable h.2, _, rfl⟩
    · rw [hgate]
      exact Or.inr ⟨⟨hpin, hunlistable⟩, f, rfl, hrejects⟩
  · rw [if_neg hpin]
    exact Or.inl ⟨fun h => hpin h.1, _, rfl⟩

/-- A project is resolved when a candidate was selected, its framework passes the gates and the project's
path can be followed. -/
theorem resolve_eq_ok_iff : resolve d p s = .ok r ↔ ∃ candidate framework file,
    Project.select p.configurations (pinOf s) = .ok candidate ∧
      frameworkOf s (candidate.map (·.configuration)) = .ok framework ∧ p.file d = .ok file ∧
        r = located p s (candidate.map (·.configuration)) framework file := by
  constructor
  · intro h
    obtain ⟨candidate, hselect, -⟩ := bind_eq_ok.1 h
    rw [mapError_eq_ok] at hselect
    rw [resolve_eq hselect] at h
    obtain ⟨framework, hframework, h⟩ := bind_eq_ok.1 h
    obtain ⟨file, hfile, h⟩ := bind_eq_ok.1 h
    exact ⟨candidate, framework, file, hselect, hframework, mapError_eq_ok.1 hfile,
      (Except.ok.inj h).symm⟩
  · rintro ⟨candidate, framework, file, hselect, hframework, hfile, rfl⟩
    rw [resolve_eq hselect]
    exact bind_eq_ok.2 ⟨framework, hframework, bind_eq_ok.2 ⟨file, mapError_eq_ok.2 hfile, rfl⟩⟩

/-- A project is refused for its framework, or because the path of its file cannot be resolved. -/
theorem resolve_eq_error_iff {candidate : Option Candidate}
    (hselect : Project.select p.configurations (pinOf s) = .ok candidate) :
    resolve d p s = .error f ↔ frameworkOf s (candidate.map (·.configuration)) = .error f ∨
      ∃ framework g, frameworkOf s (candidate.map (·.configuration)) = .ok framework ∧
        p.file d = .error g ∧ f = .path g := by
  rw [resolve_eq hselect, bind_eq_error]
  refine or_congr_right ⟨?_, ?_⟩
  · rintro ⟨framework, hframework, h⟩
    refine ⟨framework, ?_⟩
    cases hfile : p.file d with
    | ok file =>
      rw [hfile] at h
      cases h
    | error g =>
      rw [hfile] at h
      exact ⟨g, hframework, rfl, (Except.error.inj h).symm⟩
  · rintro ⟨framework, g, hframework, hfile, rfl⟩
    refine ⟨framework, hframework, ?_⟩
    rw [hfile]
    rfl

end Endings

/-! ### The folder for the output -/

section Output

/-- The folder for the user's own builds of the chosen configuration. -/
def userFolder (r : ResolvedProject) (chosen : Option BuildConfiguration) : Path :=
  r.folder ++ Path.ofText ((nonempty (chosen.bind (·.outputPath))).getD "bin")

/-- The folder for the output is named by one name. -/
theorem isName_outputName (s : Settings) : Path.IsName (outputName s) := by
  unfold outputName
  cases s.publish <;> exact ⟨by decide +kernel, by decide +kernel, by decide +kernel⟩

theorem outputName_ne_up (s : Settings) : outputName s ≠ ['.', '.'] := by
  unfold outputName
  cases s.publish <;> decide +kernel

/-- The name tells whether the project was published. -/
theorem publish_of_outputName (h : outputName s = outputName s₁) : s.publish = s₁.publish := by
  unfold outputName at h
  have h := List.append_cancel_left h
  cases hs : s.publish <;> cases hs₁ : s₁.publish <;> simp [hs, hs₁] at h ⊢

/-- The output goes to a folder directly below that of the user's own builds. -/
theorem output_located {file : Path} : (located p s chosen framework file).output =
    ((located p s chosen framework file).userFolder chosen).child (outputName s) :=
  Path.append_child _ _ (isName_outputName s)

end Output

/-! ### The resolution -/

section Resolution

/-- What the project is resolved to keeps the output of listings apart: from the folder of the user's
own builds, and for a published project from that of a built one. These folders are different even
when the paths hold two dots. -/
structure IsApart (p : Project) (s : Settings) (chosen : Option BuildConfiguration)
    (r : ResolvedProject) : Prop where
  isAbsolute : r.output.isAbsolute = true
  name : r.output.name = outputFolderName ++ (if s.publish then "_published" else "").toList
  fromUser : r.output.location ≠ (r.userFolder chosen).location
  fromOther : ∀ d₁ s₁ r₁, resolve d₁ p s₁ = .ok r₁ → s₁.publish ≠ s.publish →
    r₁.output.location ≠ r.output.location

/-- Whatever a project is resolved to, its output is below some folder, in one that its options name.
-/
theorem exists_output_eq (h : resolve d p s = .ok r) :
    ∃ q : Path, r.output = q.child (outputName s) := by
  obtain ⟨candidate, framework, file, -, -, -, rfl⟩ := resolve_eq_ok_iff.1 h
  exact ⟨_, output_located⟩

theorem location_ne_of_publish_ne (h : resolve d p s = .ok r) (h₁ : resolve d₁ p s₁ = .ok r₁)
    (hne : s₁.publish ≠ s.publish) : r₁.output.location ≠ r.output.location := by
  obtain ⟨q, hq⟩ := exists_output_eq h
  obtain ⟨q₁, hq₁⟩ := exists_output_eq h₁
  rw [hq, hq₁, Path.location_child q (isName_outputName s) (outputName_ne_up s),
    Path.location_child q₁ (isName_outputName s₁) (outputName_ne_up s₁)]
  intro heq
  have hlast := (List.append_inj' heq rfl).2
  exact hne (publish_of_outputName (List.singleton_inj.1 hlast))

/-- The folder is apart from the user's own, right below it. -/
theorem isApart_of_resolve {candidate : Option Candidate} (h : resolve d p s = .ok r)
    (hselect : Project.select p.configurations (pinOf s) = .ok candidate) :
    IsApart p s (candidate.map (·.configuration)) r := by
  obtain ⟨candidate₁, framework, file, hselect₁, -, hfile, hr⟩ := resolve_eq_ok_iff.1 h
  obtain rfl := Except.ok.inj (hselect.symm.trans hselect₁)
  have houtput : r.output = (r.userFolder (candidate.map (·.configuration))).child (outputName s) :=
    hr ▸ output_located
  refine ⟨?_, ?_, ?_, fun _ _ _ h₁ hne => location_ne_of_publish_ne h h₁ hne⟩
  · have hfile : file.isAbsolute = true := Disk.isAbsolute_of_resolve hfile
    have hfolder : file.parent.isAbsolute = true := hfile
    rw [hr]
    exact Path.isAbsolute_append hfolder _
  · rw [houtput, Path.name_child _ (isName_outputName s)]
    rfl
  · rw [houtput, Path.location_child _ (isName_outputName s) (outputName_ne_up s)]
    simp

/-- A framework that the user asks for is handed on as it is. -/
theorem framework_of_resolve (h : resolve d p s = .ok r) (hpin : s.pin ≠ []) :
    r.framework = s.pin ∧ r.frameworkArgs s = ["-f".toList, s.pin] := by
  obtain ⟨candidate, framework, file, -, hframework, -, rfl⟩ := resolve_eq_ok_iff.1 h
  have hpinOf : pinOf s = some s.pin := by rw [pinOf_eq, if_neg hpin]
  unfold frameworkOf at hframework
  rw [hpinOf] at hframework
  obtain rfl : s.pin = framework := Except.ok.inj hframework
  refine ⟨rfl, ?_⟩
  unfold frameworkArgs located
  simp [hpinOf]

/-- A candidate is selected when all versions can be read. -/
theorem exists_select (hconfigurations : ∀ c ∈ p.configurations, Version.Readable (c.framework.getD []))
    (hpin : Version.Readable s.pin) :
    ∃ candidate, Project.select p.configurations (pinOf s) = .ok candidate := by
  by_cases hnone : p.configurations = []
  · rw [hnone]
    exact ⟨none, rfl⟩
  · refine (Project.exists_select_iff hnone).2 ⟨hconfigurations, ?_⟩
    rw [pinOf_eq]
    split
    · decide
    · exact hpin

/-- The version of the framework that was selected can be read. -/
theorem readable_frameworkIn {candidate : Option Candidate} {pin : Option Text}
    (hselect : Project.select p.configurations pin = .ok candidate)
    (hconfigurations : ∀ c ∈ p.configurations, Version.Readable (c.framework.getD [])) :
    Version.Readable (frameworkIn (candidate.map (·.configuration))) := by
  have hfallback : Version.Readable "net7.0".toList := by decide +kernel
  unfold frameworkIn nonempty
  cases candidate with
  | none => exact hfallback
  | some k =>
    have hmem := List.mem_of_getElem? (Project.standsIn_of_select hselect).configuration
    have hreadable := hconfigurations _ hmem
    change Version.Readable ((Option.filter _ k.configuration.framework).getD _)
    cases hframework : k.configuration.framework with
    | none => exact hfallback
    | some t =>
      rw [hframework] at hreadable
      rw [Option.filter_some]
      split
      · exact hreadable
      · exact hfallback

section Chosen

variable {candidate : Option Candidate}
  (hselect : Project.select p.configurations (pinOf s) = .ok candidate)
  (hconfigurations : ∀ c ∈ p.configurations, Version.Readable (c.framework.getD []))

include hselect hconfigurations

/-- A project is rejected exactly when its framework is refused. -/
theorem exists_rejects_iff : (∃ f, resolve d p s = .error f ∧ f.Rejects) ↔
    IsRefused s (candidate.map (·.configuration)) := by
  simp only [resolve_eq_error_iff hselect]
  rcases frameworkOf_cases (readable_frameworkIn hselect hconfigurations) with
    ⟨hfound, framework, hframework⟩ | ⟨hrefused, f, hframework, hrejects⟩
  · refine iff_of_false ?_ hfound
    rintro ⟨f, hf | ⟨-, g, -, -, rfl⟩, hrejects⟩
    · rw [hframework] at hf
      cases hf
    · exact not_rejects_path g hrejects
  · exact iff_of_true ⟨f, Or.inl hframework, hrejects⟩ hrefused

theorem exists_resolve_iff : (∃ r, resolve d p s = .ok r) ↔
    ¬IsRefused s (candidate.map (·.configuration)) ∧ ∃ file, p.file d = .ok file := by
  simp only [resolve_eq_ok_iff]
  rcases frameworkOf_cases (readable_frameworkIn hselect hconfigurations) with
    ⟨hfound, framework, hframework⟩ | ⟨hrefused, f, hframework, -⟩
  · rw [and_iff_right hfound]
    constructor
    · rintro ⟨r, -, -, file, -, -, hfile, -⟩
      exact ⟨file, hfile⟩
    · rintro ⟨file, hfile⟩
      exact ⟨_, candidate, framework, file, hselect, hframework, hfile, rfl⟩
  · refine iff_of_false ?_ fun h => h.1 hrefused
    rintro ⟨r, candidate₁, framework, -, hselect₁, hframework₁, -⟩
    obtain rfl := Except.ok.inj (hselect.symm.trans hselect₁)
    rw [hframework] at hframework₁
    cases hframework₁

end Chosen

/-- A project is refused exactly when the user asks for no framework and the code for that of the
chosen configuration cannot be listed. Otherwise it is resolved, if the path of its file can be; then
its output is kept apart, and a framework that the user asks for is handed on. No number in a version
may be too long. -/
theorem resolve_rejects_or_keeps_apart (d : Disk) (p : Project) (s : Settings)
    (hconfigurations : ∀ c ∈ p.configurations, Version.Readable (c.framework.getD []))
    (hpin : Version.Readable s.pin) :
    ∃ candidate, Project.select p.configurations (pinOf s) = .ok candidate ∧
      ((∃ f, resolve d p s = .error f ∧ f.Rejects) ↔
        IsRefused s (candidate.map (·.configuration))) ∧
      ((∃ r, resolve d p s = .ok r) ↔
        ¬IsRefused s (candidate.map (·.configuration)) ∧ ∃ file, p.file d = .ok file) ∧
      ∀ r, resolve d p s = .ok r → IsApart p s (candidate.map (·.configuration)) r ∧
        (s.pin ≠ [] → r.framework = s.pin ∧ r.frameworkArgs s = ["-f".toList, s.pin]) := by
  obtain ⟨candidate, hselect⟩ := exists_select hconfigurations hpin
  refine ⟨candidate, hselect, exists_rejects_iff hselect hconfigurations,
    exists_resolve_iff hselect hconfigurations, fun r h => ?_⟩
  exact ⟨isApart_of_resolve h hselect, framework_of_resolve h⟩

/-- A project whose builds go two levels up. -/
def upward : Project where
  path := "/work/App/App.csproj"
  configurations :=
    [{ name := "Release", framework := some "net8.0", outputPath := some "bin/../../out" }]

/-- A project whose output lies above it, published. -/
theorem resolve_upward_keeps_apart :
    ∃ candidate, Project.select upward.configurations none = .ok candidate ∧
      ∀ r, resolve { tree := .empty, cwd := [] } upward { publish := true } = .ok r →
        IsApart upward { publish := true } (candidate.map (·.configuration)) r := by
  obtain ⟨candidate, hselect, -, -, hr⟩ :=
    resolve_rejects_or_keeps_apart { tree := .empty, cwd := [] } upward { publish := true } (by decide)
      (by decide)
  exact ⟨candidate, hselect, fun r h => (hr r h).1⟩

example :
    (resolve { tree := .empty, cwd := [] } upward { publish := true }).toOption.map (·.output.text) =
      some "/work/App/bin/../../out/jitscope-v0.1.0_published".toList := by
  cbv

end Resolution

end ResolvedProject

end JitInspect
