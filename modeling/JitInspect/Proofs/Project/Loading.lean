import JitInspect.Proofs.FileTree.RealPath
import JitInspect.Proofs.Markup.ReadBack
import JitInspect.Proofs.Project.Conditions
import JitInspect.Proofs.Project.Resolution
import JitInspect.Proofs.Text.Marked
import JitInspect.Proofs.Text.Trim
import Mathlib.Data.Bool.AllAny

/-!
# From a project file to its resolution

Of a document the settings count that stand last in the groups without a condition
(`Markup.Element.setting`). They tell the frameworks that the project is built for
(`Markup.Element.frameworks`), each of which gives a release and a debug configuration
(`Properties.configurations_eq`).

Of these the release configuration is chosen whose framework comes first of those with the greatest version
(`Foremost`), and its output goes where the document says, or else to the usual folder, with slashes in
place of backslashes (`Properties.ofText_outputPath`). The file of a project that was loaded is found again
(`Project.file_ofRoot`), so the project is resolved whenever the code for that framework can be listed.
-/

namespace JitInspect

open Markup

/-! ### What a document says -/

section Settings

/-- The values that a document gives for a setting in the groups without a condition, in its order. A
blank one is none. -/
def Markup.Element.given (root : Element) (name : Text) : List Text :=
  ((((root.all.filter Properties.isGroup).flatMap Element.children).filter fun e =>
    e.name.localName = name).map fun e => Text.strip e.text).filter (· ≠ [])

/-- The value of a setting: the last one that is given. -/
def Markup.Element.setting (root : Element) (name : Text) : Option Text := (root.given name).getLast?

/-- The frameworks that a document names, in its order, with semicolons between them. -/
def Markup.Element.frameworks (root : Element) : List Text :=
  ((List.splitOn ';' ((root.setting "TargetFrameworks" <|> root.setting "TargetFramework").getD [])).map
    Text.strip).filter (· ≠ [])

/-- The frameworks that the project of a document is built for. If the document names none, there is one
that is not known. -/
def Markup.Element.targets (root : Element) : List (Option Text) :=
  if root.frameworks = [] then [none] else root.frameworks.map some

/-- The folder that a document names for the output of release builds for a framework, or else the usual
one. -/
def Markup.Element.releaseFolder (root : Element) (framework : Option Text) : Text :=
  (root.setting "OutputPath").getD ("bin/Release/" ++ framework.getD [])

/-- The text with slashes in place of backslashes. -/
def Text.slashed (t : Text) : Text := t.map fun c => if c = '\\' then '/' else c

end Settings

namespace Properties

variable {root : Element} {name : Text} {f : Option Text}

section Reading

/-- The last value of a name is the one that counts. -/
theorem lookup_reverse (ps : List (Text × Text)) (name : Text) :
    ps.reverse.lookup name = ((ps.filter fun p => p.1 = name).map Prod.snd).getLast? := by
  induction ps using List.reverseRecOn with
  | nil => rfl
  | append_singleton ps p ih =>
    obtain ⟨key, value⟩ := p
    rw [List.reverse_concat', List.lookup_cons, List.filter_append]
    by_cases hkey : key = name
    · simp [hkey]
    · have hne : (name == key) = false := beq_eq_false_iff_ne.2 (Ne.symm hkey)
      simp [hne, hkey, ih]

/-- The values of a name in a group are the texts of its elements that are not blank. -/
theorem map_snd_filterMap_ofElement (es : List Element) (name : Text) :
    ((es.filterMap ofElement).filter fun p => p.1 = name).map Prod.snd =
      ((es.filter fun e => e.name.localName = name).map fun e => Text.strip e.text).filter (· ≠ []) := by
  induction es with
  | nil => rfl
  | cons e es ih =>
    rw [List.filterMap_cons, ofElement]
    by_cases hname : e.name.localName = name <;> by_cases hblank : Text.strip e.text = [] <;>
      simp [hname, hblank, ih]

/-- The value of a property is the setting of the document. -/
theorem get?_eq_setting (root : Element) (name : Text) :
    (ofRoot root).get? name = root.setting name := by
  have hentries : (ofRoot root).entries =
      ((root.all.filter isGroup).flatMap Element.children).filterMap ofElement := by
    rw [List.filterMap_flatMap]
    rfl
  rw [get?, lookup_reverse, hentries, map_snd_filterMap_ofElement]
  rfl

theorem setting_ne_nil {value : Text} (h : root.setting name = some value) : value ≠ [] := by
  have hmem := List.mem_of_getLast? h
  simpa using (List.mem_filter.1 hmem).2

/-- The frameworks of the properties are the targets of the document. -/
theorem frameworks_ofRoot (root : Element) : (ofRoot root).frameworks = root.targets := by
  have hsplit : splitFrameworks ((root.setting "TargetFrameworks" <|>
      root.setting "TargetFramework").getD []) = root.frameworks := by
    unfold splitFrameworks Element.frameworks
    rw [Text.splitOn_singleton]
  unfold frameworks Element.targets
  rw [get?_eq_setting, get?_eq_setting]
  dsimp only
  rw [hsplit]
  cases root.frameworks with
  | nil => rfl
  | cons f fs => rfl

/-- Each framework gives one release and one debug configuration. -/
theorem configurations_eq (p : Properties) : p.configurations =
    p.frameworks.map (p.configuration "Release") ++ p.frameworks.map (p.configuration "Debug") := by
  unfold configurations configurationNames
  simp

end Reading

/-! ### Where the output goes -/

section Output

/-- Replacing backslashes is slashing each character. -/
theorem replace_eq_slashed (t : Text) : Text.replace ['\\'] ['/'] t = t.slashed :=
  Text.replace_singleton '\\' '/' t

/-- Slashing a path that is joined with slashes is slashing its names. -/
theorem slashed_join (ps : List Text) :
    (Text.join ['/'] ps).slashed = Text.join ['/'] (ps.map Text.slashed) :=
  Text.map_join _ ['/'] ps

/-- The names of a text with slashes in place of backslashes come from its own names. -/
theorem namesOf_slashed (t : Text) :
    Path.namesOf t.slashed = (Path.namesOf t).flatMap fun n => Path.namesOf n.slashed := by
  have hjoin : Text.join ['/'] (Text.splitOn ['/'] t) = t := by
    rw [Text.join_singleton, Text.splitOn_singleton, List.intercalate_splitOn]
  have hskipped : ∀ ps : List Text, (ps.filter fun n => n ≠ [] && n ≠ ['.']).flatMap
      (fun n => Path.namesOf (Text.slashed n)) = ps.flatMap fun n => Path.namesOf n.slashed := by
    intro ps
    induction ps with
    | nil => rfl
    | cons n ps ih =>
      rw [List.filter_cons, List.flatMap_cons]
      by_cases hn : n = [] ∨ n = ['.']
      · rcases hn with rfl | rfl <;> exact ih
      · rw [not_or] at hn
        rw [if_pos (by simp [hn]), List.flatMap_cons, ih]
  conv_lhs => rw [← hjoin]
  rw [slashed_join, Path.namesOf_join, List.flatMap_map, ← hskipped]
  rfl

/-- The usual folder as a path. -/
theorem usualOutput_eq (hhead : (f.getD []).head? ≠ some '/') :
    usualOutput "Release" f = Path.text ⟨.here, "bin" :: "Release" :: Path.namesOf (f.getD [])⟩ := by
  unfold usualOutput
  rw [Path.child_eq hhead]
  rfl

/-- The usual output lies in a folder of the configuration and one of the framework. -/
theorem namesOf_usualOutput (hhead : (f.getD []).head? ≠ some '/') :
    Path.namesOf (usualOutput "Release" f) = Path.namesOf ("bin/Release/" ++ f.getD []) := by
  have hproper : Path.Proper ⟨.here, "bin" :: "Release" :: Path.namesOf (f.getD [])⟩ :=
    List.forall_mem_cons.2 ⟨⟨by decide, by decide, by decide⟩, List.forall_mem_cons.2
      ⟨⟨by decide, by decide, by decide⟩, fun _ hn => Path.isName_of_mem_namesOf hn⟩⟩
  have hback := congrArg Path.parts (Path.ofText_text hproper (List.cons_ne_nil _ _))
  rw [usualOutput_eq hhead]
  exact hback.trans (Path.namesOf_append_cons "bin/Release".toList (f.getD [])).symm

theorem exists_usualOutput_eq (hhead : (f.getD []).head? ≠ some '/') :
    ∃ rest, usualOutput "Release" f = 'b' :: rest := by
  rw [usualOutput_eq hhead, Path.text_eq (List.cons_ne_nil _ _),
    Text.join_cons _ _ (List.cons_ne_nil _ _)]
  exact ⟨_, rfl⟩

/-- A text that is not empty counts. -/
theorem nonempty_some {t : Text} (ht : t ≠ []) : ResolvedProject.nonempty (some t) = some t := by
  unfold ResolvedProject.nonempty
  rw [Option.filter_some, if_pos (by simpa using ht)]

/-- The output of release builds goes where the document says, or else to the usual folder. -/
theorem ofText_outputPath (hhead : (f.getD []).head? ≠ some '/') :
    Path.ofText ((ResolvedProject.nonempty ((ofRoot root).configuration "Release" f).outputPath).getD
      "bin") = Path.ofText (root.releaseFolder f).slashed := by
  unfold configuration Element.releaseFolder
  dsimp only
  rw [replace_eq_slashed, get?_eq_setting]
  cases hsetting : root.setting "OutputPath" with
  | some value =>
    have hvalue : value.slashed ≠ [] := by
      unfold Text.slashed
      simpa using setting_ne_nil hsetting
    rw [Option.getD_some, Option.getD_some, nonempty_some hvalue, Option.getD_some]
  | none =>
    obtain ⟨rest, hrest⟩ := exists_usualOutput_eq hhead
    have husual : (usualOutput "Release" f).slashed ≠ [] := hrest ▸ List.cons_ne_nil _ _
    have hanchor : Path.anchorOf (usualOutput "Release" f).slashed = .here :=
      Path.anchorOf_eq_here (by rw [hrest]; exact fun hslash => nomatch hslash)
    have hnames : Path.namesOf (usualOutput "Release" f).slashed =
        Path.namesOf (Text.slashed ("bin/Release/" ++ f.getD [])) := by
      rw [namesOf_slashed, namesOf_usualOutput hhead, ← namesOf_slashed]
    rw [Option.getD_none, Option.getD_none, nonempty_some husual, Option.getD_some, Path.ofText,
      hanchor, hnames]
    rfl

end Output

end Properties

/-! ### The framework that is chosen -/

section Choice

/-- The framework is in the list. No framework in it has a greater version, and those with the same version
stand behind it. -/
def Foremost (fs : List (Option Text)) (f : Option Text) : Prop :=
  ∃ i v, fs[i]? = some f ∧ Version.rank f = .ok v ∧
    ∀ (j : ℕ) (g : Option Text) (w : Version), fs[j]? = some g → Version.rank g = .ok w →
      w.pair ≤ v.pair ∧ (v = w → i ≤ j)

variable {p : Properties} {k : Candidate} {f : Option Text}

/-- The release configurations come first. -/
theorem Properties.getElem?_configurations (p : Properties) (i : ℕ) :
    p.configurations[i]? = if i < p.frameworks.length then p.frameworks[i]?.map (p.configuration "Release")
      else p.frameworks[i - p.frameworks.length]?.map (p.configuration "Debug") := by
  rw [p.configurations_eq, List.getElem?_append, List.length_map, List.getElem?_map, List.getElem?_map]

/-- Every project has a framework, if only the one that is not known. -/
theorem Properties.frameworks_ne_nil (p : Properties) : p.frameworks ≠ [] := by
  unfold frameworks
  dsimp only
  split <;> simp_all

/-- In lower case the name of a release is that of a release. -/
theorem lower_release : Text.lower "Release".toList = "release".toList := by decide +kernel

theorem lower_debug : Text.lower "Debug".toList ≠ "release".toList := by decide +kernel

/-- The framework of the configuration that is chosen comes first of those with the greatest version. -/
theorem foremost_of_isBest
    (hbest : Candidate.IsBest (Candidate.Admitted p.configurations none) k) :
    ∃ f, k.configuration = p.configuration "Release" f ∧ Foremost p.frameworks f := by
  obtain ⟨⟨⟨hstands, hrelease⟩, -⟩, hprecedes⟩ := hbest
  have hfirst : 0 < p.frameworks.length := List.length_pos_iff.2 p.frameworks_ne_nil
  have hsome : ∃ c ∈ p.configurations, Text.lower c.name = "release".toList := by
    refine ⟨p.configuration "Release" p.frameworks[0], List.mem_of_getElem? (i := 0) ?_, lower_release⟩
    rw [p.getElem?_configurations, if_pos hfirst, List.getElem?_eq_getElem hfirst, Option.map_some]
  have hname := hrelease hsome
  obtain ⟨hplace, found, hfound, hversion⟩ := hstands
  rw [p.getElem?_configurations] at hplace
  split at hplace
  case isFalse =>
    -- The debug configurations are none of the release ones.
    obtain ⟨f, -, hf⟩ := Option.map_eq_some_iff.1 hplace
    rw [← hf] at hname
    exact absurd hname lower_debug
  case isTrue hlt =>
    obtain ⟨f, hat, hf⟩ := Option.map_eq_some_iff.1 hplace
    rw [← hf] at hfound
    refine ⟨f, hf.symm, k.index, k.version, hat, Version.rank_eq_ok_iff.2 ⟨found, hfound, hversion⟩, ?_⟩
    intro j g w hg hw
    obtain ⟨found₁, hfound₁, hw⟩ := Version.rank_eq_ok_iff.1 hw
    have hj : j < p.frameworks.length := (List.getElem?_eq_some_iff.1 hg).1
    have hother : Candidate.Admitted p.configurations none ⟨j, p.configuration "Release" g, w⟩ := by
      refine ⟨⟨⟨?_, found₁, hfound₁, hw⟩, fun _ => lower_release⟩, fun v hv => nomatch hv⟩
      rw [p.getElem?_configurations, if_pos hj, hg, Option.map_some]
    obtain ⟨hatLeast, hindex⟩ := hprecedes _ hother
    exact ⟨Version.atLeast_iff.1 hatLeast, hindex⟩

end Choice

/-! ### The resolution of a project that was loaded -/

section Resolution

/-- A moniker that starts with a slash has no version. -/
theorem Version.ofMoniker_of_slash {t : Text} (hhead : t.head? = some '/') : ofMoniker t = .ok Option.none := by
  obtain ⟨t, rfl⟩ := List.head?_eq_some_iff.1 hhead
  have hstart : Text.trimStart Text.isBlank ('/' :: t) = '/' :: t :=
    List.dropWhile_cons_of_neg (by decide)
  obtain ⟨rest, hrest⟩ := Text.prefix_trimEnd Text.isBlank (by decide : Text.isBlank '/' = false) [] t
  have hstrip : Text.strip ('/' :: t) = '/' :: rest := by
    unfold Text.strip Text.trim
    rw [hstart]
    exact hrest.symm
  unfold ofMoniker
  rw [hstrip]
  rfl

end Resolution

namespace Project

variable {d : Disk} {written : Text} {p : Project} {root : Element} {content : Bytes} {loc : Location}
  {f : Option Text} {s : Settings}

section Loaded

/-- What is loaded is the project of the document in the file. -/
theorem exists_document_of_load (h : load d written = .ok p) :
    ∃ loc content root, d.locate (Path.ofText written).text = .ok loc ∧
      d.tree.get? loc = some (.file content) ∧ Element.ofBytes content = .ok root ∧
        p = ofRoot (Path.ofText written) root := by
  unfold load ofBytes at h
  dsimp only at h
  split at h
  · cases h
  · cases h
  split at h
  · cases h
  case h_2 content hread =>
    obtain ⟨loc, hloc, hcontent, -⟩ := Disk.readBytes_eq_ok.1 hread
    split at h
    case h_1 root hroot => exact ⟨loc, content, root, hloc, hcontent, hroot, (Except.ok.inj h).symm⟩
    all_goals cases h

/-- The file of a project that was loaded is found where it was loaded from. -/
theorem file_ofRoot (horderly : d.tree.Orderly) (hloc : d.locate (Path.ofText written).text = .ok loc)
    (hcontent : d.tree.get? loc = some (.file content)) (root : Element) :
    (ofRoot (Path.ofText written) root).file d = .ok (Path.ofLocation loc) := by
  have hparts : (Path.ofText written).parts ≠ [] := by
    intro hnil
    have hdirectory := Disk.isDirectory_of_no_parts hnil (Disk.locate_eq_ok.1 hloc).2.2.2.1
    obtain ⟨loc₁, hloc₁, hentry⟩ := Disk.isDirectory_eq_ok_true.1 hdirectory
    obtain rfl := Except.ok.inj (hloc.symm.trans hloc₁)
    rw [hcontent] at hentry
    cases hentry
  have hproper := Path.proper_ofText written
  have hback : Path.ofText (Path.ofText written).text = Path.ofText written :=
    Path.ofText_text hproper hparts
  have hlink : d.tree.link? loc = none := by rw [FileTree.link?, hcontent]
  unfold file ofRoot
  dsimp only
  rw [hback]
  exact Disk.resolve_of_locate horderly hproper hloc hcontent hlink

/-- A target is never empty. -/
theorem ne_nil_of_mem_targets {t : Text} (h : some t ∈ root.targets) : t ≠ [] := by
  unfold Element.targets at h
  split at h
  · cases List.mem_singleton.1 h
  · obtain ⟨t₁, hmem, ht⟩ := List.mem_map.1 h
    obtain rfl := Option.some.inj ht
    simpa using (List.mem_filter.1 hmem).2

/-- The framework of the configuration that is chosen. -/
theorem frameworkIn_configuration (hf : f ∈ root.targets) (name : Text) :
    ResolvedProject.frameworkIn (some ((Properties.ofRoot root).configuration name f)) =
      f.getD "net7.0" := by
  cases f with
  | none => rfl
  | some t =>
    have ht := Properties.nonempty_some (ne_nil_of_mem_targets hf)
    change (ResolvedProject.nonempty (some t)).getD _ = _
    rw [ht]

/-- The version of each target can be read, if those of the frameworks that are named can. -/
theorem readable_of_mem_targets (h : ∀ t ∈ root.frameworks, Version.Readable t)
    (hf : f ∈ root.targets) : Version.Readable (f.getD []) := by
  have hnone : Version.Readable [] := by decide
  unfold Element.targets at hf
  split at hf
  · rw [List.mem_singleton.1 hf]
    exact hnone
  · obtain ⟨t, ht, rfl⟩ := List.mem_map.1 hf
    exact h t ht

/-- A framework whose code can be listed is not written like an absolute path. -/
theorem head?_ne_of_listable (hlistable : ¬ResolvedProject.Unlistable s (f.getD "net7.0")) :
    (f.getD []).head? ≠ some '/' := by
  cases f with
  | none => exact fun h => nomatch h
  | some t => exact fun hhead => hlistable (Or.inl (Version.ofMoniker_of_slash hhead))

theorem readable_of_mem_configurations (h : ∀ t ∈ root.frameworks, Version.Readable t) (path : Path) :
    ∀ c ∈ (ofRoot path root).configurations, Version.Readable (c.framework.getD []) := by
  intro c hc
  change c ∈ (Properties.ofRoot root).configurations at hc
  rw [Properties.configurations_eq, Properties.frameworks_ofRoot] at hc
  rcases List.mem_append.1 hc with hc | hc
  · obtain ⟨f, hf, rfl⟩ := List.mem_map.1 hc
    exact readable_of_mem_targets h hf
  · obtain ⟨f, hf, rfl⟩ := List.mem_map.1 hc
    exact readable_of_mem_targets h hf

/-- A release configuration is chosen for the framework that comes first of those with the greatest version.
-/
theorem exists_select_release (hreadable : ∀ t ∈ root.frameworks, Version.Readable t) (path : Path) :
    ∃ k f, select (ofRoot path root).configurations none = .ok (some k) ∧
      k.configuration = (Properties.ofRoot root).configuration "Release" f ∧
        Foremost root.targets f := by
  have hconfigurations := readable_of_mem_configurations hreadable path
  have hne : (ofRoot path root).configurations ≠ [] := by
    change (Properties.ofRoot root).configurations ≠ []
    rw [Properties.configurations_eq]
    simp [Properties.frameworks_ne_nil]
  have hpin : Version.ofMoniker ((none : Option Text).getD []) = .ok none := by decide
  obtain ⟨choice, hchoice⟩ := (exists_select_iff hne).2
    ⟨hconfigurations, Version.exists_ofMoniker_iff.1 ⟨_, hpin⟩⟩
  cases choice with
  | none => exact absurd (select_eq_none_iff.1 hchoice) hne
  | some k =>
    have hbest := (select_eq_some_iff hne hconfigurations hpin).1 hchoice
    obtain ⟨f, hf, hforemost⟩ := foremost_of_isBest hbest
    exact ⟨k, f, hchoice, hf, Properties.frameworks_ofRoot root ▸ hforemost⟩

end Loaded

section Resolved

/-- The framework of a run for which the user asks for none is that of the chosen configuration. -/
theorem framework_of_no_pin {chosen : Option BuildConfiguration} {framework : Text}
    (hpin : ResolvedProject.pinOf s = none)
    (h : ResolvedProject.frameworkOf s chosen = .ok framework) :
    framework = ResolvedProject.frameworkIn chosen := by
  unfold ResolvedProject.frameworkOf at h
  rw [hpin] at h
  change (ResolvedProject.gate (ResolvedProject.frameworkIn chosen) s).map _ = _ at h
  cases hgate : ResolvedProject.gate (ResolvedProject.frameworkIn chosen) s with
  | error e =>
    rw [hgate] at h
    cases h
  | ok _ =>
    rw [hgate] at h
    exact (Except.ok.inj h).symm

/-- A project file that is loaded gives a release and then a debug configuration for each framework that it
names. When no number in their versions is too long and the user asks for no framework, the project is
resolved to the release configuration for the framework that comes first of those with the greatest
version, unless the code for this framework cannot be listed: then it is refused. The output goes directly
below the folder that the document names, or else below the usual one for this framework. -/
theorem load_then_resolve (d : Disk) (written : Text) (p : Project) (horderly : d.tree.Orderly)
    (hload : load d written = .ok p) :
    ∃ loc content root, d.locate (Path.ofText written).text = .ok loc ∧
      d.tree.get? loc = some (.file content) ∧ Element.ofBytes content = .ok root ∧
      p.configurations.map (fun c => (c.name, c.framework)) =
        root.targets.map (fun f => ("Release".toList, f)) ++
          root.targets.map (fun f => ("Debug".toList, f)) ∧
      ((∀ t ∈ root.frameworks, Version.Readable t) → ∀ s : Settings, s.pin = [] →
        ∃ f, Foremost root.targets f ∧
          (ResolvedProject.Unlistable s (f.getD "net7.0") →
            ∃ e, ResolvedProject.resolve d p s = .error e ∧ e.Rejects) ∧
          (¬ResolvedProject.Unlistable s (f.getD "net7.0") →
            ∃ r, ResolvedProject.resolve d p s = .ok r ∧ r.configuration = "Release".toList ∧
              r.framework = f.getD "net7.0" ∧
              r.output = (Path.ofLocation loc.dropLast ++
                Path.ofText (root.releaseFolder f).slashed).child (ResolvedProject.outputName s))) := by
  obtain ⟨loc, content, root, hloc, hcontent, hroot, rfl⟩ := exists_document_of_load hload
  refine ⟨loc, content, root, hloc, hcontent, hroot, ?_, fun hreadable s hpin => ?_⟩
  · change (Properties.ofRoot root).configurations.map _ = _
    rw [Properties.configurations_eq, Properties.frameworks_ofRoot, List.map_append, List.map_map,
      List.map_map]
    rfl
  -- Without a pin the release configuration of the foremost framework is selected, and it decides.
  have hnoPin : ResolvedProject.pinOf s = none := by rw [ResolvedProject.pinOf_eq, if_pos hpin]
  obtain ⟨k, f, hselect, hk, hforemost⟩ := exists_select_release hreadable (Path.ofText written)
  rw [← hnoPin] at hselect
  have hconfigurations := readable_of_mem_configurations hreadable (Path.ofText written)
  have hf : f ∈ root.targets := by
    obtain ⟨i, v, hat, -⟩ := hforemost
    exact List.mem_of_getElem? hat
  have hframework : ResolvedProject.frameworkIn (some k.configuration) = f.getD "net7.0" := by
    rw [hk, frameworkIn_configuration hf]
  have hrefused : ResolvedProject.IsRefused s (some k.configuration) ↔
      ResolvedProject.Unlistable s (f.getD "net7.0") := by
    rw [ResolvedProject.IsRefused, hframework, and_iff_right hpin]
  refine ⟨f, hforemost, fun hunlistable => ?_, fun hlistable => ?_⟩
  · exact (ResolvedProject.exists_rejects_iff hselect hconfigurations).2 (hrefused.2 hunlistable)
  · obtain ⟨r, hr⟩ := (ResolvedProject.exists_resolve_iff hselect hconfigurations).2
      ⟨fun h => hlistable (hrefused.1 h), _, file_ofRoot horderly hloc hcontent root⟩
    obtain ⟨candidate, framework, file, hselect₁, hframework₁, hfile, rfl⟩ :=
      ResolvedProject.resolve_eq_ok_iff.1 hr
    obtain rfl : some k = candidate := Except.ok.inj (hselect.symm.trans hselect₁)
    obtain rfl : Path.ofLocation loc = file :=
      Except.ok.inj ((file_ofRoot horderly hloc hcontent root).symm.trans hfile)
    have hoption : ((some k).map (·.configuration)).bind (·.outputPath) =
        ((Properties.ofRoot root).configuration "Release" f).outputPath := by rw [← hk]; rfl
    refine ⟨_, hr, ?_, ?_, ?_⟩
    · change k.configuration.name = _
      rw [hk]
      rfl
    · exact (framework_of_no_pin hnoPin hframework₁).trans hframework
    · rw [ResolvedProject.output_located, ResolvedProject.userFolder, hoption,
        Properties.ofText_outputPath (head?_ne_of_listable hlistable)]
      rfl

/-- A document whose output goes to a folder that is written with a backslash. -/
def folderRoot : Element :=
  .mk { localName := "Project" } [] []
    [.mk { localName := "PropertyGroup" } [] []
      [.mk { localName := "TargetFramework" } [] "net8.0" [],
       .mk { localName := "OutputPath" } [] "out\\x" []]]

/-- A disk with this document. -/
def folderDisk : Disk where
  tree := (FileTree.empty.put ["App"] .directory).put ["App", "App.csproj"]
    (.file (Text.toUtf8 folderRoot.written))
  cwd := []

/-- A project that names its output folder is loaded and resolved to the folder below it. -/
theorem load_then_resolve_folder : folderDisk.tree.Orderly ∧
    ∃ p, load folderDisk "App/App.csproj" = .ok p ∧
      ∃ r, ResolvedProject.resolve folderDisk p {} = .ok r ∧ r.framework = "net8.0".toList ∧
        r.output.text = "/App/out/x/jitscope-v0.1.0".toList := by
  have horderly : folderDisk.tree.Orderly := by
    have hfolder : (FileTree.empty.put ([] ++ ["App".toList]) .directory).Orderly :=
      FileTree.orderly_empty.put rfl ⟨by decide, by decide, by decide⟩ (by decide) (by decide)
    have happ : ((FileTree.empty.put ["App".toList] .directory).put
        (["App".toList] ++ ["App.csproj".toList]) (.file (Text.toUtf8 folderRoot.written))).Orderly :=
      hfolder.put (by decide) ⟨by decide, by decide, by decide⟩ (by decide) (by decide)
    exact happ
  have hloc : folderDisk.locate (Path.ofText "App/App.csproj").text = .ok ["App", "App.csproj"] := by
    decide +kernel
  have hcontent : folderDisk.tree.get? ["App", "App.csproj"] =
      some (.file (Text.toUtf8 folderRoot.written)) := FileTree.get?_put_self _ (List.cons_ne_nil _ _) _
  have hroot : Element.ofBytes (Text.toUtf8 folderRoot.written) = .ok folderRoot :=
    ofBytes_written (by decide)
  have hload := load_of_readBytes (Disk.readBytes_eq_ok.2 ⟨_, hloc, hcontent, rfl⟩) hroot
  refine ⟨horderly, _, hload, ?_⟩
  obtain ⟨loc, content, root, hloc₁, hcontent₁, hroot₁, -, hresolved⟩ :=
    load_then_resolve folderDisk "App/App.csproj" _ horderly hload
  obtain rfl := Except.ok.inj (hloc.symm.trans hloc₁)
  obtain rfl := Entry.file.inj (Option.some.inj (hcontent.symm.trans hcontent₁))
  obtain rfl := Except.ok.inj (hroot.symm.trans hroot₁)
  have htargets : folderRoot.targets = [some "net8.0".toList] := by decide +kernel
  obtain ⟨f, ⟨i, v, hf, -⟩, -, hlistable⟩ := hresolved (by decide +kernel) {} rfl
  rw [htargets] at hf
  obtain rfl := List.mem_singleton.1 (List.mem_of_getElem? hf)
  have hversion : Version.ofMoniker "net8.0".toList = .ok (some ⟨8, 0⟩) := by decide +kernel
  have hlisted : ¬ResolvedProject.Unlistable {} "net8.0".toList := by
    unfold ResolvedProject.Unlistable
    rw [hversion]
    simp
  obtain ⟨r, hr, -, hframework, houtput⟩ := hlistable hlisted
  refine ⟨r, hr, hframework, ?_⟩
  rw [houtput]
  decide +kernel

/-- A project of which a framework has a version number that is too long is neither resolved nor refused. -/
theorem not_resolved_of_unreadable {c : BuildConfiguration} (hc : c ∈ p.configurations)
    (hunreadable : ¬Version.Readable (c.framework.getD [])) :
    (¬∃ r, ResolvedProject.resolve d p s = .ok r) ∧
      ¬∃ f, ResolvedProject.resolve d p s = .error f ∧ f.Rejects := by
  cases hchoice : select p.configurations (ResolvedProject.pinOf s) with
  | ok choice =>
    have hreadable := ((exists_select_iff (List.ne_nil_of_mem hc)).1 ⟨choice, hchoice⟩).1
    exact absurd (hreadable c hc) hunreadable
  | error e =>
    have hresolve : ResolvedProject.resolve d p s = .error (.versionTooLong e) := by
      unfold ResolvedProject.resolve
      rw [hchoice]
      rfl
    constructor
    · rintro ⟨r, hr⟩
      rw [hresolve] at hr
      cases hr
    · rintro ⟨f, hf, message, hrejected⟩
      rw [hresolve] at hf
      obtain rfl := Except.error.inj hf
      cases hrejected

/-- Each target has a release configuration. -/
theorem mem_configurations_of_mem_targets (hf : f ∈ root.targets) (path : Path) :
    (Properties.ofRoot root).configuration "Release" f ∈ (ofRoot path root).configurations := by
  change _ ∈ (Properties.ofRoot root).configurations
  rw [Properties.configurations_eq, Properties.frameworks_ofRoot]
  exact List.mem_append_left _ (List.mem_map_of_mem hf)

/-- A document that names one framework. -/
def frameworkRoot (framework : Text) : Element :=
  .mk { localName := "Project" } [] []
    [.mk { localName := "PropertyGroup" } [] [] [.mk { localName := "TargetFramework" } [] framework []]]

/-- The document that names one framework has this one target. -/
theorem targets_frameworkRoot {t : Text} (hne : t ≠ [])
    (h : ∀ c ∈ t, Text.isBlank c = false ∧ c ≠ ';') : (frameworkRoot t).targets = [some t] := by
  have hstrip : Text.strip t = t := Text.trim_of_forall fun c hc => (h c hc).1
  have hgiven : (frameworkRoot t).setting "TargetFramework" = some t := by
    have hvalues : (frameworkRoot t).given "TargetFramework" = [Text.strip t].filter (· ≠ []) := rfl
    rw [Element.setting, hvalues, hstrip]
    simp [hne]
  have hpieces : List.splitOn ';' t = [t] := List.splitOn_eq_singleton fun hmem => (h _ hmem).2 rfl
  have hframeworks : (frameworkRoot t).frameworks = [t] := by
    have hnone : (frameworkRoot t).setting "TargetFrameworks" = none := rfl
    unfold Element.frameworks
    rw [hnone, hgiven]
    simp [hpieces, hstrip, hne]
  rw [Element.targets, hframeworks]
  rfl

/-- It is a simple document, so that it is read back from its text. -/
theorem isSimple_frameworkRoot {t : Text} (h : ∀ c ∈ t, isOrdinary c = true) :
    (frameworkRoot t).isSimple = true := by
  have houter : (frameworkRoot t).isSimple =
      (Element.mk { localName := "TargetFramework" } [] t []).isSimple := by
    simp [frameworkRoot, Element.isSimple, Element.areSimple]
  rw [houter]
  exact Element.isSimple_mk.2 ⟨⟨by decide, List.all_eq_true.1 rfl⟩, rfl, rfl, h, rfl⟩

/-- A framework with a number of one digit too many. -/
def overlongFramework : Text := overlong.framework.getD []

/-- The characters of the overlong framework are those of an ordinary one. -/
theorem mem_of_mem_overlong {c : Char} (hc : c ∈ overlongFramework) : c ∈ "net9.0".toList := by
  have hparts : overlongFramework = "net".toList ++ List.replicate 4301 '9' ++ ".0".toList := rfl
  rw [hparts, List.mem_append, List.mem_append, List.mem_replicate] at hc
  rcases hc with (hc | ⟨-, rfl⟩) | hc
  · exact List.mem_append_left ['9', '.', '0'] hc
  · decide
  · exact List.mem_append_right ['n', 'e', 't', '9'] hc

/-- A disk with a document that names this framework. -/
def overlongDisk : Disk where
  tree := FileTree.empty.put ["App.csproj"]
    (.file (Text.toUtf8 (frameworkRoot overlongFramework).written))
  cwd := []

/-- A project whose version number has one digit too many is loaded, and then neither refused for its
framework nor resolved. -/
theorem load_then_resolve_overlong : ∃ p, load overlongDisk "App.csproj" = .ok p ∧
    (¬∃ r, ResolvedProject.resolve overlongDisk p {} = .ok r) ∧
      ¬∃ f, ResolvedProject.resolve overlongDisk p {} = .error f ∧ f.Rejects := by
  have hread : overlongDisk.readBytes (Path.ofText "App.csproj").text =
      .ok (Text.toUtf8 (frameworkRoot overlongFramework).written) :=
    Disk.readBytes_eq_ok.2
      ⟨["App.csproj"], by rfl, FileTree.get?_put_self _ (List.cons_ne_nil _ _) _, rfl⟩
  have hordinary : ∀ c ∈ "net9.0".toList, isOrdinary c = true ∧ Text.isBlank c = false ∧ c ≠ ';' :=
    List.all_iff_forall_prop.1 (by decide)
  have hroot : Element.ofBytes (Text.toUtf8 (frameworkRoot overlongFramework).written) =
      .ok (frameworkRoot overlongFramework) :=
    ofBytes_written (isSimple_frameworkRoot fun c hc => (hordinary c (mem_of_mem_overlong hc)).1)
  have htargets : (frameworkRoot overlongFramework).targets = [some overlongFramework] :=
    targets_frameworkRoot (List.cons_ne_nil _ _) fun c hc => (hordinary c (mem_of_mem_overlong hc)).2
  have hunreadable : ¬Version.Readable overlongFramework := by
    unfold overlongFramework
    decide +kernel
  have hmem := mem_configurations_of_mem_targets (htargets ▸ List.mem_singleton_self _)
    (Path.ofText "App.csproj")
  exact ⟨_, load_of_readBytes hread hroot, not_resolved_of_unreadable hmem hunreadable⟩

end Resolved

end Project

end JitInspect
