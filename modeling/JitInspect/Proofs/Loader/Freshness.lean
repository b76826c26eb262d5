import JitInspect.Proofs.FileTree.Places
import JitInspect.Proofs.Loader.Supply
import Mathlib.Data.Set.Basic

/-!
# Which loader a destination gets

A loader is built for a framework and a version of the toolchain, its edition. The cache is used by one
call after another, for whatever editions and destinations, and calls are cancelled and builds fail
(`LoaderCache.Usage.Reaches`). Whatever happens, each folder of the cache holds nothing but files of its
own edition (`LoaderCache.Usage.Sound`), as long as everybody else leaves the cache alone and no two of
the files concerned have the same place. So a destination that lacks one of the two files gets both for the
framework of the call and the version that the toolchain has then. A destination that has them is left as
it is, whatever they were built for (`LoaderCache.Usage.ensure_delivers`).
-/

namespace JitInspect

namespace LoaderCache

/-! ### Editions and their files -/

section Editions

/-- What a loader is built for. -/
structure Edition where
  framework : Text
  toolchain : Text
  deriving DecidableEq

/-- The files of a loader that are handed out. -/
inductive Binary where
  | library
  | settings
  deriving DecidableEq

/-- The name of the file. -/
def Binary.fileName : Binary → Text
  | library => loaderName ++ ".dll"
  | settings => loaderName ++ ".runtimeconfig.json"

/-- Both files. -/
def Binary.all : List Binary := [library, settings]

/-- Every binary is listed. -/
theorem Binary.mem_all (b : Binary) : b ∈ all := by
  cases b <;> decide

/-- The files in the folder of a loader that the cache writes or hands out. -/
inductive Part where
  | code
  | project
  | binary (b : Binary)
  deriving DecidableEq

/-- All of the files. -/
def Part.all : List Part := [code, project] ++ Binary.all.map binary

/-- Every part is listed. -/
theorem Part.mem_all (x : Part) : x ∈ all := by
  cases x with
  | code => decide
  | project => decide
  | binary b => exact List.mem_append_right _ (List.mem_map_of_mem b.mem_all)

/-- Where the file is in the folder. -/
def Part.pathIn (folder : Path) : Part → Path
  | code => folder.child (loaderName ++ ".cs")
  | project => folder.child (loaderName ++ ".csproj")
  | binary b => (outputOf folder).child b.fileName

/-- The folder of the edition. -/
def editionFolder (c : LoaderCache) (e : Edition) : Path := c.folderOf e.framework e.toolchain

/-- The path of a file of the edition in the cache. -/
def partPath (c : LoaderCache) (e : Edition) (x : Part) : Text := (x.pathIn (c.editionFolder e)).text

/-- The path of a file in a destination. -/
def copyPath (p : Path) (b : Binary) : Text := (p.child b.fileName).text

end Editions

/-- How a cache is used: the editions that are asked for, the destinations that get them, and what the
toolchain builds for an edition. -/
structure Usage where
  cache : LoaderCache
  editions : Set Edition
  destinations : Set Path
  Builds : Edition → Binary → Bytes → Prop

namespace Usage

variable {u : Usage} {e : Edition} {p : Path} {w w₁ : World} {d d₁ d₂ : Disk}

/-! ### The cache and who changes it -/

section Changes

/-- No two of the files have the same place, but for those of one name in two destinations. -/
structure Apart (u : Usage) (d : Disk) : Prop where
  parts : ∀ e ∈ u.editions, ∀ e' ∈ u.editions, ∀ (x x' : Part) (loc : Location),
    d.place (u.cache.partPath e x) = some loc → d.place (u.cache.partPath e' x') = some loc →
      e = e' ∧ x = x'
  outside : ∀ e ∈ u.editions, ∀ p ∈ u.destinations, ∀ (x : Part) (b : Binary) (loc : Location),
    d.place (copyPath p b) = some loc → d.place (u.cache.partPath e x) ≠ some loc
  copies : ∀ p ∈ u.destinations, ∀ (b b' : Binary) (loc : Location),
    d.place (copyPath p b) = some loc → d.place (copyPath p b') = some loc → b = b'

/-- The content may stand in this file of the edition. The code is the same for all of them. -/
def Vouched (u : Usage) (e : Edition) : Part → Bytes → Prop
  | .code, _ => True
  | .project, content => content = Text.toUtf8 (Loader.project e.framework)
  | .binary b, content => u.Builds e b content

/-- The files are apart, and the cache holds only what may stand there. -/
structure Sound (u : Usage) (d : Disk) : Prop where
  apart : u.Apart d
  vouched : ∀ e ∈ u.editions, ∀ (x : Part) (content : Bytes),
    d.Stores (u.cache.partPath e x) content → u.Vouched e x content

/-- A project file that is found holds the project of its edition, since it was vouched for. -/
theorem Sound.stores_project {old : Bytes} (h : u.Sound d) (he : e ∈ u.editions)
    (hold : d.Stores (u.cache.partPath e .project) old) :
    d.Stores (u.cache.partPath e .project) (Text.toUtf8 (Loader.project e.framework)) := by
  have hvouched : old = Text.toUtf8 (Loader.project e.framework) :=
    h.vouched e he .project old hold
  rwa [hvouched] at hold

/-- The files have kept their places, and what is new in the cache is among what could be made. -/
structure Leaves (u : Usage) (made : Edition → Part → Bytes → Prop) (d d₁ : Disk) : Prop where
  parts : ∀ e ∈ u.editions, ∀ x, d₁.place (u.cache.partPath e x) = d.place (u.cache.partPath e x)
  copies : ∀ p ∈ u.destinations, ∀ b, d₁.place (copyPath p b) = d.place (copyPath p b)
  contents : ∀ e ∈ u.editions, ∀ (x : Part) (content : Bytes),
    d₁.Stores (u.cache.partPath e x) content →
      d.Stores (u.cache.partPath e x) content ∨ made e x content

/-- Nothing new is made in the cache. -/
def nothing (_ : Edition) (_ : Part) (_ : Bytes) : Prop := False

/-- What a build of the edition makes. -/
def output (u : Usage) (e : Edition) (e' : Edition) (x : Part) (content : Bytes) : Prop :=
  e' = e ∧ ∃ b, x = .binary b ∧ u.Builds e b content

variable {made : Edition → Part → Bytes → Prop}

theorem Leaves.refl (d : Disk) : u.Leaves made d d :=
  ⟨fun _ _ _ => rfl, fun _ _ _ => rfl, fun _ _ _ _ h => Or.inl h⟩

theorem Leaves.trans (h : u.Leaves made d d₁) (h₁ : u.Leaves made d₁ d₂) : u.Leaves made d d₂ where
  parts e he x := (h₁.parts e he x).trans (h.parts e he x)
  copies p hp b := (h₁.copies p hp b).trans (h.copies p hp b)
  contents e he x content hstores :=
    (h₁.contents e he x content hstores).elim (h.contents e he x content) Or.inr

/-- Folders that are apart stay apart. -/
theorem Leaves.apart (h : u.Leaves made d d₁) (hapart : u.Apart d) : u.Apart d₁ where
  parts e he e' he' x x' loc hx hx' := by
    rw [h.parts e he] at hx
    rw [h.parts e' he'] at hx'
    exact hapart.parts e he e' he' x x' loc hx hx'
  outside e he p hp x b loc hb := by
    rw [h.copies p hp] at hb
    rw [h.parts e he]
    exact hapart.outside e he p hp x b loc hb
  copies p hp b b' loc hb hb' := by
    rw [h.copies p hp] at hb hb'
    exact hapart.copies p hp b b' loc hb hb'

/-- The cache stays sound if only such things are made as may stand there. -/
theorem Leaves.sound (h : u.Leaves made d d₁) (hsound : u.Sound d)
    (hmade : ∀ e x content, made e x content → u.Vouched e x content) : u.Sound d₁ where
  apart := h.apart hsound.apart
  vouched e he x content hstores :=
    (h.contents e he x content hstores).elim (hsound.vouched e he x content) (hmade e x content)

/-- A disk that only grows leaves the parts. -/
theorem leaves_of_grows (h : d.Grows d₁) : u.Leaves made d d₁ :=
  ⟨fun _ _ _ => h.place_eq _, fun _ _ _ => h.place_eq _,
    fun _ _ _ _ hstores => Or.inl (h.stores hstores)⟩

/-- A file that is written makes something only where it has the place of a file of the cache. -/
theorem leaves_of_writeBytes {path : Text} {content : Bytes}
    (h : d.writeBytes path content = .ok d₁)
    (hmade : ∀ e ∈ u.editions, ∀ (x : Part) (loc : Location), d.place path = some loc →
      d.place (u.cache.partPath e x) = some loc → made e x content) : u.Leaves made d d₁ where
  parts _ _ _ := Disk.place_writeBytes h _
  copies _ _ _ := Disk.place_writeBytes h _
  contents e he x content₁ hstores := by
    rcases Disk.stores_of_writeBytes h hstores with hbefore | ⟨rfl, loc, hloc, hpart⟩
    · exact Or.inl hbefore
    · exact Or.inr (hmade e he x loc hloc hpart)

/-- A file of the cache that is written makes that and nothing else. -/
theorem leaves_of_writePart {x : Part} {content : Bytes} (hapart : u.Apart d) (he : e ∈ u.editions)
    (hmade : made e x content) (h : d.writeBytes (u.cache.partPath e x) content = .ok d₁) :
    u.Leaves made d d₁ := by
  refine leaves_of_writeBytes h fun e' he' x' loc hloc hloc' => ?_
  obtain ⟨rfl, rfl⟩ := hapart.parts e he e' he' x x' loc hloc hloc'
  exact hmade

instance : Disk.Frame fun d d₁ => u.Apart d → u.Leaves made d d₁ :=
  ⟨fun d _ => .refl d, fun h h₁ hapart => (h hapart).trans (h₁ ((h hapart).apart hapart))⟩

/-- Writing one part of an edition leaves all parts of the other editions. -/
theorem keeps_writePart {x : Part} {content : Bytes} (he : e ∈ u.editions) (hmade : made e x content) :
    Disk.Change.Keeps (fun d d₁ => u.Apart d → u.Leaves made d d₁)
      (Disk.single fun d => d.writeBytes (u.cache.partPath e x) content) := by
  intro d hapart
  rw [Disk.run_single]
  cases hwrite : d.writeBytes (u.cache.partPath e x) content with
  | error f => exact .refl d
  | ok d₁ => exact leaves_of_writePart hapart he hmade hwrite

/-- A file of a destination that is written makes nothing in the cache. -/
theorem leaves_of_writeCopy {b : Binary} {content : Bytes} (hapart : u.Apart d)
    (hp : p ∈ u.destinations) (h : d.writeBytes (copyPath p b) content = .ok d₁) :
    u.Leaves made d d₁ :=
  leaves_of_writeBytes h fun e he x loc hloc hloc' =>
    absurd hloc' (hapart.outside e he p hp x b loc hloc)

end Changes

/-! ### Calls -/

section Calls

/-- The toolchain tells that it has the version of the edition, and leaves the cache alone. -/
structure Answers (u : Usage) (e : Edition) (o : Outcome) : Prop where
  version : ∀ printed, o.ending = .ok printed → Text.strip printed.output = e.toolchain
  leaves : ∀ d, u.Apart d →
    u.Leaves nothing d (StateT.run (o.effect u.cache.versionCommand).run d).2

/-- What is built from the project of the edition is built for the edition, and where the others are
kept nothing is made. -/
def BuildsFor (u : Usage) (e : Edition) (o : Outcome) : Prop :=
  ∀ d, u.Apart d →
    d.Stores (u.cache.partPath e .project) (Text.toUtf8 (Loader.project e.framework)) →
    u.Leaves (u.output e) d
      (StateT.run (o.effect (u.cache.buildCommand (u.cache.editionFolder e))).run d).2

/-- A call for the edition: the next command, if any, tells the version, and the one behind it builds. -/
structure Calls (u : Usage) (w : World) (e : Edition) (p : Path) : Prop where
  edition : e ∈ u.editions
  destination : p ∈ u.destinations
  isVersion : isVersion e.toolchain = true
  answers : u.Answers e w.nextOutcome
  builds : u.BuildsFor e { w with outcomes := w.outcomes.tail }.nextOutcome

theorem nextOutcome_congr (h : w₁.outcomes = w.outcomes) : w₁.nextOutcome = w.nextOutcome :=
  congrArg (fun os => os.head?.getD {}) h

/-- Only what happens to the next commands makes a call one for the edition. -/
theorem Calls.congr (hcall : u.Calls w e p) (h : w₁.outcomes = w.outcomes) : u.Calls w₁ e p where
  edition := hcall.edition
  destination := hcall.destination
  isVersion := hcall.isVersion
  answers := nextOutcome_congr h ▸ hcall.answers
  builds := by
    have hbehind : { w₁ with outcomes := w₁.outcomes.tail }.nextOutcome =
        { w with outcomes := w.outcomes.tail }.nextOutcome :=
      nextOutcome_congr (congrArg List.tail h)
    rw [hbehind]
    exact hcall.builds

/-- The worlds that calls lead to, one after another, however they end. Between them anything may
happen elsewhere. -/
inductive Reaches (u : Usage) (w : World) : World → Prop where
  | start : Reaches u w w
  | elsewhere {w₁ w₂ : World} (h : Reaches u w w₁) (hleaves : u.Leaves nothing w₁.disk w₂.disk) :
      Reaches u w w₂
  | call {w₁ : World} {e : Edition} {p : Path} (h : Reaches u w w₁) (hcall : u.Calls w₁ e p) :
      Reaches u w ((u.cache.ensure e.framework p).perform w₁).2

/-- The destination holds the file, built for the edition. -/
def Delivers (u : Usage) (e : Edition) (p : Path) (b : Binary) (d : Disk) : Prop :=
  ∃ content, d.readBytes (copyPath p b) = .ok content ∧ u.Builds e b content

end Calls

/-! ### Steps of a call -/

section Steps

open JitInspect.Action

variable {α β : Type}

/-- However the action ends, the cache stays sound; and what it gives is as said. -/
structure Meets (u : Usage) (a : Action α) (w : World) (good : α → World → Prop) : Prop where
  sound : u.Sound (a.perform w).2.disk
  good : ∀ x w₁, a.perform w = (.ok x, w₁) → good x w₁

/-- A sequence meets what its second part meets wherever the first part has led. -/
theorem Meets.bind {a : Action α} {g : α → Action β} {good : α → World → Prop}
    {good₁ : β → World → Prop} (ha : u.Meets a w good)
    (hg : ∀ x w₁, u.Sound w₁.disk → good x w₁ → u.Meets (g x) w₁ good₁) :
    u.Meets (a >>= g) w good₁ := by
  obtain ⟨hsound, hgood⟩ := ha
  rcases hrun : a.perform w with ⟨f | x, w₁⟩
  · rw [hrun] at hsound
    refine ⟨by rw [perform_bind_of_error hrun]; exact hsound, fun y w₂ hy => ?_⟩
    rw [perform_bind_of_error hrun] at hy
    cases hy
  · rw [hrun] at hsound
    obtain ⟨hsound₁, hgood₁⟩ := hg x w₁ hsound (hgood x w₁ hrun)
    exact ⟨by rw [perform_bind_of_ok hrun]; exact hsound₁, fun y w₂ hy =>
      hgood₁ y w₂ (by rw [← perform_bind_of_ok hrun]; exact hy)⟩

theorem meets_pure {x : α} {good : α → World → Prop} (hsound : u.Sound w.disk) (h : good x w) :
    u.Meets (pure x) w good :=
  ⟨hsound, fun y w₁ hy => by cases hy; exact h⟩

theorem meets_throw {f : Failure} {good : α → World → Prop} (hsound : u.Sound w.disk) :
    u.Meets (throw f) w good :=
  ⟨hsound, fun y w₁ hy => by cases hy⟩

/-- A question about the disk meets the answer. -/
theorem meets_ask (question : Disk → Except FileFault α) (hsound : u.Sound w.disk) :
    u.Meets (ask question) w fun x w₁ => question w.disk = .ok x ∧ w = w₁ := by
  refine ⟨by rw [perform_ask]; exact hsound, fun x w₁ hx => perform_ask_eq_ok.1 hx⟩

/-- A checkpoint that is passed leaves the world as it is. -/
theorem meets_checkpoint (hsound : u.Sound w.disk) : u.Meets checkpoint w fun _ w₁ => w = w₁ := by
  refine ⟨by rw [perform_checkpoint]; exact hsound, fun x w₁ hx => ?_⟩
  rw [perform_checkpoint] at hx
  exact congrArg Prod.snd hx

/-- A report leaves the disk and the outcomes. -/
theorem meets_report (t : Text) (hsound : u.Sound w.disk) :
    u.Meets (report t) w fun _ w₁ => w₁.disk = w.disk ∧ w₁.outcomes = w.outcomes :=
  ⟨hsound, fun x w₁ hx => by cases hx; exact ⟨rfl, rfl⟩⟩

/-- A change of the disk that leaves the cache sound. -/
theorem meets_change {c : Disk.Change α} (hsound : u.Sound (StateT.run c.run w.disk).2) :
    u.Meets (change c) w fun x w₁ => StateT.run c.run w.disk = (.ok x, w₁.disk) ∧
      w₁.outcomes = w.outcomes := by
  refine ⟨by rw [perform_change]; exact hsound, fun x w₁ hx => ?_⟩
  rw [perform_change] at hx
  rcases hrun : StateT.run c.run w.disk with ⟨f | y, d⟩
  · rw [hrun] at hx
    cases hx
  · rw [hrun] at hx
    cases hx
    exact ⟨rfl, rfl⟩

/-- A command that leaves the cache sound. -/
theorem meets_start {c : Command}
    (hsound : u.Sound (StateT.run (w.nextOutcome.effect c).run w.disk).2) :
    u.Meets (start c) w fun printed w₁ => w.nextOutcome.ending = .ok printed ∧
      w₁.outcomes = w.outcomes.tail := by
  refine ⟨?_, fun printed w₁ hrun => ?_⟩
  · rw [perform_start_eq]
    rcases w.after_cases c with ⟨f, -, hafter⟩ | ⟨-, hafter⟩
    · rw [hafter]
      exact hsound
    · rw [hafter]
      exact hsound
  · rw [perform_start_eq] at hrun
    rcases w.after_cases c with ⟨f, -, hafter⟩ | ⟨-, hafter⟩
    · rw [hafter] at hrun
      cases hrun
    · rw [hafter, Prod.mk.injEq] at hrun
      obtain ⟨hending, rfl⟩ := hrun
      exact ⟨hending, rfl⟩

end Steps

/-! ### Asking for the version -/

section Versions

open JitInspect.Action

/-- Where no new content is made it is vouched for. -/
theorem vouched_of_nothing (e : Edition) (x : Part) (content : Bytes) (h : nothing e x content) :
    u.Vouched e x content := h.elim

/-- The version that the toolchain tells decides the folder. -/
theorem folder_meets (hcall : u.Calls w e p) (hsound : u.Sound w.disk) :
    u.Meets (u.cache.folder e.framework) w fun folder w₁ => folder = u.cache.editionFolder e ∧
      w₁.outcomes = w.outcomes.tail := by
  have hleft := (hcall.answers.leaves w.disk hsound.apart).sound hsound vouched_of_nothing
  refine (meets_start hleft).bind fun printed w₁ hsound₁ ⟨hending, houtcomes⟩ => ?_
  refine (meets_checkpoint hsound₁).bind fun _ w₂ hsound₂ hsame => ?_
  subst hsame
  rw [hcall.answers.version printed hending, if_pos hcall.isVersion]
  exact meets_pure hsound₁ ⟨rfl, houtcomes⟩

end Versions

/-! ### Building -/

section Building

open JitInspect.Action

/-- A file of the cache that is written unless it exists is there afterwards. -/
theorem writeOnce_meets {file : Path} {content : Text} {x : Part} (hsound : u.Sound w.disk)
    (he : e ∈ u.editions) (hfile : file = x.pathIn (u.cache.editionFolder e))
    (hvouched : u.Vouched e x (Text.toUtf8 content)) :
    u.Meets (writeOnce file content) w fun _ w₁ => w₁.outcomes = w.outcomes ∧
      ∃ old, w₁.disk.Stores (u.cache.partPath e x) old := by
  have hpath : file.text = u.cache.partPath e x := congrArg Path.text hfile
  refine (meets_ask _ hsound).bind fun isThere w₁ hsound₁ ⟨hthere, hsame⟩ => ?_
  subst hsame
  cases isThere with
  | true =>
    rw [hpath] at hthere
    exact meets_pure hsound ⟨rfl, Disk.exists_stores_of_isFile hthere⟩
  | false =>
    have hleaves := keeps_writePart he hvouched w.disk hsound.apart
    rw [← hpath] at hleaves
    have hchange := meets_change (hleaves.sound hsound fun _ _ _ h => h)
    refine ⟨hchange.sound, fun x' w₁ hrun => ?_⟩
    obtain ⟨hdone, houtcomes⟩ := hchange.good x' w₁ hrun
    rw [Disk.run_single_eq_ok, hpath] at hdone
    exact ⟨houtcomes, _, Disk.stores_writeBytes hdone⟩

/-- A build leaves the cache sound, whatever becomes of it. -/
theorem build_meets (hsound : u.Sound w.disk) (he : e ∈ u.editions)
    (hbuilds : u.BuildsFor e w.nextOutcome) :
    u.Meets (u.cache.build (u.cache.editionFolder e) e.framework) w fun _ _ => True := by
  have hmade := (leaves_of_grows (Disk.grows_makePath (u.cache.editionFolder e) w.disk)).sound hsound
    vouched_of_nothing
  refine (meets_change hmade).bind fun _ w₁ hsound₁ ⟨_, houtcomes₁⟩ => ?_
  have hcode : u.Vouched e .code (Text.toUtf8 Loader.code) := trivial
  refine (writeOnce_meets hsound₁ he rfl hcode).bind fun _ w₂ hsound₂ ⟨houtcomes₂, _⟩ => ?_
  have hproject : u.Vouched e .project (Text.toUtf8 (Loader.project e.framework)) := rfl
  refine (writeOnce_meets hsound₂ he rfl hproject).bind
    fun _ w₃ hsound₃ ⟨houtcomes₃, old, hold⟩ => ?_
  have hproject₃ := hsound₃.stores_project he hold
  refine (meets_checkpoint hsound₃).bind fun _ w₄ hsound₄ hsame => ?_
  subst hsame
  rw [← nextOutcome_congr (houtcomes₃.trans (houtcomes₂.trans houtcomes₁))] at hbuilds
  have hbuilt := (hbuilds w₃.disk hsound₃.apart hproject₃).sound hsound₃ fun e' x content h => by
    obtain ⟨rfl, b, rfl, hbuilds⟩ := h
    exact hbuilds
  refine (meets_start hbuilt).bind fun printed w₅ hsound₅ _ => ?_
  refine (meets_checkpoint hsound₅).bind fun _ w₆ hsound₆ hsame => ?_
  subst hsame
  refine (meets_ask _ hsound₅).bind fun isThere w₆ hsound₆ _ => ?_
  cases isThere with
  | true => exact meets_pure hsound₆ trivial
  | false => exact meets_throw hsound₆

/-- Building an edition that may be there already leaves the disk sound. -/
theorem buildOnce_meets (hsound : u.Sound w.disk) (he : e ∈ u.editions)
    (hbuilds : u.BuildsFor e w.nextOutcome) :
    u.Meets (u.cache.buildOnce (u.cache.editionFolder e) e.framework) w fun _ _ => True := by
  refine (meets_ask _ hsound).bind fun isThere w₁ hsound₁ ⟨_, hsame⟩ => ?_
  subst hsame
  cases isThere with
  | true => exact meets_pure hsound trivial
  | false =>
    refine (meets_report _ hsound).bind fun _ w₁ hsound₁ ⟨hdisk, houtcomes⟩ => ?_
    refine build_meets hsound₁ he ?_
    rw [nextOutcome_congr houtcomes]
    exact hbuilds

end Building

/-! ### Copying -/

section Copying

open JitInspect.Action

/-- A file of the edition that is copied into a destination is delivered there, and what had been
delivered to it before still is. -/
theorem delivers_of_copyFile {b : Binary} (hsound : u.Sound d) (he : e ∈ u.editions)
    (hp : p ∈ u.destinations)
    (h : StateT.run (Disk.copyFile ((outputOf (u.cache.editionFolder e)).child b.fileName)
      (p.child b.fileName)).run d = (.ok (), d₁)) :
    u.Sound d₁ ∧ u.Delivers e p b d₁ ∧ ∀ b', u.Delivers e p b' d → u.Delivers e p b' d₁ := by
  rcases Disk.copyFile_cases ((outputOf (u.cache.editionFolder e)).child b.fileName)
    (p.child b.fileName) d with ⟨content, d₂, hread, hwrite, hrun⟩ | ⟨f, hrun⟩
  · rw [hrun] at h
    obtain rfl : d₂ = d₁ := congrArg Prod.snd h
    have hbuilt : u.Builds e b content :=
      hsound.vouched e he (.binary b) content (Disk.stores_of_readBytes hread)
    have hleaves : u.Leaves nothing d d₂ := leaves_of_writeCopy hsound.apart hp hwrite
    refine ⟨hleaves.sound hsound vouched_of_nothing,
      ⟨content, Disk.readBytes_writeBytes hwrite, hbuilt⟩, ?_⟩
    rintro b' ⟨old, hold, hbuilds⟩
    obtain ⟨new, hnew⟩ := Disk.readBytes_of_writeBytes hwrite hold
    rcases Disk.stores_of_writeBytes hwrite (Disk.stores_of_readBytes hnew) with
      hbefore | ⟨rfl, loc, hloc, hloc'⟩
    · obtain rfl : new = old := hbefore.unique (Disk.stores_of_readBytes hold)
      exact ⟨new, hnew, hbuilds⟩
    · obtain rfl : b = b' := hsound.apart.copies p hp b b' loc hloc hloc'
      exact ⟨new, hnew, hbuilt⟩
  · rw [hrun] at h
    cases h

/-- A copy that fails leaves the cache sound as well. -/
theorem sound_of_copyFile (b : Binary) (hsound : u.Sound d) (hp : p ∈ u.destinations)
    (source : Path) :
    u.Sound (StateT.run (Disk.copyFile source (p.child b.fileName)).run d).2 := by
  rcases Disk.copyFile_cases source (p.child b.fileName) d with
    ⟨content, d₁, -, hwrite, hrun⟩ | ⟨f, hrun⟩
  · rw [hrun]
    have hleaves : u.Leaves nothing d d₁ := leaves_of_writeCopy hsound.apart hp hwrite
    exact hleaves.sound hsound vouched_of_nothing
  · rw [hrun]
    exact hsound

/-- When all files have been copied, each of them is delivered. -/
theorem copies_meets (he : e ∈ u.editions) (hp : p ∈ u.destinations) (bs : List Binary)
    (hsound : u.Sound w.disk) :
    u.Meets ((bs.map Binary.fileName).forM fun n => change
      (Disk.copyFile ((outputOf (u.cache.editionFolder e)).child n) (p.child n))) w
      fun _ w₁ => ∀ b, b ∈ bs ∨ u.Delivers e p b w.disk → u.Delivers e p b w₁.disk := by
  induction bs generalizing w with
  | nil => exact meets_pure hsound fun b hb => hb.resolve_left List.not_mem_nil
  | cons b bs ih =>
    have hcons : ((b :: bs).map Binary.fileName).forM (fun n => change
        (Disk.copyFile ((outputOf (u.cache.editionFolder e)).child n) (p.child n))) =
        (change (Disk.copyFile ((outputOf (u.cache.editionFolder e)).child b.fileName)
          (p.child b.fileName)) >>= fun _ => (bs.map Binary.fileName).forM fun n => change
            (Disk.copyFile ((outputOf (u.cache.editionFolder e)).child n) (p.child n))) := rfl
    rw [hcons]
    refine (meets_change (sound_of_copyFile b hsound hp _)).bind fun _ w₁ hsound₁ ⟨hcopy, _⟩ => ?_
    obtain ⟨-, hdelivered, hkept⟩ := delivers_of_copyFile hsound he hp hcopy
    obtain ⟨hsound₂, hrest⟩ := ih hsound₁
    refine ⟨hsound₂, fun x w₂ hrun b' hb' => hrest x w₂ hrun b' ?_⟩
    rcases hb' with hb' | hb'
    · rcases List.mem_cons.1 hb' with rfl | hb'
      · exact Or.inr hdelivered
      · exact Or.inl hb'
    · exact Or.inr (hkept b' hb')

/-- Copying an edition to a destination delivers each of its binaries. -/
theorem copyTo_meets (he : e ∈ u.editions) (hp : p ∈ u.destinations) (hsound : u.Sound w.disk) :
    u.Meets (copyTo p (u.cache.editionFolder e)) w fun _ w₁ => ∀ b, u.Delivers e p b w₁.disk := by
  obtain ⟨hsound₁, hgood⟩ := copies_meets he hp Binary.all hsound
  exact ⟨hsound₁, fun x w₁ hrun b => hgood x w₁ hrun b (Or.inl b.mem_all)⟩

end Copying

/-! ### Calls, one after another -/

section History

open JitInspect.Action

/-- A supply delivers both files for the edition of the call. -/
theorem supply_meets (hcall : u.Calls w e p) (hsound : u.Sound w.disk) :
    u.Meets (u.cache.supply e.framework p) w fun _ w₁ => ∀ b, u.Delivers e p b w₁.disk := by
  refine (meets_report _ hsound).bind fun _ w₁ hsound₁ ⟨_, houtcomes₁⟩ => ?_
  have hcall₁ : u.Calls w₁ e p := hcall.congr houtcomes₁
  refine (folder_meets hcall₁ hsound₁).bind fun folder w₂ hsound₂ h₂ => ?_
  obtain ⟨rfl, houtcomes₂⟩ := h₂
  have hbuilds : u.BuildsFor e w₂.nextOutcome := by
    rw [nextOutcome_congr (w := { w₁ with outcomes := w₁.outcomes.tail }) houtcomes₂]
    exact hcall₁.builds
  refine (buildOnce_meets hsound₂ hcall.edition hbuilds).bind fun _ w₃ hsound₃ _ => ?_
  refine (meets_checkpoint hsound₃).bind fun _ w₄ hsound₄ _ => ?_
  exact copyTo_meets hcall.edition hcall.destination hsound₄

/-- A call delivers both files for its edition, or it finds both and leaves the disk as it is. -/
theorem ensure_meets (hcall : u.Calls w e p) (hsound : u.Sound w.disk) :
    u.Meets (u.cache.ensure e.framework p) w fun _ w₁ =>
      holdsAll w.disk (filesIn p) = .ok true ∧ w₁.disk = w.disk ∨
        holdsAll w.disk (filesIn p) = .ok false ∧ ∀ b, u.Delivers e p b w₁.disk := by
  refine (meets_ask _ hsound).bind fun isThere w₁ hsound₁ ⟨_, hsame⟩ => ?_
  subst hsame
  cases isThere with
  | false => exact meets_throw hsound
  | true =>
    refine (meets_ask _ hsound).bind fun holds w₁ hsound₁ ⟨hholds, hsame⟩ => ?_
    subst hsame
    cases holds with
    | true => exact meets_pure hsound (Or.inl ⟨hholds, rfl⟩)
    | false =>
      obtain ⟨hsound₁, hgood⟩ := supply_meets hcall hsound
      exact ⟨hsound₁, fun x w₁ hrun => Or.inr ⟨hholds, hgood x w₁ hrun⟩⟩

/-- The cache is sound behind any calls, however they end. -/
theorem Reaches.sound (h : u.Reaches w w₁) (hsound : u.Sound w.disk) : u.Sound w₁.disk := by
  induction h with
  | start => exact hsound
  | elsewhere _ hleaves ih => exact hleaves.sound ih vouched_of_nothing
  | call _ hcall ih => exact (ensure_meets hcall ih).sound

/-- A call that is done behind any others has delivered both files for its framework and for the version
of the toolchain, unless the destination held both before: then nothing has changed. -/
theorem ensure_delivers (hsound : u.Sound w.disk) (hreach : u.Reaches w w₁) (hcall : u.Calls w₁ e p)
    (hdone : ((u.cache.ensure e.framework p).perform w₁).1 = .ok ()) :
    (holdsAll w₁.disk (filesIn p) = .ok true ∧
        ((u.cache.ensure e.framework p).perform w₁).2.disk = w₁.disk) ∨
      (holdsAll w₁.disk (filesIn p) = .ok false ∧
        ∀ b, u.Delivers e p b ((u.cache.ensure e.framework p).perform w₁).2.disk) := by
  refine (ensure_meets hcall (hreach.sound hsound)).good () _ ?_
  rw [← hdone]

end History

/-! ### Two frameworks, one after the other -/

section Sample

/-- A loader for the framework of an older project. -/
def older : Edition := ⟨"net7.0", "8.0.100"⟩

/-- The same toolchain, and a newer framework. -/
def newer : Edition := ⟨"net8.0", "8.0.100"⟩

/-- What is built for an edition, in both files. -/
def stamp (e : Edition) : Bytes := Text.toUtf8 (e.framework ++ " " ++ e.toolchain)

/-- A cache that serves two frameworks and two destinations. -/
def sample : Usage where
  cache := ⟨⟨.root, ["cache"]⟩, "dotnet"⟩
  editions := { e | e ∈ [older, newer] }
  destinations := { p | p ∈ [⟨.root, ["a"]⟩, ⟨.root, ["b"]⟩] }
  Builds e _ content := content = stamp e

/-- A build of the edition, which writes both files. -/
def building (e : Edition) : Outcome where
  effect _ := do
    Disk.makePath (outputOf (sample.cache.editionFolder e))
    Disk.single fun d => d.writeBytes (sample.cache.partPath e (.binary .library)) (stamp e)
    Disk.single fun d => d.writeBytes (sample.cache.partPath e (.binary .settings)) (stamp e)

/-- What happens in a call for the edition. -/
def happening (e : Edition) : List Outcome := [{ ending := .ok { output := e.toolchain } }, building e]

/-- Two destinations, both empty, and a call for the older framework ahead. -/
def beforehand : World where
  disk := { tree := (FileTree.empty.put ["a"] .directory).put ["b"] .directory, cwd := [] }
  outcomes := happening older

/-- The first destination has got a loader for the older framework. -/
def between : World := ((sample.cache.ensure older.framework ⟨.root, ["a"]⟩).perform beforehand).2

/-- A call for the newer framework is ahead then. -/
def inBetween : World := { between with outcomes := happening newer }

/-- The sample's builds make what they should. -/
theorem builds_building {e : Edition} (he : e ∈ sample.editions) :
    sample.BuildsFor e (building e) := by
  intro d hapart _
  have hmakes : ∀ b, sample.output e e (.binary b) (stamp e) := fun b => ⟨rfl, b, rfl, rfl⟩
  have hfolder : Disk.Change.Keeps
      (fun d d₁ => sample.Apart d → sample.Leaves (sample.output e) d d₁)
      (Disk.makePath (outputOf (sample.cache.editionFolder e))) :=
    fun d _ => leaves_of_grows (Disk.grows_makePath _ d)
  exact (hfolder.bind fun _ => (keeps_writePart he (hmakes .library)).bind fun _ =>
    keeps_writePart he (hmakes .settings)) d hapart

/-- A call for an edition, when what happens in it is ahead. -/
theorem calls_happening {e : Edition} {p : Path} (he : e ∈ sample.editions)
    (hp : p ∈ sample.destinations) (hversion : isVersion e.toolchain = true)
    (hstrip : Text.strip e.toolchain = e.toolchain) (hahead : w.outcomes = happening e) :
    sample.Calls w e p := by
  refine ⟨he, hp, hversion, ⟨fun printed hprinted => ?_, fun d _ => ?_⟩, ?_⟩
  · rw [World.nextOutcome, hahead] at hprinted
    obtain rfl := Except.ok.inj hprinted
    exact hstrip
  · rw [World.nextOutcome, hahead]
    exact .refl d
  · rw [World.nextOutcome, hahead]
    exact builds_building he

/-- The sample's folders are apart on a disk without links. -/
theorem apart_beforehand : sample.Apart beforehand.disk := by
  have hparts : ∀ e ∈ [older, newer], ∀ e' ∈ [older, newer], ∀ x ∈ Part.all, ∀ x' ∈ Part.all,
      beforehand.disk.place (sample.cache.partPath e x) =
        beforehand.disk.place (sample.cache.partPath e' x') → e = e' ∧ x = x' := by
    decide +kernel
  have houtside : ∀ e ∈ [older, newer], ∀ p ∈ [⟨.root, ["a"]⟩, ⟨.root, ["b"]⟩], ∀ x ∈ Part.all,
      ∀ b ∈ Binary.all, beforehand.disk.place (copyPath p b) ≠
        beforehand.disk.place (sample.cache.partPath e x) := by
    decide +kernel
  have hcopies : ∀ p ∈ [⟨.root, ["a"]⟩, ⟨.root, ["b"]⟩], ∀ b ∈ Binary.all, ∀ b' ∈ Binary.all,
      beforehand.disk.place (copyPath p b) = beforehand.disk.place (copyPath p b') → b = b' := by
    decide +kernel
  refine ⟨fun e he e' he' x x' loc hx hx' => ?_, fun e he p hp x b loc hb hx => ?_,
    fun p hp b b' loc hb hb' => ?_⟩
  · exact hparts e he e' he' x x.mem_all x' x'.mem_all (hx.trans hx'.symm)
  · exact houtside e he p hp x x.mem_all b b.mem_all (hb.trans hx.symm)
  · exact hcopies p hp b b.mem_all b' b'.mem_all (hb.trans hb'.symm)

/-- There is no file yet, so that the cache is sound. -/
theorem sound_beforehand : sample.Sound beforehand.disk := by
  have hno : ∀ loc content, beforehand.disk.tree.get? loc ≠ some (.file content) := by
    intro loc content hfile
    change ((FileTree.empty.put ["a"] .directory).put ["b"] .directory).get? loc = _ at hfile
    by_cases hb : loc = [("b" : Text)]
    · rw [hb, FileTree.get?_put_self _ (List.cons_ne_nil _ _)] at hfile
      cases hfile
    rw [FileTree.get?_put_of_ne _ hb] at hfile
    by_cases ha : loc = [("a" : Text)]
    · rw [ha, FileTree.get?_put_self _ (List.cons_ne_nil _ _)] at hfile
      cases hfile
    rw [FileTree.get?_put_of_ne _ ha] at hfile
    cases loc <;> cases hfile
  refine ⟨apart_beforehand, fun e _ x content hstores => ?_⟩
  obtain ⟨loc, -, hfile⟩ := hstores
  exact absurd hfile (hno loc content)

/-- The world between the two calls of the sample is reached. -/
theorem reaches_inBetween : sample.Reaches beforehand inBetween := by
  have hcall : sample.Calls beforehand older ⟨.root, ["a"]⟩ :=
    calls_happening List.mem_cons_self List.mem_cons_self (by decide +kernel) (by decide +kernel) rfl
  have hbetween : sample.Reaches beforehand between := by
    unfold between
    exact Reaches.start.call hcall
  have hsame : inBetween.disk = between.disk := by
    simp only [inBetween]
  refine hbetween.elsewhere ?_
  rw [hsame]
  exact .refl between.disk

theorem calls_inBetween {p : Path} (hp : p ∈ sample.destinations) :
    sample.Calls inBetween newer p := by
  have hahead : inBetween.outcomes = happening newer := by
    simp only [inBetween]
  exact calls_happening (List.mem_cons_of_mem _ List.mem_cons_self) hp (by decide +kernel)
    (by decide +kernel) hahead

/-- A call for the newer framework delivers it to the second destination. -/
theorem ensure_delivers_newer :
    ((sample.cache.ensure newer.framework ⟨.root, ["b"]⟩).perform inBetween).1 = .ok () ∧
      ∀ b, sample.Delivers newer ⟨.root, ["b"]⟩ b
        ((sample.cache.ensure newer.framework ⟨.root, ["b"]⟩).perform inBetween).2.disk := by
  have hdone : ((sample.cache.ensure newer.framework ⟨.root, ["b"]⟩).perform inBetween).1 =
      .ok () := by decide +kernel
  have hlacks : holdsAll inBetween.disk (filesIn ⟨.root, ["b"]⟩) = .ok false := by decide +kernel
  refine ⟨hdone, ?_⟩
  have hcall : sample.Calls inBetween newer ⟨.root, ["b"]⟩ :=
    calls_inBetween (List.mem_cons_of_mem _ List.mem_cons_self)
  rcases ensure_delivers sound_beforehand reaches_inBetween hcall hdone with
    ⟨hholds, -⟩ | ⟨-, hdelivers⟩
  · rw [hlacks] at hholds
    cases hholds
  · exact hdelivers

/-- A call for the edition returns in the world, but leaves no loader for it in the destination. -/
def Misses (w : World) (e : Edition) (p : Path) : Prop :=
  ((sample.cache.ensure e.framework p).perform w).1 = .ok () ∧
    ∃ b, ¬ sample.Delivers e p b ((sample.cache.ensure e.framework p).perform w).2.disk

/-- What a call for another edition has built is not what this one asks for. -/
theorem misses_of_stamp {e : Edition} {p : Path} (e' : Edition) (hne : stamp e' ≠ stamp e)
    (hdone : ((sample.cache.ensure e.framework p).perform w).1 = .ok ())
    (hread : ((sample.cache.ensure e.framework p).perform w).2.disk.readBytes
      (copyPath p .library) = .ok (stamp e')) : Misses w e p := by
  refine ⟨hdone, .library, ?_⟩
  rintro ⟨content, hcontent, hbuilt⟩
  rw [hread, Except.ok.injEq] at hcontent
  exact hne (hcontent.trans hbuilt)

/-- An edition whose folder is that of `longer` as well. -/
def shorter : Edition := ⟨"net8.0", "8_9"⟩

/-- An edition whose folder is that of `shorter` as well. -/
def longer : Edition := ⟨"net8.0_8", "9"⟩

/-- The shorter of the two has been served, and a call for the longer one is ahead. -/
def behindShorter : World :=
  { ((sample.cache.ensure shorter.framework ⟨.root, ["a"]⟩).perform
      { beforehand with outcomes := happening shorter }).2 with outcomes := happening longer }

/-- A build that fails when it has made its folder. -/
def failing (e : Edition) : Outcome where
  effect _ := Disk.makePath (outputOf (sample.cache.editionFolder e))

/-- The folder of the newer edition is there, without files, and a call for the older one is ahead. -/
def behindFailing : World :=
  { ((sample.cache.ensure newer.framework ⟨.root, ["b"]⟩).perform
      { beforehand with outcomes := [{ ending := .ok { output := newer.toolchain } }, failing newer] }).2
    with outcomes := happening older }

/-- The older edition has been put into that folder, and a call for the newer one is ahead. -/
def behindCache : World :=
  { ((sample.cache.ensure older.framework (outputOf (sample.cache.editionFolder newer))).perform
      behindFailing).2 with outcomes := happening newer }

/-- In the first destination the loader for the older framework stays, though the files are apart. A
call misses as well when its folder is another edition's, or when a destination is in the cache. -/
theorem not_ensure_delivers :
    (¬ ∀ (w : World) (e : Edition) (p : Path), sample.Reaches beforehand w → sample.Calls w e p →
      ((sample.cache.ensure e.framework p).perform w).1 = .ok () →
        ∀ b, sample.Delivers e p b ((sample.cache.ensure e.framework p).perform w).2.disk) ∧
      Misses behindShorter longer ⟨.root, ["b"]⟩ ∧ Misses behindCache newer ⟨.root, ["a"]⟩ := by
  refine ⟨fun hclaim => ?_, ?_, ?_⟩
  · obtain ⟨hdone, b, hnot⟩ : Misses inBetween newer ⟨.root, ["a"]⟩ :=
      misses_of_stamp older (by decide +kernel) (by decide +kernel) (by decide +kernel)
    exact hnot (hclaim inBetween newer ⟨.root, ["a"]⟩ reaches_inBetween
      (calls_inBetween List.mem_cons_self) hdone b)
  · exact misses_of_stamp shorter (by decide +kernel) (by decide +kernel) (by decide +kernel)
  · exact misses_of_stamp older (by decide +kernel) (by decide +kernel) (by decide +kernel)

end Sample

end Usage

end LoaderCache

end JitInspect
