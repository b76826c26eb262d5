import JitInspect.Proofs.FileTree.Places

/-!
# Adding to a disk

Directories that are created and files that are written where nothing was leave everything as it is
that was there (`Disk.Adds`). So each path keeps its place, a path that led to an entry still leads to
it (`Disk.Adds.locate_eq`), and no file is lost (`Disk.Adds.keepsFiles`). What has been added stands
at the places of the paths that were written to, and elsewhere nothing has changed.
-/

namespace JitInspect

namespace FileTree

variable {t t₁ : FileTree} {barred : Location → Bool} {loc goal : Location} {ns : List Text}
  {followLast : Bool}

/-! ### Ways that stay -/

section Ways

/-- All that is in the first tree is in the second one. -/
def Extends (t t₁ : FileTree) : Prop := ∀ loc e, t.get? loc = some e → t₁.get? loc = some e

/-- Where a walk leads to an entry it leads there in a larger tree. -/
theorem WalksTo.of_extends (h : t.Extends t₁) (hgoal : t.get? goal ≠ none)
    {enter enter₁ : Location → List Text → Except PathFault Location}
    (henter : ∀ loc ns, enter loc ns = .ok goal → enter₁ loc ns = .ok goal)
    (hwalk : t.WalksTo barred enter followLast goal loc ns) :
    t₁.WalksTo barred enter₁ followLast goal loc ns := by
  induction hwalk with
  | arrives => exact .arrives
  | stays _ ih => exact .stays ih
  | rises hopen _ ih => exact .rises hopen ih
  | enters hname hentry _ ih => exact .enters hname (h _ _ hentry) ih
  | ends hname hend hentry =>
    rcases hentry with hnone | ⟨content, hfile⟩
    · -- The way would end where nothing is.
      exact absurd (hend ▸ hnone) hgoal
    · exact .ends hname hend (Or.inr ⟨content, h _ _ hfile⟩)
  | stops hname hend hentry hlast => exact .stops hname hend (h _ _ hentry) hlast
  | follows hname hentry hmore hin => exact .follows hname (h _ _ hentry) hmore (henter _ _ hin)

/-- Names that led to something still lead to it when other things are added. -/
theorem walk_of_extends (h : t.Extends t₁) (hgoal : t.get? goal ≠ none) {links : ℕ}
    (hwalk : t.walk barred followLast links loc ns = .ok goal) :
    t₁.walk barred followLast links loc ns = .ok goal := by
  induction links generalizing loc ns with
  | zero =>
    exact walkWith_eq_ok_iff.2
      ((walksTo_of_walkWith hwalk).of_extends h hgoal fun _ _ hno => by cases hno)
  | succ links ih =>
    exact walkWith_eq_ok_iff.2
      ((walksTo_of_walkWith hwalk).of_extends h hgoal fun _ _ hlink => ih hlink)

end Ways

end FileTree

namespace Disk

variable {d d₁ d₂ : Disk} {path : Text} {content : Bytes} {loc : Location}
  {paths : Path → Prop} {p : Path}

/-! ### Files that stay -/

section Files

/-- Every path that leads to a file still does. -/
def KeepsFiles (d d₁ : Disk) : Prop := ∀ path, d.isFile path = .ok true → d₁.isFile path = .ok true

instance : Frame KeepsFiles where
  refl _ _ h := h
  trans h h₁ path hpath := h₁ path (h path hpath)

/-- Copying a file keeps files. -/
theorem keepsFiles_copyFile (source target : Path) :
    Change.Keeps KeepsFiles (copyFile source target) := by
  intro d
  rcases copyFile_cases source target d with ⟨content, d₁, -, hwrite, hrun⟩ | ⟨f, hrun⟩
  · rw [hrun]
    exact fun path hpath => isFile_of_writeBytes hwrite hpath
  · rw [hrun]
    exact Frame.refl d

end Files

/-! ### What is added -/

section Adding

/-- Directories and files have come where nothing was, at the places of such paths, and nothing else
has changed. -/
structure Adds (paths : Path → Prop) (d d₁ : Disk) : Prop where
  cwd : d₁.cwd = d.cwd
  barred : d₁.barred = d.barred
  entries : ∀ loc, d₁.tree.get? loc = d.tree.get? loc ∨
    d.tree.get? loc = none ∧ d₁.tree.link? loc = none ∧ ∃ q, paths q ∧ d.place q.text = some loc

/-- Additions make no link. -/
theorem Adds.sameLinks (h : d.Adds paths d₁) : d.tree.SameLinks d₁.tree := by
  intro loc
  rcases h.entries loc with hsame | ⟨hnone, hlink, -⟩
  · unfold FileTree.link?
    rw [hsame]
  · rw [hlink, FileTree.link?, hnone]

/-- Additions leave every path its place. -/
theorem Adds.place_eq (h : d.Adds paths d₁) (path : Text) : d₁.place path = d.place path :=
  place_eq_of_sameLinks h.cwd h.sameLinks path

/-- The tree is larger behind additions. -/
theorem Adds.extends (h : d.Adds paths d₁) : d.tree.Extends d₁.tree := by
  intro loc e he
  rcases h.entries loc with hsame | ⟨hnone, -⟩
  · exact hsame.trans he
  · rw [hnone] at he
    cases he

instance (paths : Path → Prop) : Frame (Adds paths) where
  refl d := ⟨rfl, rfl, fun _ => Or.inl rfl⟩
  trans {d d₁ d₂} h h₁ := by
    refine ⟨h₁.cwd.trans h.cwd, h₁.barred.trans h.barred, fun loc => ?_⟩
    rcases h₁.entries loc with hsame | ⟨hnone, hlink, q, hq, hplace⟩
    · rcases h.entries loc with hsame₁ | ⟨hnone, hlink, hplace⟩
      · exact Or.inl (hsame.trans hsame₁)
      · refine Or.inr ⟨hnone, ?_, hplace⟩
        rw [h₁.sameLinks loc, hlink]
    · refine Or.inr ⟨?_, hlink, q, hq, h.place_eq q.text ▸ hplace⟩
      cases he : d.tree.get? loc with
      | none => rfl
      | some e =>
        rw [h.extends loc e he] at hnone
        cases hnone

/-- Additions at some paths are additions at more paths. -/
theorem Adds.mono {paths₁ : Path → Prop} (h : d.Adds paths d₁) (hpaths : ∀ q, paths q → paths₁ q) :
    d.Adds paths₁ d₁ := by
  refine ⟨h.cwd, h.barred, fun loc => (h.entries loc).imp_right ?_⟩
  rintro ⟨hnone, hlink, q, hq, hplace⟩
  exact ⟨hnone, hlink, q, hpaths q hq, hplace⟩

/-- A path that led to something still leads to it. -/
theorem Adds.locate_eq (h : d.Adds paths d₁) (hloc : d.tree.get? loc ≠ none) {followLast : Bool}
    (hlocate : d.locate path followLast = .ok loc) : d₁.locate path followLast = .ok loc := by
  rw [locate_eq_ok] at hlocate ⊢
  obtain ⟨hnull, hne, hlength, hstart, hwalk⟩ := hlocate
  rw [h.cwd, h.barred]
  exact ⟨hnull, hne, hlength, h.extends _ _ hstart, FileTree.walk_of_extends h.extends hloc hwalk⟩

/-- Additions lose no file. -/
theorem Adds.keepsFiles (h : d.Adds paths d₁) : d.KeepsFiles d₁ := by
  intro path hpath
  obtain ⟨loc, old, hlocate, hold⟩ := isFile_eq_ok_true.1 hpath
  have hsome : d.tree.get? loc ≠ none := by
    rw [hold]
    exact Option.some_ne_none _
  exact isFile_eq_ok_true.2 ⟨loc, old, h.locate_eq hsome hlocate, h.extends loc _ hold⟩

/-- Creating a directory with those above it adds these directories. -/
theorem adds_makePath (p : Path) :
    Change.Keeps (Adds fun q => q.anchor = p.anchor ∧ q.parts <+: p.parts) (makePath p) := by
  intro d
  have hgrows := growsAt_makePath p d
  refine ⟨hgrows.cwd, hgrows.barred, fun loc => ?_⟩
  rcases hgrows.entries loc with hsame | ⟨hnone, hnew⟩
  · exact Or.inl hsame
  · refine Or.inr ⟨hnone, ?_, hgrows.places loc hnone ?_⟩
    · rw [FileTree.link?, hnew]
    · rw [hnew]
      exact Option.some_ne_none _

/-- A file is added that is written where no file was. -/
theorem adds_writeBytes (hp : paths p) (hnot : d.isFile p.text ≠ .ok true)
    (h : d.writeBytes p.text content = .ok d₁) : d.Adds paths d₁ := by
  obtain ⟨goal, hlocate, hwritable, rfl⟩ := puts_of_writeBytes h
  have hnone : d.tree.get? goal = none := by
    rcases hwritable with hnone | ⟨old, hold⟩
    · exact hnone
    · exact absurd (isFile_eq_ok_true.2 ⟨goal, old, hlocate, hold⟩) hnot
  refine ⟨rfl, rfl, fun loc => ?_⟩
  by_cases hloc : loc = goal
  · subst hloc
    refine Or.inr ⟨hnone, ?_, p, hp, place_of_locate hlocate (Or.inl rfl)⟩
    rw [FileTree.link?, FileTree.get?_put_self _ hwritable.ne_nil]
  · exact Or.inl (FileTree.get?_put_of_ne _ hloc _)

/-- Where everything is there already that such paths could lead to, nothing is added. -/
theorem Adds.get?_eq (h : d.Adds paths d₁)
    (hthere : ∀ q, paths q → d.place q.text = some loc → d.tree.get? loc ≠ none) :
    d₁.tree.get? loc = d.tree.get? loc := by
  rcases h.entries loc with hsame | ⟨hnone, -, q, hq, hplace⟩
  · exact hsame
  · exact absurd hnone (hthere q hq hplace)

end Adding

end Disk

end JitInspect
