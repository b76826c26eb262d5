import JitInspect.Proofs.FileTree.Changes
import JitInspect.Proofs.FileTree.Reading
import JitInspect.Proofs.FileTree.Walking

/-!
# The places of paths

Every path has a place: where it leads if all that it leads over and that is no link is a directory
(`FileTree.placeWith`). Only links decide where that is, so that a path keeps its place while files are
written and directories are created (`Disk.place_eq_of_sameLinks`). A path that leads somewhere leads to
its place (`Disk.place_of_locate`). So what is written under one path can be found under another one only
if both have the same place (`Disk.stores_of_writeBytes`).
-/

namespace JitInspect

namespace FileTree

variable {t t₁ : FileTree} {barred : Location → Bool}

/-! ### Where names lead -/

section Names

/-- The target of the link at the location, if there is a link. -/
def link? (t : FileTree) (loc : Location) : Option Text :=
  match t.get? loc with
  | some (.link target) => some target
  | _ => none

/-- Where the names lead if every place on the way that is no link is a directory. -/
def placeWith (t : FileTree) (enter : Location → List Text → Option Location) :
    Location → List Text → Option Location
  | loc, [] => some loc
  | loc, n :: ns =>
    if n = ['.'] then placeWith t enter loc ns
    else if n = ['.', '.'] then placeWith t enter loc.dropLast ns
    else
      match t.link? (loc ++ [n]) with
      | some target => enter (startOf loc target) (steps target ++ ns)
      | none => placeWith t enter (loc ++ [n]) ns

/-- Where the names lead over at most so many links. -/
def placeOver (t : FileTree) : ℕ → Location → List Text → Option Location
  | 0 => placeWith t fun _ _ => none
  | links + 1 => placeWith t (placeOver t links)

/-- Where a walk leads there is the place, as long as the walk through a link agrees. -/
theorem WalksTo.placeWith {enter : Location → List Text → Except PathFault Location}
    {enter₁ : Location → List Text → Option Location} {followLast : Bool} {loc goal : Location}
    {ns : List Text} (hend : followLast = true ∨ t.link? goal = none)
    (henter : ∀ loc ns, enter loc ns = .ok goal → enter₁ loc ns = some goal)
    (hwalk : t.WalksTo barred enter followLast goal loc ns) :
    t.placeWith enter₁ loc ns = some goal := by
  induction hwalk with
  | arrives => rfl
  | stays _ ih => rwa [FileTree.placeWith, if_pos rfl]
  | rises _ _ ih => rwa [FileTree.placeWith, if_neg (by decide), if_pos rfl]
  | enters hname hentry _ ih =>
    rwa [FileTree.placeWith, if_neg hname.ne_dot, if_neg hname.ne_dots, link?, hentry]
  | ends hname hgoal hentry =>
    rw [FileTree.placeWith, if_neg hname.ne_dot, if_neg hname.ne_dots, link?]
    rcases hentry with hnone | ⟨content, hfile⟩
    · rw [hnone]
      exact congrArg some hgoal
    · rw [hfile]
      exact congrArg some hgoal
  | stops hname hgoal hentry hlast =>
    -- The way ends at a link, so that neither of the two is so.
    rcases hend with hfollow | hnone
    · rw [hlast] at hfollow
      cases hfollow
    · rw [← hgoal, link?, hentry] at hnone
      cases hnone
  | follows hname hentry _ hin =>
    rw [FileTree.placeWith, if_neg hname.ne_dot, if_neg hname.ne_dots, link?, hentry]
    exact henter _ _ hin

/-- Names that lead somewhere lead to their place, unless they end at a link that is not followed. -/
theorem placeOver_of_walk {followLast : Bool} {links : ℕ} {loc goal : Location} {ns : List Text}
    (hend : followLast = true ∨ t.link? goal = none)
    (hwalk : t.walk barred followLast links loc ns = .ok goal) :
    t.placeOver links loc ns = some goal := by
  induction links generalizing loc ns with
  | zero => exact (walksTo_of_walkWith hwalk).placeWith hend fun _ _ hno => by cases hno
  | succ links ih => exact (walksTo_of_walkWith hwalk).placeWith hend fun _ _ hlink => ih hlink

/-- One name more leads one name further, if it does so behind the links. -/
theorem placeWith_concat {enter : Location → List Text → Option Location} {n : Text}
    (hdot : n ≠ ['.']) (hdots : n ≠ ['.', '.']) {goal : Location}
    (hlink : t.link? (goal ++ [n]) = none)
    (henter : ∀ loc ns, enter loc ns = some goal → enter loc (ns ++ [n]) = some (goal ++ [n]))
    {loc : Location} {ns : List Text} (hplace : t.placeWith enter loc ns = some goal) :
    t.placeWith enter loc (ns ++ [n]) = some (goal ++ [n]) := by
  induction ns generalizing loc with
  | nil =>
    obtain rfl : loc = goal := Option.some.inj hplace
    simp only [List.nil_append, placeWith]
    rw [if_neg hdot, if_neg hdots, hlink]
  | cons m ms ih =>
    simp only [List.cons_append, placeWith] at hplace ⊢
    by_cases hm : m = ['.']
    · rw [if_pos hm] at hplace ⊢
      exact ih hplace
    rw [if_neg hm] at hplace ⊢
    by_cases hms : m = ['.', '.']
    · rw [if_pos hms] at hplace ⊢
      exact ih hplace
    rw [if_neg hms] at hplace ⊢
    cases hentry : t.link? (loc ++ [m]) with
    | none =>
      rw [hentry] at hplace
      exact ih hplace
    | some target =>
      rw [hentry] at hplace
      simp only at hplace ⊢
      rw [← List.append_assoc]
      exact henter _ _ hplace

/-- One name more leads one name further, unless there is a link. -/
theorem placeOver_concat {n : Text} (hdot : n ≠ ['.']) (hdots : n ≠ ['.', '.']) {goal : Location}
    (hlink : t.link? (goal ++ [n]) = none) {links : ℕ} {loc : Location} {ns : List Text}
    (hplace : t.placeOver links loc ns = some goal) :
    t.placeOver links loc (ns ++ [n]) = some (goal ++ [n]) := by
  induction links generalizing loc ns with
  | zero => exact placeWith_concat hdot hdots hlink (fun _ _ hno => by cases hno) hplace
  | succ links ih => exact placeWith_concat hdot hdots hlink (fun _ _ hin => ih hin) hplace

end Names

/-! ### Trees with the same links -/

section Links

/-- Both trees have the same links. -/
def SameLinks (t t₁ : FileTree) : Prop := ∀ loc, t₁.link? loc = t.link? loc

/-- The links decide where names lead. -/
theorem placeOver_congr (h : t.SameLinks t₁) (links : ℕ) (loc : Location) (ns : List Text) :
    t₁.placeOver links loc ns = t.placeOver links loc ns := by
  have hwith : ∀ (enter : Location → List Text → Option Location) (loc : Location) (ns : List Text),
      t₁.placeWith enter loc ns = t.placeWith enter loc ns := by
    intro enter loc ns
    induction ns generalizing loc with
    | nil => rfl
    | cons n ns ih => simp only [placeWith, h _, ih]
  induction links generalizing loc ns with
  | zero => exact hwith _ loc ns
  | succ links ih =>
    have henter : t₁.placeOver links = t.placeOver links := by
      funext loc ns
      exact ih loc ns
    simp only [placeOver, hwith, henter]

/-- A file that is put where no link is leaves the links alone. -/
theorem Writable.sameLinks {place : Location} (h : t.Writable place) (content : Bytes) :
    t.SameLinks (t.put place (.file content)) := by
  intro loc
  unfold link?
  by_cases hloc : loc = place
  · subst hloc
    rw [get?_put_self t h.ne_nil]
    rcases h with hnone | ⟨old, hold⟩
    · rw [hnone]
    · rw [hold]
  · rw [get?_put_of_ne t hloc]

end Links

end FileTree

namespace Disk

variable {d d₁ d₂ : Disk} {path other : Text} {content content₁ : Bytes} {loc : Location}

/-! ### The place of a path -/

section Places

/-- The place of a path. A path that leads in circles has none. -/
def place (d : Disk) (path : Text) : Option Location :=
  d.tree.placeOver maxLinks (FileTree.startOf d.cwd path) (FileTree.steps path)

/-- A path that leads somewhere leads to its place, unless it ends at a link that is not followed. -/
theorem place_of_locate {followLast : Bool} (h : d.locate path followLast = .ok loc)
    (hend : followLast = true ∨ d.tree.link? loc = none) : d.place path = some loc := by
  unfold locate FileTree.locate at h
  by_cases hnull : path.contains nullChar = true
  · rw [if_pos hnull] at h
    cases h
  rw [if_neg hnull] at h
  by_cases hempty : path.isEmpty = true
  · rw [if_pos hempty] at h
    cases h
  rw [if_neg hempty] at h
  by_cases hlong : maxPathBytes < (Text.toUtf8 path).length
  · rw [if_pos hlong] at h
    cases h
  rw [if_neg hlong] at h
  by_cases hstart : d.tree.get? (FileTree.startOf d.cwd path) = some .directory
  · simp only [if_pos hstart] at h
    cases hwalk : d.tree.walk d.barred followLast maxLinks (FileTree.startOf d.cwd path)
        (FileTree.steps path) with
    | error f =>
      rw [hwalk] at h
      cases h
    | ok goal =>
      rw [hwalk] at h
      obtain rfl : goal = loc := Except.ok.inj h
      exact FileTree.placeOver_of_walk hend hwalk
  · simp only [if_neg hstart] at h
    cases h

/-- The place of a proper path is found by its names. -/
theorem place_text {p : Path} (hp : p.Proper) (d : Disk) :
    d.place p.text =
      d.tree.placeOver maxLinks (if p.isAbsolute then [] else d.cwd) p.parts := by
  unfold place
  rw [FileTree.startOf_text hp]
  by_cases hparts : p.parts = []
  · have hsteps : FileTree.steps p.text = [['.']] := by
      obtain ⟨anchor, parts⟩ := p
      obtain rfl : parts = [] := hparts
      cases anchor <;> decide
    rw [hsteps, hparts]
    rfl
  · rw [FileTree.steps_text hp hparts]

/-- The place of a name in a directory, unless there is a link. -/
theorem place_child {p : Path} {n : Text} (hp : p.Proper) (hn : Path.IsName n)
    (hdots : n ≠ ['.', '.']) (hplace : d.place p.text = some loc)
    (hlink : d.tree.link? (loc ++ [n]) = none) : d.place (p.child n).text = some (loc ++ [n]) := by
  have hwithin : p.Within (p.child n) := Path.within_child p hn.head?_ne
  rw [place_text hp] at hplace
  rw [place_text (hwithin.proper hp), hwithin.isAbsolute, Path.child_of_isName p hn]
  exact FileTree.placeOver_concat hn.ne_dot hdots hlink hplace

/-- Every path keeps its place as long as the links stay. -/
theorem place_eq_of_sameLinks (hcwd : d₁.cwd = d.cwd) (h : d.tree.SameLinks d₁.tree) (path : Text) :
    d₁.place path = d.place path := by
  unfold place
  rw [hcwd, FileTree.placeOver_congr h]

/-- The file at the place of the path has this content. -/
def Stores (d : Disk) (path : Text) (content : Bytes) : Prop :=
  ∃ loc, d.place path = some loc ∧ d.tree.get? loc = some (.file content)

/-- What can be read is stored. -/
theorem stores_of_readBytes (h : d.readBytes path = .ok content) : d.Stores path content := by
  obtain ⟨loc, hloc, hcontent, -⟩ := readBytes_eq_ok.1 h
  exact ⟨loc, place_of_locate hloc (Or.inl rfl), hcontent⟩

/-- A file has a content, whether it can be read or not. -/
theorem exists_stores_of_isFile (h : d.isFile path = .ok true) : ∃ content, d.Stores path content := by
  obtain ⟨loc, content, hloc, hcontent⟩ := isFile_eq_ok_true.1 h
  exact ⟨content, loc, place_of_locate hloc (Or.inl rfl), hcontent⟩

/-- A path stores one content. -/
theorem Stores.unique (h : d.Stores path content) (h₁ : d.Stores path content₁) :
    content = content₁ := by
  obtain ⟨loc, hloc, hcontent⟩ := h
  obtain ⟨loc₁, hloc₁, hcontent₁⟩ := h₁
  rw [hloc] at hloc₁
  obtain rfl := Option.some.inj hloc₁
  rw [hcontent] at hcontent₁
  cases hcontent₁
  rfl

end Places

/-! ### Writing under a path -/

section Writing

/-- Writing a file changes no place. -/
theorem place_writeBytes (h : d.writeBytes path content = .ok d₁) (other : Text) :
    d₁.place other = d.place other := by
  obtain ⟨loc, -, hwritable, rfl⟩ := puts_of_writeBytes h
  have hlinks : d.tree.SameLinks (d.tree.put loc (.file content)) := hwritable.sameLinks content
  simp only [place, FileTree.placeOver_congr hlinks]

/-- What is written under a path is stored under it. -/
theorem stores_writeBytes (h : d.writeBytes path content = .ok d₁) : d₁.Stores path content :=
  stores_of_readBytes (readBytes_writeBytes h)

/-- What is stored behind a write was stored before or is what was written, at the same place. -/
theorem stores_of_writeBytes (h : d.writeBytes path content = .ok d₁)
    (hstores : d₁.Stores other content₁) :
    d.Stores other content₁ ∨ content₁ = content ∧ ∃ loc, d.place path = some loc ∧
      d.place other = some loc := by
  obtain ⟨goal, hgoal, hcontent⟩ := hstores
  rw [place_writeBytes h] at hgoal
  obtain ⟨loc, hloc, hwritable, rfl⟩ := puts_of_writeBytes h
  by_cases hsame : goal = loc
  · subst hsame
    rw [FileTree.get?_put_self _ hwritable.ne_nil] at hcontent
    cases hcontent
    exact Or.inr ⟨rfl, goal, place_of_locate hloc (Or.inl rfl), hgoal⟩
  · rw [FileTree.get?_put_of_ne _ hsame] at hcontent
    exact Or.inl ⟨goal, hgoal, hcontent⟩

end Writing

/-! ### Creating directories -/

section Growing

/-- The disk has not changed but for directories that have been created where nothing was. -/
structure Grows (d d₁ : Disk) : Prop where
  cwd : d₁.cwd = d.cwd
  barred : d₁.barred = d.barred
  entries : ∀ loc, d₁.tree.get? loc = d.tree.get? loc ∨
    d.tree.get? loc = none ∧ d₁.tree.get? loc = some .directory

theorem Grows.refl (d : Disk) : d.Grows d := ⟨rfl, rfl, fun _ => Or.inl rfl⟩

theorem Grows.trans (h : d.Grows d₁) (h₁ : d₁.Grows d₂) : d.Grows d₂ := by
  refine ⟨h₁.cwd.trans h.cwd, h₁.barred.trans h.barred, fun loc => ?_⟩
  rcases h.entries loc with hsame | ⟨hnone, hnew⟩
  · rcases h₁.entries loc with hsame₁ | ⟨hnone₁, hnew₁⟩
    · exact Or.inl (hsame₁.trans hsame)
    · exact Or.inr ⟨hsame ▸ hnone₁, hnew₁⟩
  · rcases h₁.entries loc with hsame₁ | ⟨hnone₁, -⟩
    · exact Or.inr ⟨hnone, hsame₁.trans hnew⟩
    · rw [hnew] at hnone₁
      cases hnone₁

/-- Nothing but directories has come, so that an entry of another kind was there. -/
theorem Grows.get?_of_ne {e : Entry} (h : d.Grows d₁) (he : d₁.tree.get? loc = some e)
    (hne : e ≠ .directory) : d.tree.get? loc = some e := by
  rcases h.entries loc with hsame | ⟨-, hnew⟩
  · exact hsame ▸ he
  · rw [hnew] at he
    exact absurd (Option.some.inj he).symm hne

/-- A disk that grows has the same links. -/
theorem Grows.sameLinks (h : d.Grows d₁) : d.tree.SameLinks d₁.tree := by
  intro loc
  unfold FileTree.link?
  rcases h.entries loc with hsame | ⟨hnone, hnew⟩
  · rw [hsame]
  · rw [hnone, hnew]

/-- A disk that grows leaves every path its place. -/
theorem Grows.place_eq (h : d.Grows d₁) (path : Text) : d₁.place path = d.place path :=
  place_eq_of_sameLinks h.cwd h.sameLinks path

/-- What is stored behind was stored before, since only directories are new. -/
theorem Grows.stores (h : d.Grows d₁) (hstores : d₁.Stores path content) : d.Stores path content := by
  obtain ⟨loc, hloc, hcontent⟩ := hstores
  rw [h.place_eq] at hloc
  exact ⟨loc, hloc, h.get?_of_ne hcontent Entry.noConfusion⟩

/-- Only directories have been created, at the places of such paths. -/
structure GrowsAt (paths : Path → Prop) (d d₁ : Disk) : Prop extends Grows d d₁ where
  places : ∀ loc, d.tree.get? loc = none → d₁.tree.get? loc ≠ none →
    ∃ q, paths q ∧ d.place q.text = some loc

instance (paths : Path → Prop) : Frame (GrowsAt paths) where
  refl d := ⟨.refl d, fun _ hnone hsome => absurd hnone hsome⟩
  trans {d d₁ d₂} h h₁ := by
    refine ⟨h.toGrows.trans h₁.toGrows, fun loc hnone hsome => ?_⟩
    by_cases hmid : d₁.tree.get? loc = none
    · obtain ⟨q, hq, hplace⟩ := h₁.places loc hmid hsome
      rw [h.place_eq] at hplace
      exact ⟨q, hq, hplace⟩
    · exact h.places loc hnone hmid

/-- Making a directory lets the disk grow at its path. -/
theorem growsAt_makeDirectory {paths : Path → Prop} {p : Path} (hp : paths p) :
    Change.Keeps (GrowsAt paths) (single fun d => d.makeDirectory p.text) := by
  intro d
  rw [run_single]
  cases hmake : d.makeDirectory p.text with
  | error f => exact Frame.refl d
  | ok d₁ =>
    obtain ⟨place, hlocate, hnone, rfl⟩ := makeDirectory_eq_ok hmake
    have hroot : place ≠ [] := by
      rintro rfl
      cases hnone
    refine ⟨⟨rfl, rfl, fun other => ?_⟩, fun other hbefore hafter => ⟨p, hp, ?_⟩⟩
    · by_cases hother : other = place
      · subst hother
        exact Or.inr ⟨hnone, FileTree.get?_put_self _ hroot _⟩
      · exact Or.inl (FileTree.get?_put_of_ne _ hother _)
    · have hsame : other = place := by
        by_contra hother
        exact hafter ((FileTree.get?_put_of_ne _ hother _).trans hbefore)
      subst hsame
      refine place_of_locate hlocate (Or.inr ?_)
      rw [FileTree.link?, hnone]

/-- Creating a directory with those above it creates nothing but these directories. -/
theorem growsAt_makePath (p : Path) :
    Change.Keeps (GrowsAt fun q => q.anchor = p.anchor ∧ q.parts <+: p.parts) (makePath p) :=
  Change.keeps_makePath fun _ hanchor hparts => growsAt_makeDirectory ⟨hanchor, hparts⟩

/-- So does making a directory with those above it, at their paths. -/
theorem grows_makePath (p : Path) : Change.Keeps Grows (makePath p) :=
  fun d => (growsAt_makePath p d).toGrows

/-- A directory that is created with those above it, or was there, stands at the place of its path. -/
theorem place_of_makePath {p : Path} (h : StateT.run (makePath p).run d = (.ok (), d₁)) :
    ∃ loc, d₁.place p.text = some loc ∧ d₁.tree.get? loc = some .directory := by
  obtain ⟨d₂, hlast⟩ := Change.last_of_makePathWithin h
  rcases Change.run_makeDirectoryIfMissing (·.isDirectory p.text) p.text d₂ with
    ⟨d₃, hmake, hrun⟩ | ⟨r, hrun, hthere⟩
  · rw [hlast] at hrun
    cases hrun
    have hgrows : d₂.Grows d₁ := by
      have hkept := growsAt_makeDirectory (p := p) (rfl : p = p) d₂
      rw [run_single, hmake] at hkept
      exact hkept.toGrows
    obtain ⟨loc, hlocate, hnone, rfl⟩ := makeDirectory_eq_ok hmake
    have hroot : loc ≠ [] := by
      rintro rfl
      cases hnone
    have hplace : d₂.place p.text = some loc := by
      refine place_of_locate hlocate (Or.inr ?_)
      rw [FileTree.link?, hnone]
    exact ⟨loc, (hgrows.place_eq p.text).trans hplace, FileTree.get?_put_self _ hroot _⟩
  · rw [hlast] at hrun
    cases hrun
    obtain ⟨loc, hlocate, hdirectory⟩ := isDirectory_eq_ok_true.1 (hthere rfl)
    exact ⟨loc, place_of_locate hlocate (Or.inl rfl), hdirectory⟩

/-- A directory that could not be created is not among those that have been. -/
theorem growsAt_of_makePath_eq_error {p : Path} {f : FileFault}
    (h : StateT.run (makePath p).run d = (.error f, d₁)) :
    d.GrowsAt (fun q => q.anchor = p.anchor ∧ q.parts <+: p.parts.dropLast) d₁ :=
  Change.keeps_of_makePath_eq_error
    (fun _ hanchor hparts => growsAt_makeDirectory ⟨hanchor, hparts⟩) h

end Growing

end Disk

end JitInspect
