import JitInspect.Proofs.FileTree.Writing

/-!
# Removing files

Removing takes away the file or link that a path itself names. Where a path leads in the tree without
it, it led before, unless it ends at the place that became empty (`FileTree.walk_erase`). So no path
leads to a file that did not before (`Disk.isFile_of_remove`), and the path that was removed does not
lead to one any more, whether removing was refused or not (`Disk.holdsFile_without`): only a directory
can be left there.

A file that is created where nothing was and then removed leaves no trace: every path leads where it
led before (`Disk.locate_without_of_puts`).
-/

namespace JitInspect

namespace FileTree

variable {t : FileTree} {barred : Location → Bool} {place : Location} {e : Entry}

/-! ### Ways through the tree without an entry -/

section Erasing

/-- A place with an entry that is no directory is not the root. -/
theorem ne_nil_of_get? (he : t.get? place = some e) (hne : e ≠ .directory) : place ≠ [] := by
  rintro rfl
  exact hne (Option.some.inj he).symm

/-- What is left was there before. -/
theorem get?_of_get?_erase (hplace : place ≠ []) {loc : Location} {entry : Entry}
    (h : (t.erase place).get? loc = some entry) : t.get? loc = some entry := by
  by_cases hloc : loc = place
  · rw [hloc, get?_erase_self t hplace] at h
    cases h
  · rwa [get?_erase_of_ne t hloc] at h

/-- Without an entry that is no directory, the names lead where they led before or end at its place,
if a link on the way does. -/
theorem WalksTo.of_erase (hplace : place ≠ [])
    {enter enter₁ : Location → List Text → Except PathFault Location} {followLast : Bool}
    (henter : ∀ loc ns goal, enter₁ loc ns = .ok goal → goal = place ∨ enter loc ns = .ok goal)
    {loc goal : Location} {ns : List Text}
    (hwalk : (t.erase place).WalksTo barred enter₁ followLast goal loc ns) :
    goal = place ∨ t.WalksTo barred enter followLast goal loc ns := by
  induction hwalk with
  | arrives => exact Or.inr .arrives
  | stays _ ih => exact ih.imp_right .stays
  | rises hopen _ ih => exact ih.imp_right (.rises hopen)
  | enters hname hentry _ ih =>
    exact ih.imp_right (.enters hname (get?_of_get?_erase hplace hentry))
  | @ends loc n hname hgoal hentry =>
    by_cases hhere : loc ++ [n] = place
    · exact Or.inl (hgoal.symm.trans hhere)
    · rw [get?_erase_of_ne t hhere] at hentry
      exact Or.inr (.ends hname hgoal hentry)
  | stops hname hgoal hentry hlast =>
    exact Or.inr (.stops hname hgoal (get?_of_get?_erase hplace hentry) hlast)
  | follows hname hentry hmore hin =>
    exact (henter _ _ _ hin).imp_right
      (.follows hname (get?_of_get?_erase hplace hentry) hmore)

/-- A walk in the tree without an entry is one in the tree, unless it leads to the entry. -/
theorem walk_erase (hplace : place ≠ []) {followLast : Bool} {links : ℕ} {loc goal : Location}
    {ns : List Text} (hwalk : (t.erase place).walk barred followLast links loc ns = .ok goal) :
    goal = place ∨ t.walk barred followLast links loc ns = .ok goal := by
  induction links generalizing loc goal ns with
  | zero =>
    exact ((walksTo_of_walkWith hwalk).of_erase hplace (fun _ _ _ hno => by cases hno)).imp_right
      walkWith_eq_ok_iff.2
  | succ links ih =>
    exact ((walksTo_of_walkWith hwalk).of_erase hplace (fun _ _ _ hlink => ih hlink)).imp_right
      walkWith_eq_ok_iff.2

end Erasing

/-! ### Trees with the same entries -/

section Same

variable {t₁ : FileTree}

/-- What is in the tree decides where names lead. -/
theorem walk_congr (h : ∀ loc, t₁.get? loc = t.get? loc) (followLast : Bool) (links : ℕ)
    (loc : Location) (ns : List Text) :
    t₁.walk barred followLast links loc ns = t.walk barred followLast links loc ns := by
  have hwith : ∀ (enter : Location → List Text → Except PathFault Location) (loc : Location)
      (ns : List Text),
      t₁.walkWith barred enter followLast loc ns = t.walkWith barred enter followLast loc ns := by
    intro enter loc ns
    induction ns generalizing loc with
    | nil => rfl
    | cons n ns ih => simp only [walkWith, h, ih]
  induction links generalizing loc ns with
  | zero => exact hwith _ loc ns
  | succ links ih =>
    have henter : t₁.walk barred followLast links = t.walk barred followLast links := by
      funext loc ns
      exact ih loc ns
    simp only [walk, hwith, henter]

/-- So it decides where paths lead. -/
theorem locate_congr (h : ∀ loc, t₁.get? loc = t.get? loc) (cwd : Location) (path : Text)
    (followLast : Bool) : t₁.locate barred cwd path followLast = t.locate barred cwd path followLast := by
  simp only [locate, h, walk_congr h]

end Same

/-! ### Whether the last link is followed -/

section LastLink

/-- The location is the goal, or a link stands there. -/
def EndsBefore (t : FileTree) (goal mid : Location) : Prop :=
  mid = goal ∨ ∃ target, t.get? mid = some (.link target)

/-- Names that lead to a goal lead there or to a link when a link at the end is not followed. -/
theorem WalksTo.endsBefore {enter enter₁ : Location → List Text → Except PathFault Location}
    (henter : ∀ loc ns goal, enter loc ns = .ok goal →
      ∃ mid, enter₁ loc ns = .ok mid ∧ t.EndsBefore goal mid)
    {loc goal : Location} {ns : List Text} (hwalk : t.WalksTo barred enter true goal loc ns) :
    ∃ mid, t.WalksTo barred enter₁ false mid loc ns ∧ t.EndsBefore goal mid := by
  induction hwalk with
  | arrives => exact ⟨_, .arrives, Or.inl rfl⟩
  | stays _ ih =>
    obtain ⟨mid, hmid, hend⟩ := ih
    exact ⟨mid, .stays hmid, hend⟩
  | rises hopen _ ih =>
    obtain ⟨mid, hmid, hend⟩ := ih
    exact ⟨mid, .rises hopen hmid, hend⟩
  | enters hname hentry _ ih =>
    obtain ⟨mid, hmid, hend⟩ := ih
    exact ⟨mid, .enters hname hentry hmid, hend⟩
  | ends hname hgoal hentry => exact ⟨_, .ends hname hgoal hentry, Or.inl rfl⟩
  | stops _ _ _ hlast => cases hlast
  | @follows loc n target ns hname hentry _ hin =>
    cases ns with
    | nil => exact ⟨loc ++ [n], .stops hname rfl hentry rfl, Or.inr ⟨target, hentry⟩⟩
    | cons m ms =>
      obtain ⟨mid, hmid, hend⟩ := henter _ _ _ hin
      exact ⟨mid, .follows hname hentry (Or.inl (List.cons_ne_nil m ms)) hmid, hend⟩

/-- A walk that follows the last link passes the location at which one that does not ends. -/
theorem walk_endsBefore {links : ℕ} {loc goal : Location} {ns : List Text}
    (hwalk : t.walk barred true links loc ns = .ok goal) :
    ∃ mid, t.walk barred false links loc ns = .ok mid ∧ t.EndsBefore goal mid := by
  induction links generalizing loc goal ns with
  | zero =>
    obtain ⟨mid, hmid, hend⟩ :=
      (walksTo_of_walkWith hwalk).endsBefore (fun _ _ _ hno => by cases hno)
    exact ⟨mid, walkWith_eq_ok_iff.2 hmid, hend⟩
  | succ links ih =>
    obtain ⟨mid, hmid, hend⟩ := (walksTo_of_walkWith hwalk).endsBefore (fun _ _ _ hlink => ih hlink)
    exact ⟨mid, walkWith_eq_ok_iff.2 hmid, hend⟩

end LastLink

end FileTree

namespace Disk

variable {d d₁ : Disk} {path : Text}

/-! ### Removing from a disk -/

section Removing

/-- A path holds a file if the question whether it does is answered with yes. -/
theorem holdsFile_eq_true : d.holdsFile path = true ↔ d.isFile path = .ok true := by
  unfold holdsFile
  cases d.isFile path <;> simp [Except.toOption]

/-- What a successful removal does. -/
theorem remove_eq_ok (h : d.remove path = .ok d₁) :
    ∃ loc e, d.locate path false = .ok loc ∧ d.tree.get? loc = some e ∧ e ≠ .directory ∧
      d₁ = { d with tree := d.tree.erase loc } := by
  unfold remove at h
  cases hloc : d.locate path false with
  | error f =>
    rw [hloc] at h
    cases h
  | ok loc =>
    rw [hloc] at h
    cases he : d.tree.get? loc with
    | none => simp [he] at h
    | some e =>
      cases e with
      | directory => simp [he] at h
      | file content =>
        simp only [he, Except.ok.injEq] at h
        exact ⟨loc, _, rfl, he, by simp, h.symm⟩
      | link target =>
        simp only [he, Except.ok.injEq] at h
        exact ⟨loc, _, rfl, he, by simp, h.symm⟩

/-- What a successful removal of a directory does. -/
theorem removeTree_eq_ok (h : d.removeTree path = .ok d₁) :
    ∃ loc, d.locate path false = .ok loc ∧ d.tree.get? loc = some .directory ∧
      d₁ = { d with tree := d.tree.eraseWithin loc } := by
  unfold removeTree at h
  cases hloc : d.locate path false with
  | error f =>
    rw [hloc] at h
    cases h
  | ok loc =>
    rw [hloc] at h
    cases he : d.tree.get? loc with
    | none => simp [he] at h
    | some e =>
      cases e with
      | file content => simp [he] at h
      | link target =>
        simp only [he] at h
        cases hlook : d.look path <;> simp [hlook] at h
      | directory =>
        simp only [he] at h
        split at h
        · cases h
        · exact ⟨loc, rfl, he, (Except.ok.inj h).symm⟩

/-- Where a path leads on the disk without an entry. -/
theorem locate_erase {loc goal : Location} {followLast : Bool} (hroot : loc ≠ [])
    (h : ({ d with tree := d.tree.erase loc } : Disk).locate path followLast = .ok goal) :
    goal = loc ∨ d.locate path followLast = .ok goal := by
  rw [locate_eq_ok] at h ⊢
  obtain ⟨hnull, hne, hlength, hstart, hwalk⟩ := h
  exact (FileTree.walk_erase hroot hwalk).imp_right fun hbefore =>
    ⟨hnull, hne, hlength, FileTree.get?_of_get?_erase hroot hstart, hbefore⟩

/-- A path that leads somewhere leads there or to a link when the last link is not followed. -/
theorem locate_endsBefore {goal : Location} (h : d.locate path = .ok goal) :
    ∃ mid, d.locate path false = .ok mid ∧ d.tree.EndsBefore goal mid := by
  obtain ⟨hnull, hne, hlength, hstart, hwalk⟩ := locate_eq_ok.1 h
  obtain ⟨mid, hmid, hend⟩ := FileTree.walk_endsBefore hwalk
  exact ⟨mid, locate_eq_ok.2 ⟨hnull, hne, hlength, hstart, hmid⟩, hend⟩

/-- Whichever path is removed, no other one leads to a file that did not before. -/
theorem isFile_of_remove {other : Text} (h : d.remove path = .ok d₁)
    (hfile : d₁.isFile other = .ok true) : d.isFile other = .ok true := by
  obtain ⟨loc, e, -, he, hne, rfl⟩ := remove_eq_ok h
  obtain ⟨goal, content, hgoal, hcontent⟩ := isFile_eq_ok_true.1 hfile
  have hroot : loc ≠ [] := FileTree.ne_nil_of_get? he hne
  rcases locate_erase hroot hgoal with rfl | hbefore
  · rw [FileTree.get?_erase_self _ hroot] at hcontent
    cases hcontent
  · by_cases hloc : goal = loc
    · subst hloc
      rw [FileTree.get?_erase_self _ hroot] at hcontent
      cases hcontent
    · rw [FileTree.get?_erase_of_ne _ hloc] at hcontent
      exact isFile_eq_ok_true.2 ⟨goal, content, hbefore, hcontent⟩

/-- The disk after the file or link at the path has been removed, if it could be. -/
def without (d : Disk) (path : Text) : Disk := (d.remove path).toOption.getD d

/-- Removing brings no file about. -/
theorem holdsFile_of_without {other : Text} (h : (d.without path).holdsFile other = true) :
    d.holdsFile other = true := by
  unfold without at h
  cases hremove : d.remove path with
  | ok d₁ =>
    rw [hremove] at h
    exact holdsFile_eq_true.2 (isFile_of_remove hremove (holdsFile_eq_true.1 h))
  | error f =>
    rw [hremove] at h
    exact h

/-- The path that was removed does not lead to a file, also if removing it was refused. -/
theorem holdsFile_without : (d.without path).holdsFile path = false := by
  by_contra hholds
  rw [Bool.not_eq_false, holdsFile_eq_true, isFile_eq_ok_true] at hholds
  obtain ⟨goal, content, hgoal, hcontent⟩ := hholds
  obtain ⟨mid, hmid, hend⟩ := locate_endsBefore hgoal
  unfold without at hmid hend hcontent
  cases hremove : d.remove path with
  | error f =>
    rw [hremove] at hmid hend hcontent
    simp only [Except.toOption, Option.getD_none] at hmid hend hcontent
    -- The path itself would name the file or a link to it, and so it could be removed.
    unfold remove at hremove
    rw [hmid] at hremove
    rcases hend with rfl | ⟨target, htarget⟩
    · simp [hcontent] at hremove
    · simp [htarget] at hremove
  | ok d₁ =>
    rw [hremove] at hmid hend hcontent
    simp only [Except.toOption, Option.getD_some] at hmid hend hcontent
    obtain ⟨loc, e, hloc, he, hne, rfl⟩ := remove_eq_ok hremove
    have hroot : loc ≠ [] := FileTree.ne_nil_of_get? he hne
    have hnone : (d.tree.erase loc).get? mid = none := by
      rcases locate_erase hroot hmid with rfl | hbefore
      · exact FileTree.get?_erase_self _ hroot
      · rw [hloc] at hbefore
        obtain rfl : loc = mid := Except.ok.inj hbefore
        exact FileTree.get?_erase_self _ hroot
    rcases hend with rfl | ⟨target, htarget⟩
    · rw [hnone] at hcontent
      cases hcontent
    · rw [hnone] at htarget
      cases htarget

/-- The files are removed one after the other. -/
def withoutAll (d : Disk) (paths : List Text) : Disk := paths.foldl without d

/-- A file that is left was there before. -/
theorem holdsFile_of_withoutAll {paths : List Text} {other : Text}
    (h : (d.withoutAll paths).holdsFile other = true) : d.holdsFile other = true := by
  induction paths generalizing d with
  | nil => exact h
  | cons p ps ih => exact holdsFile_of_without (ih h)

/-- Removing files puts none anywhere. -/
theorem holdsFile_withoutAll_of_not {paths : List Text} {other : Text}
    (h : d.holdsFile other = false) : (d.withoutAll paths).holdsFile other = false := by
  rw [← Bool.not_eq_true] at h ⊢
  exact mt holdsFile_of_withoutAll h

/-- None of the paths that were removed leads to a file. -/
theorem holdsFile_withoutAll {paths : List Text} (h : path ∈ paths) :
    (d.withoutAll paths).holdsFile path = false := by
  induction paths generalizing d with
  | nil => cases h
  | cons p ps ih =>
    rcases List.mem_cons.1 h with rfl | h
    · by_contra hholds
      have hbefore : (d.without path).holdsFile path = true :=
        holdsFile_of_withoutAll (Bool.not_eq_false _ ▸ hholds)
      rw [holdsFile_without] at hbefore
      cases hbefore
    · exact ih h

end Removing

/-! ### Places where nothing is -/

section Vacancy

/-- Nothing stands at the path itself, not even a link. -/
def Vacant (d : Disk) (path : Text) : Prop :=
  ∀ loc, d.locate path false = .ok loc → d.tree.get? loc = none

/-- The path leads to the location, and nothing is there. -/
structure FreeAt (d : Disk) (path : Text) (loc : Location) : Prop where
  locate : d.locate path = .ok loc
  none : d.tree.get? loc = none

/-- A path that leads to a location where nothing stands does so without a link at its end. -/
theorem Vacant.locate_false {loc : Location} (h : d.Vacant path) (hloc : d.locate path = .ok loc) :
    d.locate path false = .ok loc := by
  obtain ⟨mid, hmid, rfl | ⟨target, htarget⟩⟩ := locate_endsBefore hloc
  · exact hmid
  · rw [h mid hmid] at htarget
    cases htarget

/-- A vacant path is free where it leads. -/
theorem Vacant.freeAt {loc : Location} (h : d.Vacant path) (hloc : d.locate path = .ok loc) :
    d.FreeAt path loc := ⟨hloc, h loc (h.locate_false hloc)⟩

/-- Where nothing is, no file is. -/
theorem FreeAt.holdsFile {loc : Location} (h : d.FreeAt path loc) : d.holdsFile path = false := by
  by_contra hholds
  rw [Bool.not_eq_false, holdsFile_eq_true, isFile_eq_ok_true] at hholds
  obtain ⟨goal, content, hgoal, hcontent⟩ := hholds
  rw [h.locate] at hgoal
  cases hgoal
  rw [h.none] at hcontent
  cases hcontent

/-- A file that is put elsewhere leaves the place free. -/
theorem FreeAt.of_puts {other : Text} {loc place : Location} {content : Bytes}
    (h : d.FreeAt path loc) (hplace : d.locate other = .ok place) (hne : loc ≠ place)
    (hputs : d.Puts other content d₁) : d₁.FreeAt path loc ∧ d₁.locate other = .ok place := by
  obtain ⟨place₁, hplace₁, hwritable, rfl⟩ := hputs
  rw [hplace] at hplace₁
  cases hplace₁
  refine ⟨⟨locate_put hwritable h.locate, ?_⟩, locate_put hwritable hplace⟩
  exact (FileTree.get?_put_of_ne _ hne _).trans h.none

/-- A path at which no file can be created does not lead to one. -/
theorem holdsFile_of_createFile_error {f : FileFault} (h : d.createFile path = .error f) :
    d.holdsFile path = false := by
  by_contra hholds
  rw [Bool.not_eq_false, holdsFile_eq_true, isFile_eq_ok_true] at hholds
  obtain ⟨goal, old, hgoal, hold⟩ := hholds
  unfold createFile at h
  simp only [hgoal, hold] at h
  cases h

/-- A file that is created where nothing was and then removed leaves no trace. -/
theorem locate_without_of_puts {content : Bytes} (hvacant : d.Vacant path)
    (hputs : d.Puts path content d₁) (other : Text) (followLast : Bool) :
    (d₁.without path).locate other followLast = d.locate other followLast ∧
      ∀ loc, (d₁.without path).tree.get? loc = d.tree.get? loc := by
  obtain ⟨place, hplace, hwritable, rfl⟩ := hputs
  have hnone : d.tree.get? place = none := (hvacant.freeAt hplace).none
  have hremove : ({ d with tree := d.tree.put place (.file content) } : Disk).remove path =
      .ok { d with tree := (d.tree.put place (.file content)).erase place } := by
    have hlocate : ({ d with tree := d.tree.put place (.file content) } : Disk).locate path false =
        .ok place := locate_put hwritable (hvacant.locate_false hplace)
    unfold remove
    rw [hlocate]
    simp [FileTree.get?_put_self _ hwritable.ne_nil]
  have hget : ∀ loc, ((d.tree.put place (.file content)).erase place).get? loc = d.tree.get? loc := by
    intro loc
    by_cases hloc : loc = place
    · rw [hloc, FileTree.get?_erase_self _ hwritable.ne_nil, hnone]
    · rw [FileTree.get?_erase_of_ne _ hloc, FileTree.get?_put_of_ne _ hloc]
  unfold without
  rw [hremove]
  refine ⟨?_, hget⟩
  unfold locate
  simp only [Except.toOption, Option.getD_some, FileTree.locate_congr hget]

end Vacancy

end Disk

end JitInspect
