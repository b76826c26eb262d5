import JitInspect.Proofs.FileTree.Removing
import JitInspect.Proofs.FileTree.Written

/-!
# Following names

The names of a path are followed one after the other, so that a path that leads to something leads over
the directories above it. In a tree in which everything stands in a directory (`FileTree.Closed`), each
path that a directory lies below is one itself (`Disk.isDirectory_of_within`). The last name of a path
is also the last name of the place that it leads to, as long as no link is followed there
(`FileTree.walk_getLast?`).
-/

namespace JitInspect

namespace FileTree

variable {t : FileTree} {barred : Location → Bool}

/-! ### The last name -/

section Last

/-- The last name that is followed is the last name of the place, if that is so behind every link. -/
theorem WalksTo.getLast? {enter : Location → List Text → Except PathFault Location} {n : Text}
    (hdot : n ≠ ['.']) (hdots : n ≠ ['.', '.'])
    (henter : ∀ loc ns goal, ns.getLast? = some n → enter loc ns = .ok goal → goal.getLast? = some n)
    {loc goal : Location} {ns : List Text} (hlast : ns.getLast? = some n)
    (hwalk : t.WalksTo barred enter false goal loc ns) : goal.getLast? = some n := by
  induction hwalk with
  | arrives => cases hlast
  | @stays _ ns _ ih =>
    cases ns with
    | nil => exact absurd (Option.some.inj hlast).symm hdot
    | cons m ms => exact ih hlast
  | @rises _ ns _ _ ih =>
    cases ns with
    | nil => exact absurd (Option.some.inj hlast).symm hdots
    | cons m ms => exact ih hlast
  | @enters loc _ ns _ _ h ih =>
    cases ns with
    | nil =>
      obtain rfl := Option.some.inj hlast
      cases h
      exact List.getLast?_concat
    | cons m ms => exact ih hlast
  | ends _ hgoal _ =>
    rw [← hgoal, List.getLast?_concat]
    exact hlast
  | stops _ hgoal _ _ =>
    rw [← hgoal, List.getLast?_concat]
    exact hlast
  | @follows _ _ _ ns _ _ hmore hin =>
    cases ns with
    | nil => simp at hmore
    | cons m ms => exact henter _ _ _ (by rw [List.getLast?_append_cons]; exact hlast) hin

/-- The last name that is followed is the last name of the place where the way ends. -/
theorem walk_getLast? {n : Text} (hdot : n ≠ ['.']) (hdots : n ≠ ['.', '.']) {links : ℕ}
    {loc goal : Location} {ns : List Text} (hlast : ns.getLast? = some n)
    (hwalk : t.walk barred false links loc ns = .ok goal) : goal.getLast? = some n := by
  induction links generalizing loc ns goal with
  | zero =>
    exact (walksTo_of_walkWith hwalk).getLast? hdot hdots (fun _ _ _ _ hno => by cases hno) hlast
  | succ links ih =>
    exact (walksTo_of_walkWith hwalk).getLast? hdot hdots (fun _ _ _ => ih) hlast

end Last

/-! ### The directories on the way -/

section Above

/-- Whatever is in the tree stands in a directory. -/
def Closed (t : FileTree) : Prop :=
  ∀ loc e, t.get? loc = some e → t.get? loc.dropLast = some .directory

/-- In an empty tree everything stands in a directory. -/
theorem closed_empty : Closed empty := by
  intro loc e he
  cases loc with
  | nil => rfl
  | cons n ns => cases he

/-- What is put into a directory, in place of what is not a directory, stands in one. -/
theorem Closed.put {loc : Location} {e : Entry} (h : t.Closed)
    (hparent : t.get? loc.dropLast = some .directory) (hplace : t.get? loc ≠ some .directory) :
    (t.put loc e).Closed := by
  intro other e₁ he₁
  have hdirectory : t.get? other.dropLast = some .directory := by
    by_cases hother : other = loc
    · rw [hother, hparent]
    · rw [get?_put_of_ne t hother] at he₁
      exact h other e₁ he₁
  have hne : other.dropLast ≠ loc := by
    intro heq
    rw [heq] at hdirectory
    exact hplace hdirectory
  rw [get?_put_of_ne t hne, hdirectory]

/-- A lookup that goes on at a link starts in a directory if the link stands in one. -/
theorem get?_startOf {loc : Location} (hloc : t.get? loc = some .directory) (target : Text) :
    t.get? (startOf loc target) = some .directory := by
  unfold startOf
  by_cases hroot : Text.startsWith target ['/'] = true
  · rw [if_pos hroot]
    rfl
  · rw [if_neg hroot]
    exact hloc

/-- A way that goes on beyond some names leads over a directory there. -/
theorem WalksTo.front (hclosed : t.Closed) {followLast : Bool} {ms : List Text} (hms : ms ≠ [])
    {enter enter₁ : Location → List Text → Except PathFault Location}
    (henter : ∀ start ns goal, t.get? start = some .directory → enter start (ns ++ ms) = .ok goal →
      ∃ mid, enter₁ start ns = .ok mid ∧ t.get? mid = some .directory)
    {loc goal : Location} {ns : List Text} (hloc : t.get? loc = some .directory)
    (hwalk : t.WalksTo barred enter followLast goal loc (ns ++ ms)) :
    ∃ mid, t.WalksTo barred enter₁ true mid loc ns ∧ t.get? mid = some .directory := by
  induction ns generalizing loc with
  | nil => exact ⟨loc, .arrives, hloc⟩
  | cons n ns ih =>
    -- No case of the relation in which the name is the last one is possible.
    rw [List.cons_append] at hwalk
    generalize hrest : ns ++ ms = rest at hwalk
    have hmore : rest ≠ [] := by simp [← hrest, hms]
    cases hwalk with
    | stays h =>
      obtain ⟨mid, hmid, hdirectory⟩ := ih hloc (hrest ▸ h)
      exact ⟨mid, .stays hmid, hdirectory⟩
    | rises hopen h =>
      obtain ⟨mid, hmid, hdirectory⟩ := ih (hclosed loc _ hloc) (hrest ▸ h)
      exact ⟨mid, .rises hopen hmid, hdirectory⟩
    | enters hname hentry h =>
      obtain ⟨mid, hmid, hdirectory⟩ := ih hentry (hrest ▸ h)
      exact ⟨mid, .enters hname hentry hmid, hdirectory⟩
    | ends => exact absurd rfl hmore
    | stops => exact absurd rfl hmore
    | follows hname hentry _ hin =>
      rw [← hrest, ← List.append_assoc] at hin
      obtain ⟨mid, hmid, hdirectory⟩ := henter _ _ _ (get?_startOf hloc _) hin
      exact ⟨mid, .follows hname hentry (Or.inr rfl) hmid, hdirectory⟩

/-- What stands ahead of the last names leads to a directory. -/
theorem walk_front (hclosed : t.Closed) {followLast : Bool} {links : ℕ} {ns ms : List Text}
    (hms : ms ≠ []) {loc goal : Location} (hloc : t.get? loc = some .directory)
    (hwalk : t.walk barred followLast links loc (ns ++ ms) = .ok goal) :
    ∃ mid, t.walk barred true links loc ns = .ok mid ∧ t.get? mid = some .directory := by
  induction links generalizing loc ns goal with
  | zero =>
    obtain ⟨mid, hmid, hdirectory⟩ := (walksTo_of_walkWith hwalk).front hclosed hms
      (fun _ _ _ _ hno => by cases hno) hloc
    exact ⟨mid, walkWith_eq_ok_iff.2 hmid, hdirectory⟩
  | succ links ih =>
    obtain ⟨mid, hmid, hdirectory⟩ := (walksTo_of_walkWith hwalk).front hclosed hms
      (fun _ _ _ hstart hlink => ih hstart hlink) hloc
    exact ⟨mid, walkWith_eq_ok_iff.2 hmid, hdirectory⟩

end Above

end FileTree

namespace Disk

variable {d : Disk} {path : Text}

/-! ### Directories -/

section Directories

/-- A path leads to a directory if it leads to a location with one. -/
theorem isDirectory_eq_ok_true :
    d.isDirectory path = .ok true ↔
      ∃ loc, d.locate path = .ok loc ∧ d.tree.get? loc = some .directory := by
  rw [isDirectory, ask_eq_ok_true]
  constructor
  · rintro ⟨loc, e, hloc, he, hyes⟩
    cases e with
    | directory => exact ⟨loc, hloc, he⟩
    | file content => cases hyes
    | link target => cases hyes
  · rintro ⟨loc, hloc, he⟩
    exact ⟨loc, _, hloc, he, rfl⟩

/-- A path to a name in a folder leads to a place of that name, if no link is followed there. -/
theorem getLast?_of_locate {p : Path} {n : Text} (hn : Path.IsName n) (hdots : n ≠ ['.', '.'])
    {loc : Location} (hloc : d.locate (p.child n).text false = .ok loc) : loc.getLast? = some n := by
  obtain ⟨-, -, -, -, hwalk⟩ := locate_eq_ok.1 hloc
  obtain ⟨front, hsteps⟩ := FileTree.steps_child p hn
  exact FileTree.walk_getLast? hn.ne_dot hdots (by rw [hsteps, List.getLast?_concat]) hwalk

/-- A path without names leads to the directory where lookups start. -/
theorem isDirectory_of_no_parts {p : Path} (hne : p.parts = [])
    (hstart : d.tree.get? (FileTree.startOf d.cwd p.text) = some .directory) :
    d.isDirectory p.text = .ok true := by
  obtain ⟨anchor, parts⟩ := p
  subst hne
  refine isDirectory_eq_ok_true.2 ⟨_, locate_eq_ok.2 ?_, hstart⟩
  cases anchor <;> exact ⟨by decide, by decide, by decide, hstart, rfl⟩

/-- Above a directory there are directories. -/
theorem isDirectory_of_within (hclosed : d.tree.Closed) {p q : Path} (hp : p.Proper)
    (h : p.Within q) (hdirectory : d.isDirectory q.text = .ok true) :
    d.isDirectory p.text = .ok true := by
  obtain ⟨goal, hgoal, hentry⟩ := isDirectory_eq_ok_true.1 hdirectory
  obtain ⟨hnull, -, hlength, hstart, hwalk⟩ := locate_eq_ok.1 hgoal
  have hsame : FileTree.startOf d.cwd q.text = FileTree.startOf d.cwd p.text := by
    rw [FileTree.startOf_text (h.proper hp), FileTree.startOf_text hp, h.isAbsolute]
  rw [hsame] at hstart hwalk
  by_cases hne : p.parts = []
  · exact isDirectory_of_no_parts hne hstart
  obtain ⟨rest, hrest⟩ := h.text hne
  obtain ⟨ns, hparts, -⟩ := h.parts
  rw [FileTree.steps_text (h.proper hp) (by simp [hparts, hne]), hparts] at hwalk
  have hmid : ∃ mid,
      d.tree.walk d.barred true maxLinks (FileTree.startOf d.cwd p.text) p.parts = .ok mid ∧
        d.tree.get? mid = some .directory := by
    by_cases hns : ns = []
    · rw [hns, List.append_nil] at hwalk
      exact ⟨goal, hwalk, hentry⟩
    · exact FileTree.walk_front hclosed hns hstart hwalk
  obtain ⟨mid, hmid, hdir⟩ := hmid
  refine isDirectory_eq_ok_true.2 ⟨mid, locate_eq_ok.2 ⟨?_, ?_, ?_, hstart, ?_⟩, hdir⟩
  · exact fun hmem => hnull (by rw [hrest]; exact List.mem_append_left _ hmem)
  · intro hempty
    have hsteps : [['.']] = p.parts := by
      rw [← FileTree.steps_text hp hne, hempty]
      rfl
    exact (hp ['.'] (by rw [← hsteps]; exact List.mem_singleton_self _)).ne_dot rfl
  · rw [hrest, Text.toUtf8, List.flatMap_append, List.length_append] at hlength
    exact Nat.le_trans (Nat.le_add_right _ _) hlength
  · rw [FileTree.steps_text hp hne]
    exact hmid

end Directories

end Disk

end JitInspect
