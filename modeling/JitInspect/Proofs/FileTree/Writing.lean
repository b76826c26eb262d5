import JitInspect.Proofs.FileTree.Ways

/-!
# Writing files

A file is put where the path to it leads and where there is a file or nothing before. No way through
the tree is lost by that: a path that led to a location still leads there (`FileTree.walk_put`). So a
path that led to a file still does, whichever file is written (`Disk.isFile_of_writeBytes`), and the
path that is written to leads to a file afterwards (`Disk.isFile_writeBytes`).
-/

namespace JitInspect

/-- There is a file or nothing at the location. -/
def FileTree.Writable (t : FileTree) (loc : Location) : Prop :=
  t.get? loc = none ∨ ∃ content, t.get? loc = some (.file content)

namespace FileTree

variable {t : FileTree} {barred : Location → Bool} {place : Location} {content : Bytes}

/-- No file can be put in place of the root. -/
theorem Writable.ne_nil (h : t.Writable place) : place ≠ [] := by
  rintro rfl
  rcases h with h | ⟨_, h⟩ <;> simp at h

/-- What a path leads to stays, except that a file may have another content. -/
theorem get?_put_of_get? (h : t.Writable place) {loc : Location} {e : Entry}
    (he : t.get? loc = some e) :
    (t.put place (.file content)).get? loc = some e ∨
      (∃ old, e = .file old) ∧ (t.put place (.file content)).get? loc = some (.file content) := by
  by_cases hloc : loc = place
  · subst hloc
    refine Or.inr ⟨?_, get?_put_self t h.ne_nil _⟩
    rcases h with h | ⟨old, h⟩
    · rw [h] at he
      cases he
    · rw [h] at he
      exact ⟨old, (Option.some.inj he).symm⟩
  · refine Or.inl ?_
    rw [get?_put_of_ne t hloc, he]

/-- What is no file stays. -/
theorem get?_put_of_ne_file (h : t.Writable place) {loc : Location} {e : Entry}
    (he : t.get? loc = some e) (hne : ∀ old, e ≠ .file old) :
    (t.put place (.file content)).get? loc = some e := by
  rcases get?_put_of_get? h he with hsame | ⟨⟨old, hold⟩, -⟩
  · exact hsame
  · exact absurd hold (hne old)

/-- Where there was a file or nothing there still is. -/
theorem Writable.put (h : t.Writable place) {loc : Location} (hloc : t.Writable loc) :
    (t.put place (.file content)).Writable loc := by
  by_cases hplace : loc = place
  · exact Or.inr ⟨content, hplace ▸ get?_put_self t h.ne_nil _⟩
  · rwa [Writable, get?_put_of_ne t hplace]

/-- The names lead where they led before, if a link on the way does. -/
theorem WalksTo.put (h : t.Writable place)
    {enter enter₁ : Location → List Text → Except PathFault Location} {followLast : Bool}
    (henter : ∀ loc ns goal, enter loc ns = .ok goal → enter₁ loc ns = .ok goal)
    {loc goal : Location} {ns : List Text} (hwalk : t.WalksTo barred enter followLast goal loc ns) :
    (t.put place (.file content)).WalksTo barred enter₁ followLast goal loc ns := by
  induction hwalk with
  | arrives => exact .arrives
  | stays _ ih => exact .stays ih
  | rises hopen _ ih => exact .rises hopen ih
  | enters hname hentry _ ih => exact .enters hname (get?_put_of_ne_file h hentry (by simp)) ih
  | ends hname hgoal hentry => exact .ends hname hgoal (h.put hentry)
  | stops hname hgoal hentry hlast =>
    exact .stops hname hgoal (get?_put_of_ne_file h hentry (by simp)) hlast
  | follows hname hentry hmore hin =>
    exact .follows hname (get?_put_of_ne_file h hentry (by simp)) hmore (henter _ _ _ hin)

/-- No way through the tree is lost when a file is put somewhere. -/
theorem walk_put (h : t.Writable place) {followLast : Bool} {links : ℕ} {loc goal : Location}
    {ns : List Text} (hwalk : t.walk barred followLast links loc ns = .ok goal) :
    (t.put place (.file content)).walk barred followLast links loc ns = .ok goal := by
  induction links generalizing loc goal ns with
  | zero =>
    exact walkWith_eq_ok_iff.2 ((walksTo_of_walkWith hwalk).put h fun _ _ _ hno => by cases hno)
  | succ links ih =>
    exact walkWith_eq_ok_iff.2 ((walksTo_of_walkWith hwalk).put h fun _ _ _ hlink => ih hlink)

end FileTree

namespace Disk

variable {d d₁ : Disk} {path : Text} {content : Bytes}

/-- What a successful write does. -/
theorem writeBytes_eq_ok (h : d.writeBytes path content = .ok d₁) :
    ∃ loc, d.locate path = .ok loc ∧ d.tree.Writable loc ∧ d.barred loc = false ∧
      d₁ = { d with tree := d.tree.put loc (.file content) } := by
  unfold writeBytes at h
  cases hloc : d.locate path with
  | error f =>
    rw [hloc] at h
    cases h
  | ok loc =>
    rw [hloc] at h
    refine ⟨loc, rfl, ?_⟩
    by_cases hbarred : d.barred loc = true
    · -- Where access is denied, no entry lets the file be written.
      simp only [if_pos hbarred] at h
      split at h <;> cases h
    simp only [if_neg hbarred] at h
    have hopen : d.barred loc = false := Bool.eq_false_iff.2 hbarred
    cases he : d.tree.get? loc with
    | none =>
      simp only [he, Except.ok.injEq] at h
      exact ⟨Or.inl he, hopen, h.symm⟩
    | some e =>
      cases e with
      | file old =>
        simp only [he, Except.ok.injEq] at h
        exact ⟨Or.inr ⟨old, he⟩, hopen, h.symm⟩
      | directory => simp [he] at h
      | link target => simp [he] at h

/-- The content has been put where the path leads, where there was a file or nothing. -/
def Puts (d : Disk) (path : Text) (content : Bytes) (d₁ : Disk) : Prop :=
  ∃ loc, d.locate path = .ok loc ∧ d.tree.Writable loc ∧
    d₁ = { d with tree := d.tree.put loc (.file content) }

/-- A file that was written is put at its place. -/
theorem puts_of_writeBytes (h : d.writeBytes path content = .ok d₁) : d.Puts path content d₁ := by
  obtain ⟨loc, hloc, hwritable, -, hd₁⟩ := writeBytes_eq_ok h
  exact ⟨loc, hloc, hwritable, hd₁⟩

/-- What a successful creation of a file does. -/
theorem puts_of_createFile (h : d.createFile path = .ok d₁) : d.Puts path [] d₁ := by
  unfold createFile at h
  cases hloc : d.locate path with
  | error f =>
    rw [hloc] at h
    cases h
  | ok loc =>
    simp only [hloc] at h
    split at h
    · next old hold => exact ⟨loc, hloc, Or.inr ⟨old, hold⟩, (Except.ok.inj h).symm⟩
    · exact puts_of_writeBytes h

/-- A path leads to a file if it leads to a location with a file. -/
theorem isFile_eq_ok_true :
    d.isFile path = .ok true ↔
      ∃ loc old, d.locate path = .ok loc ∧ d.tree.get? loc = some (.file old) := by
  rw [isFile, ask_eq_ok_true]
  constructor
  · rintro ⟨loc, e, hloc, he, hyes⟩
    cases e with
    | file old => exact ⟨loc, old, hloc, he⟩
    | directory => cases hyes
    | link target => cases hyes
  · rintro ⟨loc, old, hloc, he⟩
    exact ⟨loc, _, hloc, he, rfl⟩

/-- A path that led to a location still does when a file is put where there was one or nothing. -/
theorem locate_put {loc goal : Location} {followLast : Bool} (h : d.tree.Writable loc)
    (hlocate : d.locate path followLast = .ok goal) :
    ({ d with tree := d.tree.put loc (.file content) } : Disk).locate path followLast = .ok goal := by
  rw [locate_eq_ok] at hlocate ⊢
  obtain ⟨hnull, hne, hlength, hstart, hwalk⟩ := hlocate
  exact ⟨hnull, hne, hlength, FileTree.get?_put_of_ne_file h hstart (by simp),
    FileTree.walk_put h hwalk⟩

/-- Wherever a file is put, a path that led to a file still does. -/
theorem Puts.isFile_of {other : Text} (h : d.Puts path content d₁)
    (hfile : d.isFile other = .ok true) : d₁.isFile other = .ok true := by
  obtain ⟨loc, -, hwritable, rfl⟩ := h
  obtain ⟨goal, old, hgoal, hold⟩ := isFile_eq_ok_true.1 hfile
  have hlocate : ({ d with tree := d.tree.put loc (.file content) } : Disk).locate other = .ok goal :=
    locate_put hwritable hgoal
  have hentry : _ ∨ _ ∧ (d.tree.put loc (.file content)).get? goal = some (.file content) :=
    FileTree.get?_put_of_get? hwritable hold
  rcases hentry with hsame | ⟨-, hnew⟩
  · exact isFile_eq_ok_true.2 ⟨goal, old, hlocate, hsame⟩
  · exact isFile_eq_ok_true.2 ⟨goal, content, hlocate, hnew⟩

/-- Files stay files when one is written. -/
theorem isFile_of_writeBytes {other : Text} (h : d.writeBytes path content = .ok d₁)
    (hfile : d.isFile other = .ok true) : d₁.isFile other = .ok true :=
  (puts_of_writeBytes h).isFile_of hfile

/-- The path that is written to leads to a file afterwards. -/
theorem isFile_writeBytes (h : d.writeBytes path content = .ok d₁) :
    d₁.isFile path = .ok true := by
  obtain ⟨loc, hloc, hwritable, rfl⟩ := puts_of_writeBytes h
  exact isFile_eq_ok_true.2 ⟨loc, content, locate_put hwritable hloc,
    FileTree.get?_put_self _ hwritable.ne_nil _⟩

/-- What was written is read back. -/
theorem readBytes_writeBytes (h : d.writeBytes path content = .ok d₁) :
    d₁.readBytes path = .ok content := by
  obtain ⟨loc, hloc, hwritable, hopen, rfl⟩ := writeBytes_eq_ok h
  have hlocate : ({ d with tree := d.tree.put loc (.file content) } : Disk).locate path = .ok loc :=
    locate_put hwritable hloc
  have hentry := FileTree.get?_put_self d.tree hwritable.ne_nil (.file content)
  unfold readBytes
  rw [hlocate]
  simp only [hentry, hopen, Bool.false_eq_true, if_false]

/-! ### Copying -/

section Copying

/-- How a single change is performed. -/
theorem run_single (f : Disk → Except FileFault Disk) (d : Disk) :
    StateT.run (single f).run d =
      match f d with
      | .ok d' => (.ok (), d')
      | .error e => (.error e, d) := rfl

/-- A single change ends well when the disk does not refuse it. -/
theorem run_single_eq_ok {f : Disk → Except FileFault Disk} :
    StateT.run (single f).run d = (.ok (), d₁) ↔ f d = .ok d₁ := by
  rw [run_single]
  cases f d with
  | ok d' =>
    constructor
    · intro h
      cases h
      rfl
    · intro h
      cases h
      rfl
  | error e =>
    constructor <;> intro h <;> cases h

/-- A successful copy has written what the one file holds into the other. -/
theorem withCopy_eq_ok {source : Text} (h : d.withCopy source path = .ok d₁) :
    ∃ content, d.readBytes source = .ok content ∧ d.writeBytes path content = .ok d₁ := by
  unfold withCopy at h
  cases hread : d.readBytes source with
  | error e =>
    rw [hread] at h
    cases h
  | ok content =>
    refine ⟨content, rfl, ?_⟩
    rw [hread] at h
    simp only at h
    split at h
    · next d' hwrite =>
      rw [hwrite, Except.ok.inj h]
    · cases h
    · cases h

/-- Copying writes what the one file holds into the other, or it fails and changes nothing. -/
theorem copyFile_cases (source target : Path) (d : Disk) :
    (∃ content d₁, d.readBytes source.text = .ok content ∧
        d.writeBytes target.text content = .ok d₁ ∧
        StateT.run (copyFile source target).run d = (.ok (), d₁)) ∨
      ∃ f, StateT.run (copyFile source target).run d = (.error f, d) := by
  unfold copyFile copyContent
  rw [run_single]
  by_cases hsame : d.isSame source.text target.text = true
  · simp only [if_pos hsame]
    exact Or.inr ⟨_, rfl⟩
  · simp only [if_neg hsame]
    cases hcopy : d.withCopy source.text target.text with
    | error f => exact Or.inr ⟨f, rfl⟩
    | ok d₁ =>
      obtain ⟨content, hread, hwrite⟩ := withCopy_eq_ok hcopy
      exact Or.inl ⟨content, d₁, hread, hwrite, rfl⟩

/-- A successful copy leaves a file at its target, and elsewhere no file is lost. -/
theorem isFile_of_copyFile {source target : Path}
    (h : StateT.run (copyFile source target).run d = (.ok (), d₁)) :
    d₁.isFile target.text = .ok true ∧
      ∀ other, d.isFile other = .ok true → d₁.isFile other = .ok true := by
  rcases copyFile_cases source target d with ⟨content, d₂, -, hwrite, hrun⟩ | ⟨f, hrun⟩
  · rw [hrun] at h
    cases h
    exact ⟨isFile_writeBytes hwrite, fun other hother => isFile_of_writeBytes hwrite hother⟩
  · rw [hrun] at h
    cases h

end Copying

end Disk

end JitInspect
