import JitInspect.FlowGraph.Dump
import JitInspect.Proofs.FileTree.Walking
import Mathlib.Data.Nat.Digits.Defs

/-!
# Phases in a directory

The phases of a dump that is split into a directory are files of this directory
(`FlowGraph.Phase.StoredIn`), so that the directory can be read off any of them
(`FlowGraph.Phase.StoredIn.parent_eq`). Splitting creates the directory and writes files into it, and
does nothing else to the disk (`FlowGraph.writes_of_splitInto`).
-/

namespace JitInspect

namespace FlowGraph

variable {dir : Path} {d d₁ : Disk} {p : Phase} {s : Split} {fs : List Text} {o a : ℕ}

/-! ### Phases and their directory -/

section Directory

/-- What a phase is called in a directory. -/
def Phase.fileName (p : Phase) : Text := p.identifier ++ ".dot"

/-- The phase is a file of the directory. -/
structure Phase.StoredIn (dir : Path) (p : Phase) : Prop where
  file : p.file = some (p.pathIn dir).text
  no_slash : Path.separator ∉ p.name

/-- There is no slash in the name of a file. -/
theorem not_mem_fileNameOf (name : Text) : Path.separator ∉ fileNameOf name := by
  unfold fileNameOf
  intro hmem
  obtain ⟨c, -, hc⟩ := List.mem_map.1 hmem
  by_cases hforbidden : isForbiddenInFileName c = true
  · rw [if_pos hforbidden] at hc
    exact absurd hc (by decide)
  · rw [if_neg hforbidden] at hc
    subst hc
    exact hforbidden (by decide)

/-- The name of a file has more than two characters. -/
theorem Phase.two_lt_length_fileName (p : Phase) : 2 < p.fileName.length := by
  unfold fileName identifier
  simp only [List.length_append]
  have hdot : (".dot" : Text).length = 4 := rfl
  omega

theorem Phase.fileName_ne_dots (p : Phase) : p.fileName ≠ ['.', '.'] := by
  intro hdots
  have hlength := p.two_lt_length_fileName
  rw [hdots] at hlength
  exact absurd hlength (by decide)

theorem Phase.isName_fileName (h : Path.separator ∉ p.name) : Path.IsName p.fileName := by
  have hdigits : ∀ c ∈ Text.ofNat p.absoluteOrdinal, c.isDigit = true := fun c hc =>
    Nat.isDigit_of_mem_toDigits (by decide) (by decide) hc
  have hslash : Path.separator ∉ Text.ofNat p.absoluteOrdinal := fun hmem =>
    absurd (hdigits _ hmem) (by decide)
  have hlength := p.two_lt_length_fileName
  refine ⟨?_, ?_, ?_⟩
  · intro hnil
    rw [hnil] at hlength
    exact absurd hlength (by decide)
  · intro hdot
    rw [hdot] at hlength
    exact absurd hlength (by decide)
  · have hmark : Path.separator ∉ (". " : Text) := by decide
    have hend : Path.separator ∉ (".dot" : Text) := by decide
    unfold fileName identifier
    simp only [List.mem_append, not_or]
    exact ⟨⟨⟨hslash, hmark⟩, h⟩, hend⟩

/-- Where a phase is stored, its last name is the name of the file. -/
theorem Phase.pathIn_eq (h : Path.separator ∉ p.name) :
    p.pathIn dir = ⟨dir.anchor, dir.parts ++ [p.fileName]⟩ :=
  Path.child_of_isName dir (Phase.isName_fileName h)

/-- The directory of a phase that is stored is the one above its file. -/
theorem Phase.StoredIn.parent_eq (h : p.StoredIn dir) (hdir : dir.Proper) :
    p.file.map (fun f => (Path.ofText f).parent) = some dir := by
  have hproper : (p.pathIn dir).Proper := by
    rw [Phase.pathIn_eq h.no_slash]
    intro n hn
    rcases List.mem_append.1 hn with hn | hn
    · exact hdir n hn
    · rw [List.mem_singleton.1 hn]
      exact Phase.isName_fileName h.no_slash
  have hne : (p.pathIn dir).parts ≠ [] := by
    rw [Phase.pathIn_eq h.no_slash]
    simp
  rw [h.file, Option.map_some, Path.ofText_text hproper hne, Phase.pathIn_eq h.no_slash]
  simp [Path.parent]

end Directory

/-! ### Splitting into a directory -/

section Splitting

/-- A phase is written into the directory, or left out. -/
theorem storeIn_cases (dir : Path) (p : Phase) (d : Disk) :
    (∃ d₁, d.writeBytes (p.pathIn dir).text (Text.toUtf8 p.graph) = .ok d₁ ∧
        (storeIn dir p).run d = (.ok { p with file := some (p.pathIn dir).text }, d₁)) ∨
      ∃ w, (storeIn dir p).run d = (.error w, d) := by
  cases hwrite : d.writeBytes (p.pathIn dir).text (Text.toUtf8 p.graph) with
  | ok d₁ =>
    refine Or.inl ⟨d₁, rfl, ?_⟩
    simp only [storeIn, StateT.run, hwrite]
  | error f =>
    refine Or.inr ⟨⟨.warning, "Failed to write flow graph " ++ (p.pathIn dir).text⟩, ?_⟩
    simp only [storeIn, StateT.run, hwrite]

/-- The phases are written one after another, each into a file of the directory. -/
inductive Writes (dir : Path) : List Phase → Disk → Disk → Prop where
  | nil {d : Disk} : Writes dir [] d d
  | cons {p : Phase} {ps : List Phase} {d d₁ d₂ : Disk} (hp : p.StoredIn dir)
      (hwrite : d.writeBytes (p.pathIn dir).text (Text.toUtf8 p.graph) = .ok d₁)
      (hrest : Writes dir ps d₁ d₂) : Writes dir (p :: ps) d d₂

/-- The phases that were written are stored. -/
theorem Writes.storedIn {ps : List Phase} (h : Writes dir ps d d₁) : ∀ p ∈ ps, p.StoredIn dir := by
  induction h with
  | nil => exact fun p hp => absurd hp List.not_mem_nil
  | cons hp _ _ ih => exact List.forall_mem_cons.2 ⟨hp, ih⟩

/-- The phases of a dump that is split are those that could be written. -/
theorem writes_number (dir : Path) (fs : List Text) (o a : ℕ) (d : Disk) :
    Writes dir (Split.ofResults ((number (storeIn dir) o a fs).run d).1).phases d
      ((number (storeIn dir) o a fs).run d).2 := by
  induction fs generalizing o a d with
  | nil => exact .nil
  | cons f fs ih =>
    unfold number
    by_cases hblank : Text.blank f = true
    · rw [if_pos hblank]
      exact ih o a d
    · rw [if_neg hblank]
      cases hname : phaseName f with
      | error e => exact ih o a d
      | ok name =>
        dsimp only
        rcases storeIn_cases dir ⟨(if name = initialPhase then 0 else o) + 1, a + 1, fileNameOf name,
          graphOf f, none, none⟩ d with ⟨d₁, hwrite, hrun⟩ | ⟨w, hrun⟩
        · rw [StateT.run_bind, hrun]
          exact .cons ⟨rfl, not_mem_fileNameOf name⟩ hwrite (ih _ _ d₁)
        · rw [StateT.run_bind, hrun]
          exact ih _ _ d

/-- Splitting creates the directory and then stores phase after phase. -/
theorem run_splitInto (dir : Path) (dump : Text) (d : Disk) :
    StateT.run (splitInto dir dump).run d =
      match StateT.run (Disk.makePath dir).run d with
      | (.ok (), d₁) =>
        (.ok (Split.ofResults ((number (storeIn dir) 0 0 (fragments dump)).run d₁).1),
          ((number (storeIn dir) 0 0 (fragments dump)).run d₁).2)
      | (.error f, d₁) => (.error f, d₁) := by
  unfold splitInto
  simp only [ExceptT.run, bind, ExceptT.bind, ExceptT.mk, StateT.run, StateT.bind, ExceptT.bindCont]
  rcases Disk.makePath dir d with ⟨_ | _, d₁⟩ <;> rfl

/-- What is left of a dump that has been split are its directory and the phases that were written. -/
theorem writes_of_splitInto {dump : Text}
    (h : StateT.run (splitInto dir dump).run d = (.ok s, d₁)) :
    ∃ d₂, StateT.run (Disk.makePath dir).run d = (.ok (), d₂) ∧ Writes dir s.phases d₂ d₁ := by
  rw [run_splitInto] at h
  rcases hmake : StateT.run (Disk.makePath dir).run d with ⟨f | u, d₂⟩
  · rw [hmake] at h
    cases h
  · rw [hmake] at h
    cases h
    exact ⟨d₂, rfl, writes_number dir _ 0 0 d₂⟩

/-- A dump that cannot be split has come to no directory. -/
theorem makePath_of_splitInto_error {dump : Text} {f : FileFault}
    (h : StateT.run (splitInto dir dump).run d = (.error f, d₁)) :
    StateT.run (Disk.makePath dir).run d = (.error f, d₁) := by
  rw [run_splitInto] at h
  rcases hmake : StateT.run (Disk.makePath dir).run d with ⟨g | u, d₂⟩
  · rw [hmake] at h
    cases h
    rfl
  · rw [hmake] at h
    cases h

/-- All phases of a dump that is split are stored. -/
theorem storedIn_of_splitInto {dump : Text}
    (h : StateT.run (splitInto dir dump).run d = (.ok s, d₁)) : ∀ p ∈ s.phases, p.StoredIn dir := by
  obtain ⟨d₂, -, hwrites⟩ := writes_of_splitInto h
  exact hwrites.storedIn

end Splitting

end FlowGraph

end JitInspect
