import JitInspect.Proofs.FileTree.Writing
import JitInspect.Proofs.Run.Errand

/-!
# Supplying the loader

A destination gets the files of a loader. That takes no process when they are there already. Else
the toolchain is asked for its version, and the loader is built unless that has been done for this
version before. Whichever way it goes, when the cache is done the destination holds both files
(`LoaderCache.ensure_yields`).
-/

namespace JitInspect

/-- What is done to supply a loader: nothing, asking for the version, or that and building it. -/
def Errand.supplies : List (List Errand) := [[], [.version], [.version, .loader]]

namespace LoaderCache

variable {c : LoaderCache} {framework : Text} {destination folder : Path} {w w₁ : World}

/-! ### The files of a loader -/

section Files

/-- All of the files are there if each of them is. -/
theorem holdsAll_eq_ok_true {d : Disk} {ps : List Path} :
    holdsAll d ps = .ok true ↔ ∀ p ∈ ps, d.isFile p.text = .ok true := by
  induction ps with
  | nil => simp [holdsAll]
  | cons p ps ih =>
    rw [List.forall_mem_cons, ← ih]
    simp only [holdsAll]
    cases d.isFile p.text with
    | error f => simp
    | ok b => cases b <;> simp

/-- Files that are copied one after the other are all there in the end, and no other file is lost. -/
theorem isFile_of_copies {names : List Text} {source : Path}
    (h : (names.forM fun n => Action.change
      (Disk.copyFile (source.child n) (destination.child n))).perform w = (.ok (), w₁)) :
    (∀ n ∈ names, w₁.disk.isFile (destination.child n).text = .ok true) ∧
      ∀ other, w.disk.isFile other = .ok true → w₁.disk.isFile other = .ok true := by
  induction names generalizing w with
  | nil =>
    obtain rfl : w = w₁ := congrArg Prod.snd h
    exact ⟨by simp, fun _ hother => hother⟩
  | cons n names ih =>
    have hseq : (Action.change (Disk.copyFile (source.child n) (destination.child n)) >>= fun _ =>
        names.forM fun n => Action.change
          (Disk.copyFile (source.child n) (destination.child n))).perform w = (.ok (), w₁) := h
    rw [Action.perform_bind, Action.perform_change] at hseq
    rcases hcopy : StateT.run (Disk.copyFile (source.child n) (destination.child n)).run w.disk
      with ⟨f | _, d⟩
    · rw [hcopy] at hseq
      cases hseq
    · rw [hcopy] at hseq
      obtain ⟨hthere, hkept⟩ := Disk.isFile_of_copyFile hcopy
      obtain ⟨hrest, hrestKept⟩ := ih hseq
      refine ⟨?_, fun other hother => hrestKept _ (hkept other hother)⟩
      rintro m hm
      rcases List.mem_cons.1 hm with rfl | hm
      · exact hrestKept _ hthere
      · exact hrest m hm

/-- Behind a successful copy the destination holds the files of the loader. -/
theorem holdsAll_of_copyTo (h : (copyTo destination folder).perform w = (.ok (), w₁)) :
    holdsAll w₁.disk (filesIn destination) = .ok true := by
  rw [holdsAll_eq_ok_true]
  intro p hp
  obtain ⟨n, hn, rfl⟩ := List.mem_map.1 hp
  exact (isFile_of_copies h).1 n hn

end Files

/-! ### The errands of the cache -/

section Errands

open JitInspect.Action

/-- The command that serves the errand. -/
def Does (c : LoaderCache) (framework : Text) : Errand → Command → Prop
  | .version, x => x = c.versionCommand
  | .loader, x => ∃ toolchain, x = c.buildCommand (c.folderOf framework toolchain)
  | _, _ => False

/-- Errands of the cache that belong to a supply, each served by its command. -/
structure Supplies (c : LoaderCache) (framework : Text) (t : Errands) : Prop where
  kinds : t.kinds ∈ Errand.supplies
  commands : ∀ s ∈ t, c.Does framework s.1 s.2.command

theorem Supplies.nil : c.Supplies framework [] := ⟨by decide, by simp⟩

/-- The cache asks for the version; the folder that it then names is one for the loader. -/
theorem folder_yields (hw : w.AllReturn) :
    (c.folder framework).Yields w fun t e _ =>
      (∃ p, t = [(.version, p)] ∧ p.command = c.versionCommand) ∧
        ∀ folder, e = .ok folder → ∃ toolchain, folder = c.folderOf framework toolchain := by
  have hstart : (start c.versionCommand).Yields w fun t e w₁ =>
      ∃ p, t = [(.version, p)] ∧ p.command = c.versionCommand :=
    yields_start .version _ hw ⟨_, rfl, rfl⟩
  refine hstart.bind ?_ ?_
  · exact fun t f w₁ hone => ⟨hone, fun _ h => by cases h⟩
  rintro _ printed w₁ - ⟨p, rfl, hp⟩
  refine yields_checkpoint_bind ?_ ?_
  · exact fun _ => ⟨⟨p, rfl, hp⟩, fun _ h => by cases h⟩
  intro _
  by_cases hversion : isVersion (Text.strip printed.output) = true
  · simp only [hversion, if_true]
    exact Yields.pure ⟨⟨p, rfl, hp⟩, fun _ h => ⟨_, (Except.ok.inj h).symm⟩⟩
  · simp only [hversion]
    refine Keeps.identifier.bind_yields ?_ ?_
    · intro f w₂ hrun
      cases hrun
    · intro toolchain w₂ _ _
      exact Yields.pure ⟨⟨p, rfl, hp⟩, fun _ h => ⟨_, (Except.ok.inj h).symm⟩⟩

/-- A build of the loader starts at most its command. -/
theorem build_yields (hw : w.AllReturn) :
    (c.build folder framework).Yields w fun t _ _ =>
      t = [] ∨ ∃ p, t = [(.loader, p)] ∧ p.command = c.buildCommand folder := by
  refine (Keeps.change _).bind_yields (fun _ _ _ => Or.inl rfl) fun _ w₁ h₁ _ => ?_
  refine (keeps_writeOnce _ _).bind_yields (fun _ _ _ => Or.inl rfl) fun _ w₂ h₂ _ => ?_
  refine (keeps_writeOnce _ _).bind_yields (fun _ _ _ => Or.inl rfl) fun _ w₃ h₃ _ => ?_
  refine yields_checkpoint_bind (fun _ => Or.inl rfl) fun _ => ?_
  have hw₃ : w₃.AllReturn := h₃.allReturn (h₂.allReturn (h₁.allReturn hw))
  have hstart : (start (c.buildCommand folder)).Yields w₃ fun t _ _ =>
      ∃ p, t = [(.loader, p)] ∧ p.command = c.buildCommand folder :=
    yields_start .loader _ hw₃ ⟨_, rfl, rfl⟩
  refine hstart.bind (fun _ _ _ hone => Or.inr hone) ?_
  rintro _ printed w₄ - ⟨p, rfl, hp⟩
  have hone : ∃ q, [(Errand.loader, p)] ++ [] = [(Errand.loader, q)] ∧
      q.command = c.buildCommand folder := ⟨p, rfl, hp⟩
  refine yields_checkpoint_bind (fun _ => Or.inr hone) fun _ => ?_
  refine (Keeps.ask _).bind_yields (fun _ _ _ => Or.inr hone) fun there w₅ _ _ => ?_
  cases there with
  | true => exact Yields.pure (Or.inr hone)
  | false => exact Yields.throw (Or.inr hone)

/-- A loader is built by one command, unless it is there. -/
theorem buildOnce_yields (hw : w.AllReturn) :
    (c.buildOnce folder framework).Yields w fun t _ _ =>
      t = [] ∨ ∃ p, t = [(.loader, p)] ∧ p.command = c.buildCommand folder := by
  refine (Keeps.ask _).bind_yields (fun _ _ _ => Or.inl rfl) fun there w₁ h₁ _ => ?_
  cases there with
  | true => exact Yields.pure (Or.inl rfl)
  | false =>
    refine (Keeps.report _).bind_yields (fun _ _ _ => Or.inl rfl) fun _ w₂ h₂ _ => ?_
    exact build_yields (h₂.allReturn (h₁.allReturn hw))

/-- A supply asks for the version and may then build the loader; in the end the files are there. -/
theorem supply_yields (hw : w.AllReturn) :
    (c.supply framework destination).Yields w fun t e w₁ => c.Supplies framework t ∧
      (e = .ok () → holdsAll w₁.disk (filesIn destination) = .ok true) := by
  refine (Keeps.report _).bind_yields ?_ fun _ w₁ h₁ _ => ?_
  · exact fun _ _ _ => ⟨.nil, fun h => by cases h⟩
  have hasked : ∀ p : Process, p.command = c.versionCommand →
      c.Supplies framework [(.version, p)] := by
    intro p hp
    refine ⟨by simp [Errand.supplies], ?_⟩
    rintro s hs
    rw [List.mem_singleton] at hs
    subst hs
    exact hp
  refine (folder_yields (h₁.allReturn hw)).bind ?_ ?_
  · rintro _ f w₂ ⟨⟨p, rfl, hp⟩, -⟩
    exact ⟨hasked p hp, fun h => by cases h⟩
  rintro _ folder w₂ h₂ ⟨⟨p, rfl, hp⟩, hfolder⟩
  obtain ⟨toolchain, rfl⟩ := hfolder _ rfl
  have hdone : ∀ t : Errands, (t = [] ∨ ∃ q, t = [(.loader, q)] ∧
      q.command = c.buildCommand (c.folderOf framework toolchain)) →
      c.Supplies framework ([(.version, p)] ++ t) := by
    rintro t (rfl | ⟨q, rfl, hq⟩)
    · exact hasked p hp
    · refine ⟨by simp [Errand.supplies], ?_⟩
      rintro s hs
      rcases List.mem_append.1 hs with hs | hs <;> rw [List.mem_singleton] at hs <;> subst hs
      · exact hp
      · exact ⟨toolchain, hq⟩
  refine (buildOnce_yields (h₂.allReturn (h₁.allReturn hw))).bind ?_ ?_
  · exact fun t _ _ ht => ⟨hdone t ht, fun h => by cases h⟩
  rintro t _ w₃ - ht
  refine yields_checkpoint_bind ?_ fun _ => ?_
  · exact fun _ => ⟨hdone _ (by simpa using ht), fun h => by cases h⟩
  · refine Keeps.yields (keeps_copyTo _ _) fun e w₄ hrun => ⟨hdone _ (by simpa using ht), ?_⟩
    rintro rfl
    exact holdsAll_of_copyTo hrun

/-- When the cache is done, the destination holds the files of the loader. -/
theorem ensure_yields (hw : w.AllReturn) :
    (c.ensure framework destination).Yields w fun t e w₁ => c.Supplies framework t ∧
      (e = .ok () → holdsAll w₁.disk (filesIn destination) = .ok true) := by
  refine (Keeps.ask _).bind_yields ?_ fun isThere w₁ h₁ _ => ?_
  · exact fun _ _ _ => ⟨.nil, fun h => by cases h⟩
  cases isThere with
  | false => exact Yields.throw ⟨.nil, fun h => by cases h⟩
  | true =>
    refine (Keeps.ask _).bind_yields ?_ fun holds w₂ h₂ hrun => ?_
    · exact fun _ _ _ => ⟨.nil, fun h => by cases h⟩
    cases holds with
    | false => exact supply_yields (h₂.allReturn (h₁.allReturn hw))
    | true =>
      refine Yields.pure ⟨.nil, fun _ => ?_⟩
      obtain ⟨hholds, rfl⟩ := perform_ask_eq_ok.1 hrun
      exact hholds

end Errands

/-! ### What the cache leaves alone -/

section Temporaries

open JitInspect.Action

/-- The cache has no temporary files. -/
theorem keepsTemporaries_ensure : KeepsTemporaries (c.ensure framework destination) :=
  c.keeps_ensure keepsTemporaries_start _ _

end Temporaries

end LoaderCache

end JitInspect
