import JitInspect.Proofs.FileTree.Writing

/-!
# What changes leave alone

A frame is a relation between disks that may be followed from change to change. Whether a change keeps a
frame, also when it fails, is decided construct by construct. So a directory that is created with those
above it keeps what the creation of each of them keeps (`Disk.Change.keeps_makePath`).
-/

namespace JitInspect

namespace Disk

variable {d d₁ : Disk} {path : Text}

/-- What a successful creation of a directory does. -/
theorem makeDirectory_eq_ok (h : d.makeDirectory path = .ok d₁) :
    ∃ loc, d.locate path false = .ok loc ∧ d.tree.get? loc = none ∧
      d₁ = { d with tree := d.tree.put loc .directory } := by
  unfold makeDirectory at h
  cases hloc : d.locate path false with
  | error f =>
    rw [hloc] at h
    cases h
  | ok loc =>
    rw [hloc] at h
    cases hentry : d.tree.get? loc with
    | some e =>
      simp only [hentry] at h
      cases h
    | none =>
      simp only [hentry] at h
      split at h
      · cases h
      · exact ⟨loc, rfl, hentry, (Except.ok.inj h).symm⟩

/-- A relation between disks that is respected by doing nothing and by doing one thing after another. -/
class Frame (R : Disk → Disk → Prop) : Prop where
  refl : ∀ d, R d d
  trans : ∀ {d d₁ d₂}, R d d₁ → R d₁ d₂ → R d d₂

variable {α β : Type} {R : Disk → Disk → Prop}

/-- However the change ends, the disk that it leaves behind is in the relation to the one before. -/
def Change.Keeps (R : Disk → Disk → Prop) (c : Change α) : Prop :=
  ∀ d, R d (StateT.run c.run d).2

namespace Change

/-- A second change sets out from where the first one ended. -/
theorem run_bind (c : Change α) (g : α → Change β) (d : Disk) :
    StateT.run (c >>= g).run d =
      match StateT.run c.run d with
      | (.ok x, d₁) => StateT.run (g x).run d₁
      | (.error f, d₁) => (.error f, d₁) := by
  change StateT.run (ExceptT.bind c g).run d = _
  simp only [ExceptT.bind, ExceptT.mk, ExceptT.run, StateT.run, bind, StateT.bind]
  rcases c d with ⟨f | x, d₁⟩ <;> rfl

/-- A fault is handled where the change that failed has left the disk. -/
theorem run_tryCatch (c : Change α) (handle : FileFault → Change α) (d : Disk) :
    StateT.run (tryCatch c handle).run d =
      match StateT.run c.run d with
      | (.ok x, d₁) => (.ok x, d₁)
      | (.error f, d₁) => StateT.run (handle f).run d₁ := by
  change StateT.run (ExceptT.tryCatch c handle).run d = _
  simp only [ExceptT.tryCatch, ExceptT.mk, ExceptT.run, StateT.run, bind, StateT.bind]
  rcases c d with ⟨f | x, d₁⟩ <;> rfl

variable [Frame R]

theorem Keeps.pure (x : α) : Keeps R (pure x : Change α) := fun d => Frame.refl d

theorem Keeps.throw (f : FileFault) : Keeps R (throw f : Change α) := fun d => Frame.refl d

/-- A sequence keeps what its parts keep. -/
theorem Keeps.bind {c : Change α} {g : α → Change β} (hc : Keeps R c) (hg : ∀ x, Keeps R (g x)) :
    Keeps R (c >>= g) := by
  intro d
  have hd := hc d
  rw [run_bind]
  rcases hrun : StateT.run c.run d with ⟨f | x, d₁⟩
  · rw [hrun] at hd
    exact hd
  · rw [hrun] at hd
    exact Frame.trans hd (hg x d₁)

/-- A handled change keeps what it and the handler keep. -/
theorem Keeps.tryCatch {c : Change α} {handle : FileFault → Change α} (hc : Keeps R c)
    (hh : ∀ f, Keeps R (handle f)) : Keeps R (tryCatch c handle) := by
  intro d
  have hd := hc d
  rw [run_tryCatch]
  rcases hrun : StateT.run c.run d with ⟨f | x, d₁⟩
  · rw [hrun] at hd
    exact Frame.trans hd (hh f d₁)
  · rw [hrun] at hd
    exact hd

/-- A directory is created, or the disk stays as it is; that is no failure if it is there already. -/
theorem run_makeDirectoryIfMissing (isThere : Disk → Except FileFault Bool) (path : Text) (d : Disk) :
    (∃ d₁, d.makeDirectory path = .ok d₁ ∧
        StateT.run (makeDirectoryIfMissing isThere path).run d = (.ok (), d₁)) ∨
      ∃ r, StateT.run (makeDirectoryIfMissing isThere path).run d = (r, d) ∧
        (r = .ok () → isThere d = .ok true) := by
  unfold makeDirectoryIfMissing
  rw [run_tryCatch, run_single]
  cases hmake : d.makeDirectory path with
  | ok d₁ => exact Or.inl ⟨d₁, rfl, rfl⟩
  | error e =>
    refine Or.inr ?_
    dsimp only
    split
    · exact ⟨_, rfl, fun hok => by cases hok⟩
    · have hget : StateT.run (get : Change Disk).run d = (.ok d, d) := rfl
      rw [run_bind, hget]
      dsimp only
      cases hthere : isThere d with
      | error e => exact ⟨_, rfl, fun hok => by cases hok⟩
      | ok there =>
        cases there with
        | true => exact ⟨_, rfl, fun _ => rfl⟩
        | false => exact ⟨_, rfl, fun hok => by cases hok⟩
    · exact ⟨_, rfl, fun hok => by cases hok⟩

/-- Making a directory where there is none is making a directory or nothing. -/
theorem keeps_makeDirectoryIfMissing {path : Text} (isThere : Disk → Except FileFault Bool)
    (h : Keeps R (single fun d => d.makeDirectory path)) :
    Keeps R (makeDirectoryIfMissing isThere path) := by
  intro d
  have hd := h d
  rw [run_single] at hd
  rcases run_makeDirectoryIfMissing isThere path d with ⟨d₁, hmake, hrun⟩ | ⟨r, hrun, -⟩
  · rw [hmake] at hd
    rw [hrun]
    exact hd
  · rw [hrun]
    exact Frame.refl d

/-- Making a path is making directories at its beginnings. -/
theorem keeps_makePathWithin {p : Path} (h : ∀ q : Path, q.anchor = p.anchor → q.parts <+: p.parts →
    Keeps R (single fun d => d.makeDirectory q.text)) (n : ℕ) : Keeps R (makePathWithin n p) := by
  induction n generalizing p with
  | zero => exact keeps_makeDirectoryIfMissing _ (h p rfl (List.prefix_refl _))
  | succ n ih =>
    have hself := keeps_makeDirectoryIfMissing (·.isDirectory p.text) (h p rfl (List.prefix_refl _))
    have habove : Keeps R (makePathWithin n p.parent) := ih fun q hanchor hparts =>
      h q hanchor (hparts.trans (List.dropLast_prefix _))
    refine hself.tryCatch fun f => ?_
    split
    · exact habove.bind fun _ => hself
    · exact .throw _

/-- Creating a directory with those above it keeps what the creation of each of them keeps. -/
theorem keeps_makePath {p : Path} (h : ∀ q : Path, q.anchor = p.anchor → q.parts <+: p.parts →
    Keeps R (single fun d => d.makeDirectory q.text)) : Keeps R (makePath p) :=
  keeps_makePathWithin h _

/-- The last thing that is done to create a directory with those above it is to create it. -/
theorem last_of_makePathWithin {p : Path} {n : ℕ} {d d₁ : Disk}
    (h : StateT.run (makePathWithin n p).run d = (.ok (), d₁)) :
    ∃ d₂, StateT.run (makeDirectoryIfMissing (·.isDirectory p.text) p.text).run d₂ = (.ok (), d₁) := by
  cases n with
  | zero => exact ⟨d, h⟩
  | succ n =>
    rw [makePathWithin, run_tryCatch] at h
    rcases hfirst : StateT.run (makeDirectoryIfMissing (·.isDirectory p.text) p.text).run d with
      ⟨e | u, d₂⟩
    · rw [hfirst] at h
      dsimp only at h
      split at h
      · rw [run_bind] at h
        rcases hparent : StateT.run (makePathWithin n p.parent).run d₂ with ⟨e' | u, d₃⟩
        · rw [hparent] at h
          cases h
        · rw [hparent] at h
          exact ⟨d₃, h⟩
      · cases h
    · rw [hfirst] at h
      exact ⟨d, hfirst.trans h⟩

/-- When that fails, no more has been done than to create those above it. -/
theorem keeps_of_makePath_eq_error {p : Path} {d d₁ : Disk} {f : FileFault}
    (h : ∀ q : Path, q.anchor = p.anchor → q.parts <+: p.parts.dropLast →
      Keeps R (single fun d => d.makeDirectory q.text))
    (hrun : StateT.run (makePath p).run d = (.error f, d₁)) : R d d₁ := by
  have hself : ∀ (d d₁ : Disk) (f : FileFault),
      StateT.run (makeDirectoryIfMissing (·.isDirectory p.text) p.text).run d = (.error f, d₁) →
        d₁ = d := by
    intro d d₁ f hfails
    rcases run_makeDirectoryIfMissing (·.isDirectory p.text) p.text d with
      ⟨d₂, -, hmade⟩ | ⟨r, hmade, -⟩
    · rw [hmade] at hfails
      cases hfails
    · rw [hmade] at hfails
      exact (congrArg Prod.snd hfails).symm
  unfold makePath at hrun
  cases hlength : p.parts.length with
  | zero =>
    rw [hlength] at hrun
    rw [hself d d₁ f hrun]
    exact Frame.refl d
  | succ n =>
    rw [hlength, makePathWithin, run_tryCatch] at hrun
    rcases hfirst : StateT.run (makeDirectoryIfMissing (·.isDirectory p.text) p.text).run d with
      ⟨e | u, d₂⟩
    · obtain rfl : d₂ = d := hself d d₂ e hfirst
      rw [hfirst] at hrun
      dsimp only at hrun
      split at hrun
      · have habove := keeps_makePathWithin (p := p.parent) h n d₂
        rw [run_bind] at hrun
        rcases hparent : StateT.run (makePathWithin n p.parent).run d₂ with ⟨e' | u, d₃⟩
        · rw [hparent] at hrun habove
          obtain rfl : d₃ = d₁ := congrArg Prod.snd hrun
          exact habove
        · rw [hparent] at hrun habove
          rw [hself d₃ d₁ f hrun]
          exact habove
      · obtain rfl : d₂ = d₁ := congrArg Prod.snd hrun
        exact Frame.refl d₂
    · rw [hfirst] at hrun
      cases hrun

end Change

end Disk

end JitInspect
