import JitInspect.Proofs.Run.Frame

/-!
# The errands of a run

Each process of a run serves an errand: it builds the project, asks the toolchain for its version,
builds the loader, or executes the plan. A step of a run is described by the errands that it does, by
how it ends and by the world that it leaves behind (`Action.Yields`). The description of a sequence
is put together from those of its parts by `Action.Yields.bind`.
-/

namespace JitInspect

/-- What a process of a run is started for. -/
inductive Errand where
  /-- The project is built or published. -/
  | build
  /-- The toolchain is asked for its version. -/
  | version
  /-- The loader is built. -/
  | loader
  /-- The plan is executed. -/
  | execute
  deriving DecidableEq, Repr

/-- The processes of a step with their errands, in the order in which they were started. -/
abbrev Errands := List (Errand × Process)

namespace Errands

/-- What the processes are for. -/
def kinds (t : Errands) : List Errand := t.map Prod.fst

/-- The processes themselves. -/
def processes (t : Errands) : List Process := t.map Prod.snd

@[simp] theorem kinds_nil : kinds [] = [] := rfl

@[simp] theorem kinds_cons (s : Errand × Process) (t : Errands) : kinds (s :: t) = s.1 :: kinds t :=
  rfl

@[simp] theorem kinds_append (s t : Errands) : kinds (s ++ t) = kinds s ++ kinds t :=
  List.map_append

@[simp] theorem processes_append (s t : Errands) : processes (s ++ t) = processes s ++ processes t :=
  List.map_append

end Errands

namespace Action

variable {α β : Type} {w : World}

/-- Performed in the world, the action does errands that are as described, together with how it ends
and the world that it leaves behind. -/
def Yields (a : Action α) (w : World) (Q : Errands → Except Failure α → World → Prop) : Prop :=
  ∃ t : Errands, w.Starts t.processes (a.perform w).2 ∧ Q t (a.perform w).1 (a.perform w).2

namespace Yields

theorem mono {a : Action α} {Q R : Errands → Except Failure α → World → Prop} (ha : Yields a w Q)
    (h : ∀ t e w₁, w.Starts t.processes w₁ → Q t e w₁ → R t e w₁) : Yields a w R := by
  obtain ⟨t, ht, hq⟩ := ha
  exact ⟨t, ht, h _ _ _ ht hq⟩

/-- A sequence does the errands of its first action and then those of the second one, unless the
first one failed. -/
theorem bind {a : Action α} {g : α → Action β} {Q : Errands → Except Failure α → World → Prop}
    {R : Errands → Except Failure β → World → Prop} (ha : Yields a w Q)
    (herror : ∀ t f w₁, Q t (.error f) w₁ → R t (.error f) w₁)
    (hok : ∀ t x w₁, w.Starts t.processes w₁ → Q t (.ok x) w₁ →
      Yields (g x) w₁ fun s e w₂ => R (t ++ s) e w₂) :
    Yields (a >>= g) w R := by
  obtain ⟨t, ht, hq⟩ := ha
  rcases hrun : a.perform w with ⟨f | x, w₁⟩
  · rw [hrun] at ht hq
    unfold Yields
    rw [perform_bind_of_error hrun]
    exact ⟨t, ht, herror t f w₁ hq⟩
  · rw [hrun] at ht hq
    obtain ⟨s, hs, hr⟩ := hok t x w₁ ht hq
    unfold Yields
    rw [perform_bind_of_ok hrun]
    refine ⟨t ++ s, ?_, hr⟩
    rw [Errands.processes_append]
    exact ht.trans hs

theorem pure {x : α} {Q : Errands → Except Failure α → World → Prop} (h : Q [] (.ok x) w) :
    Yields (pure x) w Q := ⟨[], World.Starts.refl w, h⟩

theorem throw {f : Failure} {Q : Errands → Except Failure α → World → Prop}
    (h : Q [] (.error f) w) : Yields (throw f) w Q := ⟨[], World.Starts.refl w, h⟩

/-- What an action keeps may be used together with the errands that it does. -/
theorem and_keeps {a : Action α} {Q : Errands → Except Failure α → World → Prop}
    {R : World → World → Prop} (ha : Yields a w Q) (hkeeps : Keeps R a) :
    Yields a w fun t e w₁ => Q t e w₁ ∧ R w w₁ := by
  obtain ⟨t, ht, hq⟩ := ha
  exact ⟨t, ht, hq, hkeeps w⟩

/-- Deleting a file behind an action changes neither its errands nor how it ends. -/
theorem thenDelete {a : Action α} {file : Text} {Q : Errands → Except Failure α → Prop}
    (ha : Yields a w fun t e _ => Q t e) :
    Yields (a.thenAlways (delete file)) w fun t e _ => Q t e := by
  obtain ⟨t, ht, hq⟩ := ha
  obtain ⟨log, hdelete⟩ := perform_delete file (a.perform w).2
  have hquiet : Quiet (delete file) := Keeps.delete file
  have hkept := hquiet (a.perform w).2
  unfold Yields
  rw [perform_thenAlways a hdelete]
  rw [hdelete] at hkept
  refine ⟨t, ?_, hq⟩
  simpa using ht.trans hkept

end Yields

/-- A quiet action does no errands. -/
theorem Keeps.yields {a : Action α} {Q : Errands → Except Failure α → World → Prop} (ha : Quiet a)
    (h : ∀ e w₁, a.perform w = (e, w₁) → Q [] e w₁) : Yields a w Q :=
  ⟨[], ha w, h _ _ rfl⟩

/-- A sequence that begins with a quiet action does the errands of the other one. -/
theorem Keeps.bind_yields {a : Action α} {g : α → Action β}
    {R : Errands → Except Failure β → World → Prop} (ha : Quiet a)
    (herror : ∀ f w₁, a.perform w = (.error f, w₁) → R [] (.error f) w₁)
    (hok : ∀ x w₁, w.Starts [] w₁ → a.perform w = (.ok x, w₁) → Yields (g x) w₁ R) :
    Yields (a >>= g) w R := by
  have hquiet : Yields a w fun t e w₁ => t = [] ∧ a.perform w = (e, w₁) :=
    Keeps.yields ha fun e w₁ h => ⟨rfl, h⟩
  refine hquiet.bind ?_ ?_
  · rintro t f w₁ ⟨rfl, hrun⟩
    exact herror f w₁ hrun
  · rintro t x w₁ hstarts ⟨rfl, hrun⟩
    exact hok x w₁ hstarts hrun

/-- A command that is started does the errand that it is started for. -/
theorem yields_start (errand : Errand) (c : Command) (hw : w.AllReturn)
    {Q : Errands → Except Failure Printed → World → Prop}
    (h : Q [(errand, w.next c)] (.ok (w.next c).printed) (w.ran c)) : Yields (start c) w Q := by
  unfold Yields
  rw [perform_start c hw]
  exact ⟨[(errand, w.next c)], World.Starts.ran w c, h⟩

/-- Behind a checkpoint the token is not cancelled. -/
theorem yields_checkpoint_bind {g : Unit → Action β}
    {R : Errands → Except Failure β → World → Prop}
    (hstop : w.isCancelled = true → R [] (.error (.cancelled Failure.cancelledMessage)) w)
    (hgo : w.isCancelled = false → Yields (g ()) w R) : Yields (checkpoint >>= g) w R := by
  cases hc : w.isCancelled with
  | true =>
    refine Keeps.checkpoint.bind_yields (fun f w₁ hrun => ?_) fun x w₁ _ hrun => ?_
    all_goals
      rw [perform_checkpoint_of_isCancelled hc] at hrun
      cases hrun
    exact hstop hc
  | false =>
    refine Keeps.checkpoint.bind_yields (fun f w₁ hrun => ?_) fun x w₁ _ hrun => ?_
    all_goals
      rw [perform_checkpoint_of_not_isCancelled hc] at hrun
      cases hrun
    exact hgo hc

end Action

end JitInspect
