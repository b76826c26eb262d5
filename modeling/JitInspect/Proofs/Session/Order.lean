import JitInspect.Proofs.Run.Action
import JitInspect.Session.Schedule

/-!
# The tasks of a schedule and their order

A schedule is looked at through `Schedule.tasks`, place by place, and through its list of places that
can go on. This file says what the small changes do to both: a task is changed, places are added to
those that can go on, the lock is released, and a run is concluded. None of them touches more than
what it is named for.
-/

namespace JitInspect

namespace Schedule

variable {s : Schedule} {place q : ℕ} {t u : Task}

/-! ### Changing a task -/

section Update

/-- The task that is changed. -/
theorem get_update_self (f : Task → Task) :
    (s.update place f).tasks[place]? = s.tasks[place]?.map f :=
  List.getElem?_modify_eq ..

/-- The other tasks stay. -/
theorem get_update_of_ne (f : Task → Task) (h : q ≠ place) :
    (s.update place f).tasks[q]? = s.tasks[q]? :=
  List.getElem?_modify_ne _ _ (Ne.symm h)

/-- Changing a task twice is changing it once. -/
theorem update_update (f g : Task → Task) :
    (s.update place f).update place g = s.update place (g ∘ f) := by
  unfold update
  simp only [List.modify_modify_eq]

/-- A task is among the changed ones if it is the changed one or was there before. -/
theorem get_update_iff (f : Task → Task) :
    (s.update place f).tasks[q]? = some u ↔
      (q = place ∧ ∃ t, s.tasks[place]? = some t ∧ u = f t) ∨ (q ≠ place ∧ s.tasks[q]? = some u) := by
  by_cases h : q = place
  · subst h
    rw [get_update_self, Option.map_eq_some_iff]
    constructor
    · rintro ⟨t, ht, rfl⟩
      exact Or.inl ⟨rfl, t, ht, rfl⟩
    · rintro (⟨-, t, ht, rfl⟩ | ⟨hne, -⟩)
      · exact ⟨t, ht, rfl⟩
      · exact absurd rfl hne
  · rw [get_update_of_ne f h]
    constructor
    · exact fun hu => Or.inr ⟨h, hu⟩
    · rintro (⟨he, -⟩ | ⟨-, hu⟩)
      · exact absurd he h
      · exact hu

/-- The tasks when one more is asked for. -/
theorem get_add_iff {w : Work} :
    (s.add w).tasks[q]? = some u ↔
      s.tasks[q]? = some u ∨ q = s.tasks.length ∧ u = { work := w } := by
  unfold add
  rw [List.getElem?_append]
  by_cases h : q < s.tasks.length
  · rw [if_pos h]
    constructor
    · exact Or.inl
    · rintro (hu | ⟨rfl, -⟩)
      · exact hu
      · exact absurd h (Nat.lt_irrefl _)
  · rw [if_neg h, List.getElem?_eq_none (by omega : s.tasks.length ≤ q), List.getElem?_singleton]
    by_cases hq : q = s.tasks.length
    · subst hq
      simp [eq_comm]
    · rw [if_neg (by omega)]
      simp [hq]

end Update

/-! ### Letting tasks go on -/

section Enqueue

/-- The places of the tasks with a property. -/
theorem mem_places (p : Task → Bool) :
    q ∈ s.places p ↔ ∃ t, s.tasks[q]? = some t ∧ p t = true := by
  unfold places
  rw [List.mem_filterMap]
  constructor
  · rintro ⟨⟨t, i⟩, hmem, h⟩
    rw [List.mk_mem_zipIdx_iff_getElem?] at hmem
    by_cases hp : p t = true
    · simp only [hp, if_true, Option.some.injEq] at h
      subst h
      exact ⟨t, hmem, hp⟩
    · simp [hp] at h
  · rintro ⟨t, ht, hp⟩
    exact ⟨(t, q), List.mk_mem_zipIdx_iff_getElem?.2 ht, by simp [hp]⟩

/-- Places are added behind those that can go on already, each of them once. -/
theorem foldl_enqueue (places : List ℕ) (s : Schedule) :
    ∃ ready, places.foldl enqueue s = { s with ready } ∧
      (∀ q, q ∈ ready ↔ q ∈ s.ready ∨ q ∈ places) ∧ (s.ready.Nodup → ready.Nodup) := by
  induction places generalizing s with
  | nil => exact ⟨s.ready, rfl, by simp, id⟩
  | cons place places ih =>
    obtain ⟨ready, heq, hmem, hnodup⟩ := ih (s.enqueue place)
    have henqueue : ∃ first, s.enqueue place = { s with ready := first } ∧
        (∀ q, q ∈ first ↔ q ∈ s.ready ∨ q = place) ∧ (s.ready.Nodup → first.Nodup) := by
      unfold enqueue
      by_cases hthere : s.ready.contains place = true
      · rw [if_pos hthere]
        have hplace : place ∈ s.ready := by simpa using hthere
        refine ⟨s.ready, rfl, fun q => ⟨Or.inl, ?_⟩, id⟩
        rintro (hq | rfl)
        · exact hq
        · exact hplace
      · rw [if_neg hthere]
        have hplace : place ∉ s.ready := by simpa using hthere
        refine ⟨s.ready ++ [place], rfl, by simp, fun h => ?_⟩
        exact List.nodup_append.2 ⟨h, by simp, by
          rintro a ha b hb rfl
          rw [List.mem_singleton] at hb
          exact hplace (hb ▸ ha)⟩
    obtain ⟨first, hfirst, hfirstMem, hfirstNodup⟩ := henqueue
    rw [hfirst] at heq hmem hnodup
    refine ⟨ready, ?_, ?_, fun h => hnodup (hfirstNodup h)⟩
    · rw [List.foldl_cons, hfirst, heq]
    · intro q
      rw [hmem, hfirstMem, List.mem_cons, or_assoc]

/-- The tasks that wait for their cancellation and are cancelled can go on. -/
theorem wakeCancelled_eq (s : Schedule) :
    ∃ ready, s.wakeCancelled = { s with ready } ∧
      (∀ q, q ∈ ready ↔ q ∈ s.ready ∨ ∃ t, s.tasks[q]? = some t ∧ t.awaitsCancellation = true ∧
        s.session.isCancelled t.run = true) ∧
      (s.ready.Nodup → ready.Nodup) := by
  obtain ⟨ready, heq, hmem, hnodup⟩ := foldl_enqueue
    (s.places fun t => t.awaitsCancellation && s.session.isCancelled t.run) s
  refine ⟨ready, heq, fun q => ?_, hnodup⟩
  rw [hmem, mem_places]
  simp only [Bool.and_eq_true]

/-- When the lock is released, the task whose run has waited longest can go on. -/
theorem release_eq (s : Schedule) :
    ∃ ready, s.release = { s with session := s.session.release, ready } ∧
      (∀ q, q ∈ ready ↔ q ∈ s.ready ∨ ∃ t, s.tasks[q]? = some t ∧ t.hasEnded = false ∧
        s.session.waiting.head? = some t.run) ∧
      (s.ready.Nodup → ready.Nodup) := by
  unfold release callNext
  cases hhead : s.session.waiting.head? with
  | none =>
    have hnone : s.session.release.waiting.head? = none := hhead
    simp only [hnone]
    exact ⟨s.ready, rfl, by simp, id⟩
  | some run =>
    have hsome : s.session.release.waiting.head? = some run := hhead
    simp only [hsome]
    obtain ⟨ready, heq, hmem, hnodup⟩ := foldl_enqueue
      (places { s with session := s.session.release } fun t => !t.hasEnded && t.run = run)
      { s with session := s.session.release }
    refine ⟨ready, heq, fun q => ?_, hnodup⟩
    rw [hmem, mem_places]
    refine or_congr Iff.rfl (exists_congr fun t => and_congr Iff.rfl ?_)
    rw [Bool.and_eq_true, decide_eq_true_eq, Option.some.injEq]
    exact and_congr (by simp) eq_comm

end Enqueue

/-! ### Concluding a run -/

section Conclude

/-- Removing folders never fails. -/
theorem perform_discard (r : RunResult) (w : World) :
    ∃ w₁, r.discard.perform w = (.ok (), w₁) := by
  have hremove : ∀ (folder : Path) (w : World),
      ∃ w₁, (RunResult.removeFolder folder).perform w = (.ok (), w₁) := by
    intro folder w
    unfold RunResult.removeFolder
    rw [Action.perform_bind_of_ok (Action.perform_get w)]
    cases w.disk.removeTree folder.text with
    | ok d => exact ⟨_, rfl⟩
    | error f =>
      by_cases hmissing : f.isMissing = true
      · simp only [hmissing, if_true]
        exact ⟨_, rfl⟩
      · simp only [hmissing]
        exact ⟨_, rfl⟩
  have hall : ∀ (folders : List Path) (w : World),
      ∃ w₁, (folders.forM RunResult.removeFolder).perform w = (.ok (), w₁) := by
    intro folders
    induction folders with
    | nil => exact fun w => ⟨w, rfl⟩
    | cons folder folders ih =>
      intro w
      obtain ⟨w₁, h₁⟩ := hremove folder w
      obtain ⟨w₂, h₂⟩ := ih w₁
      exact ⟨w₂, (Action.perform_bind_of_ok h₁).trans h₂⟩
  exact hall r.folders w

/-- A run is concluded and the result that is no longer of use is discarded, -/
theorem perform_concludeWith_of_discard {c : Session} {run : ℕ} {r useless : RunResult} {w w₁ : World}
    (huseless : (c.conclude run r).2 = some useless)
    (hdiscard : useless.discard.perform w = (.ok (), w₁)) :
    (c.concludeWith run r).perform w = (.ok (c.conclude run r).1, w₁) := by
  unfold Session.concludeWith
  simp only [huseless]
  exact Action.perform_bind_of_ok hdiscard

/-- unless there is none. -/
theorem perform_concludeWith_of_none {c : Session} {run : ℕ} {r : RunResult}
    (huseless : (c.conclude run r).2 = none) (w : World) :
    (c.concludeWith run r).perform w = (.ok (c.conclude run r).1, w) := by
  unfold Session.concludeWith
  simp only [huseless]
  rfl

/-- Concluding a run in a session never fails, whatever becomes of the flow graphs. -/
theorem perform_concludeWith (c : Session) (run : ℕ) (r : RunResult) (w : World) :
    ∃ w₁, (c.concludeWith run r).perform w = (.ok (c.conclude run r).1, w₁) := by
  cases huseless : (c.conclude run r).2 with
  | none => exact ⟨w, perform_concludeWith_of_none huseless w⟩
  | some useless =>
    obtain ⟨w₁, hdiscard⟩ := perform_discard useless w
    exact ⟨w₁, perform_concludeWith_of_discard huseless hdiscard⟩

/-- So the task of a run that is concluded ends with the result. -/
theorem conclude_eq (s : Schedule) (place run : ℕ) (r : RunResult) :
    ∃ world, s.conclude place run r =
      finishTask { s with session := (s.session.conclude run r).1, world } place (.result r) := by
  obtain ⟨w₁, h₁⟩ := perform_concludeWith s.session run r s.world
  refine ⟨w₁, ?_⟩
  unfold conclude
  rw [h₁]

end Conclude

end Schedule

end JitInspect
