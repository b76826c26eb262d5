import JitInspect.Proofs.Session.Order

/-!
# Sound schedules

Between two turns the state of the session and the stages of the tasks have to agree: the admitted
run is the one that works, the queue holds the runs that wait, and every run that is not finished is
cancelled unless it is the latest. `Schedule.Sound` says all of this, in four parts: the numbers of
the runs (`Counted`), the lock (`Locked`), which runs are of interest (`Current`) and the lists of
places (`Listed`). It is kept by everything that happens from outside.

In the middle of a turn a task may be admitted although its stage does not say so yet. The schedule
is then sound if the stage is set to working, and that is how such states are described here
(`Schedule.mark`).
-/

namespace JitInspect

namespace Schedule

variable {s : Schedule} {place : ℕ} {t : Task}

/-- The task stands at the place. -/
abbrev TaskAt (s : Schedule) (p : ℕ) (t : Task) : Prop := s.tasks[p]? = some t

/-- The task can go on: it has not begun, it works, or its run is to be admitted next. -/
def CanGo (s : Schedule) (t : Task) : Prop :=
  t.stage = .created ∨ t.stage = .working ∨
    t.stage = .waiting ∧ s.session.waiting.head? = some t.run ∧ s.session.admitted = none

/-- The task is counted among those that work. -/
def mark (s : Schedule) (place : ℕ) : Schedule :=
  s.update place fun t => { t with stage := .working }

theorem mark_at_self (ht : s.TaskAt place t) :
    (s.mark place).TaskAt place { t with stage := .working } :=
  (get_update_iff _).2 (Or.inl ⟨rfl, t, ht, rfl⟩)

theorem mark_at_of_ne {p : ℕ} {u : Task} (hne : p ≠ place) :
    (s.mark place).TaskAt p u ↔ s.TaskAt p u := by
  unfold TaskAt
  rw [mark, get_update_of_ne _ hne]

/-- Every run has one number, and the latest number was given. -/
structure Counted (s : Schedule) : Prop where
  /-- No task is to be abandoned. -/
  kept : ∀ p t, s.TaskAt p t → t.doomed = false
  /-- A task that has not begun has no number; the others have one. -/
  fresh : ∀ p t, s.TaskAt p t → t.stage = .created → t.run = 0
  numbered : ∀ p t, s.TaskAt p t → t.stage ≠ .created → 0 < t.run ∧ t.run ≤ s.session.begun
  distinct : ∀ p q t u, s.TaskAt p t → s.TaskAt q u → 0 < t.run → t.run = u.run →
    p = q
  latest : 0 < s.session.begun → ∃ p t, s.TaskAt p t ∧ t.run = s.session.begun

/-- The lock and its queue agree with the stages of the tasks. -/
structure Locked (s : Schedule) : Prop where
  /-- The admitted run is the one that works. -/
  holder : ∀ p t, s.TaskAt p t → t.stage = .working → s.session.admitted = some t.run
  held : ∀ run, s.session.admitted = some run →
    ∃ p t, s.TaskAt p t ∧ t.stage = .working ∧ t.run = run
  /-- The queue holds the runs that wait. -/
  queued : ∀ run, run ∈ s.session.waiting ↔
    ∃ p t, s.TaskAt p t ∧ t.stage = .waiting ∧ t.run = run
  once : s.session.waiting.Nodup

/-- The session knows which runs are still of interest. -/
structure Current (s : Schedule) : Prop where
  /-- An unfinished run is cancelled unless it is the latest. -/
  superseded : ∀ p t, s.TaskAt p t → t.stage = .waiting ∨ t.stage = .working →
    t.run ≠ s.session.begun → s.session.isCancelled t.run = true
  /-- The session is running until the latest run returns. -/
  running : s.session.isRunning = true ↔ 0 < s.session.begun ∧
    ∀ p t r, s.TaskAt p t → t.run = s.session.begun → t.stage ≠ .ended (.result r)
  /-- Only a run that has begun is cancelled. -/
  begun : ∀ run, s.session.isCancelled run = true → run ≤ s.session.begun

/-- The lists of places agree with the stages of the tasks. -/
structure Listed (s : Schedule) : Prop where
  /-- Work that has started goes on or has ended. -/
  worked : ∀ p ∈ s.started, ∃ t, s.TaskAt p t ∧ t.stage ≠ .created ∧ t.stage ≠ .waiting
  /-- Tasks that can go on are listed once. -/
  ready_once : s.ready.Nodup
  ready : ∀ p ∈ s.ready, ∃ t, s.TaskAt p t ∧ s.CanGo t
  /-- When no run is admitted, the one that has waited longest can go on. -/
  called : s.session.admitted = none → ∀ p t, s.TaskAt p t → t.stage = .waiting →
    s.session.waiting.head? = some t.run → p ∈ s.ready

/-- The session and the tasks agree. -/
structure Sound (s : Schedule) : Prop extends Counted s, Locked s, Current s, Listed s

/-! ### A task comes to another stage -/

section Moving

variable {s₁ : Schedule} {stage : Stage} {p : ℕ} {u : Task}

/-- The task at the place comes to the stage, and the others stay where they are. -/
structure Moves (s s₁ : Schedule) (place : ℕ) (t : Task) (stage : Stage) : Prop where
  before : s.TaskAt place t
  tasks : s₁.tasks = (s.update place fun t => { t with stage }).tasks

/-- The task that has moved. -/
theorem Moves.self (hm : Moves s s₁ place t stage) : s₁.TaskAt place { t with stage } := by
  unfold TaskAt
  rw [hm.tasks]
  exact (get_update_iff _).2 (Or.inl ⟨rfl, t, hm.before, rfl⟩)

/-- The tasks that have not moved. -/
theorem Moves.other (hm : Moves s s₁ place t stage) (hne : p ≠ place) :
    s₁.TaskAt p u ↔ s.TaskAt p u := by
  unfold TaskAt
  rw [hm.tasks, get_update_of_ne _ hne]

/-- A task is the one that has moved, or it was there before. -/
theorem Moves.at_cases (hm : Moves s s₁ place t stage) (hp : s₁.TaskAt p u) :
    (p = place ∧ u = { t with stage }) ∨ (p ≠ place ∧ s.TaskAt p u) := by
  by_cases hne : p = place
  · subst hne
    exact Or.inl ⟨rfl, Option.some.inj (hp.symm.trans hm.self)⟩
  · exact Or.inr ⟨hne, (hm.other hne).1 hp⟩

/-- The number of a run is not greater than the latest one. -/
theorem Counted.run_le (h : s.Counted) (hp : s.TaskAt p u) : u.run ≤ s.session.begun := by
  by_cases hu : u.stage = .created
  · rw [h.fresh p u hp hu]
    exact Nat.zero_le _
  · exact (h.numbered p u hp hu).2

/-- The numbers stay when a task that has begun comes to another stage. -/
theorem Counted.move (h : s.Counted) (hm : Moves s s₁ place t stage)
    (hbegun : s₁.session.begun = s.session.begun) (hold : t.stage ≠ .created)
    (hnew : stage ≠ .created) : s₁.Counted where
  kept p u hp := by
    rcases hm.at_cases hp with ⟨-, rfl⟩ | ⟨-, hpOld⟩
    · exact h.kept place t hm.before
    · exact h.kept p u hpOld
  fresh p u hp hu := by
    rcases hm.at_cases hp with ⟨-, rfl⟩ | ⟨-, hpOld⟩
    · exact absurd hu hnew
    · exact h.fresh p u hpOld hu
  numbered p u hp hu := by
    rw [hbegun]
    rcases hm.at_cases hp with ⟨-, rfl⟩ | ⟨-, hpOld⟩
    · exact h.numbered place t hm.before hold
    · exact h.numbered p u hpOld hu
  distinct p q u v hp hq hu huv := by
    rcases hm.at_cases hp with ⟨hpEq, rfl⟩ | ⟨-, hpOld⟩ <;>
      rcases hm.at_cases hq with ⟨hqEq, rfl⟩ | ⟨-, hqOld⟩
    · exact hpEq.trans hqEq.symm
    · exact hpEq.trans (h.distinct place q t v hm.before hqOld hu huv)
    · exact (h.distinct p place u t hpOld hm.before hu huv).trans hqEq.symm
    · exact h.distinct p q u v hpOld hqOld hu huv
  latest hlatest := by
    rw [hbegun] at hlatest ⊢
    obtain ⟨p, u, hp, hu⟩ := h.latest hlatest
    by_cases hne : p = place
    · subst hne
      rw [Option.some.inj (hp.symm.trans hm.before)] at hu
      exact ⟨p, _, hm.self, hu⟩
    · exact ⟨p, u, (hm.other hne).2 hp, hu⟩

end Moving

namespace Sound

/-- A schedule without tasks. -/
theorem initial (w : World) : Sound { world := w } where
  kept := by simp [TaskAt]
  fresh := by simp [TaskAt]
  numbered := by simp [TaskAt]
  distinct := by simp [TaskAt]
  latest := by simp
  holder := by simp [TaskAt]
  held := by simp
  queued := by simp [TaskAt]
  once := by simp
  superseded := by simp [TaskAt]
  running := by simp
  begun := by simp [Session.isCancelled]
  worked := by simp
  ready_once := by simp
  ready := by simp
  called := by simp

/-- At most one task works. -/
theorem working_unique (h : s.Sound) {p q : ℕ} {t u : Task} (hp : s.TaskAt p t)
    (hq : s.TaskAt q u) (ht : t.stage = .working) (hu : u.stage = .working) : p = q := by
  have hadmitted := h.holder p t hp ht
  rw [h.holder q u hq hu] at hadmitted
  have hpos : 0 < t.run := (h.numbered p t hp (by simp [ht])).1
  exact h.distinct p q t u hp hq hpos (Option.some.inj hadmitted).symm

/-! ### What happens from outside -/

section Outside

/-- More tasks that work may be listed among those that can go on. -/
theorem wake (h : s.Sound) {ready : List ℕ} (hnodup : s.ready.Nodup → ready.Nodup) {P : ℕ → Prop}
    (hmem : ∀ q, q ∈ ready ↔ q ∈ s.ready ∨ P q)
    (hworking : ∀ q, P q → ∃ t, s.TaskAt q t ∧ t.stage = .working) :
    Sound { s with ready } :=
  { h with
    ready_once := hnodup h.ready_once
    ready := by
      intro q hq
      rcases (hmem q).1 hq with hq | hq
      · exact h.ready q hq
      · obtain ⟨t, ht, hstage⟩ := hworking q hq
        exact ⟨t, ht, Or.inr (Or.inl hstage)⟩
    called := fun hnone p t hp ht hhead => (hmem p).2 (Or.inl (h.called hnone p t hp ht hhead)) }

/-- A task that waits for its cancellation works. -/
theorem stage_of_awaitsCancellation (ht : t.awaitsCancellation = true) : t.stage = .working := by
  unfold Task.awaitsCancellation at ht
  split at ht
  · assumption
  · cases ht

/-- Waking the tasks that are cancelled keeps the session sound. -/
theorem wakeCancelled (h : s.Sound) : s.wakeCancelled.Sound := by
  obtain ⟨ready, heq, hmem, hnodup⟩ := s.wakeCancelled_eq
  rw [heq]
  refine h.wake hnodup hmem ?_
  rintro q ⟨t, ht, hawaits, -⟩
  exact ⟨t, ht, stage_of_awaitsCancellation hawaits⟩

/-- Who was cancelled stays so. -/
theorem isCancelled_cancel {c : Session} {run : ℕ} (hrun : c.isCancelled run = true) :
    c.cancel.isCancelled run = true := by
  unfold Session.cancel
  split
  · simp only [Session.isCancelled, List.contains_cons, Bool.or_eq_true] at hrun ⊢
    exact Or.inr hrun
  · exact hrun

/-- Cancelling cancels the latest run of a session that is running. -/
theorem isCancelled_cancel_begun {c : Session} (hrunning : c.isRunning = true) :
    c.cancel.isCancelled c.begun = true := by
  unfold Session.cancel
  cases hc : c.isCancelled c.begun with
  | true =>
    rw [if_neg (by simp)]
    exact hc
  | false =>
    rw [if_pos (by simp [hrunning])]
    simp [Session.isCancelled]

/-- Cancelling cancels no run but the latest. -/
theorem of_isCancelled_cancel {c : Session} {run : ℕ} (hrun : c.cancel.isCancelled run = true) :
    c.isCancelled run = true ∨ run = c.begun := by
  unfold Session.cancel at hrun
  split at hrun
  · simp only [Session.isCancelled, List.contains_cons, Bool.or_eq_true, beq_iff_eq] at hrun ⊢
    exact hrun.symm
  · exact Or.inl hrun

/-- Cancelling keeps the session sound. -/
theorem cancel (h : s.Sound) : s.cancel.Sound := by
  have hkept : ∀ {run}, s.session.isCancelled run = true → s.session.cancel.isCancelled run = true :=
    isCancelled_cancel
  have hbegun : ∀ run, s.session.cancel.isCancelled run = true → run ≤ s.session.begun := by
    intro run hrun
    rcases of_isCancelled_cancel hrun with hold | rfl
    · exact h.begun run hold
    · exact Nat.le_refl _
  have hcancel : Sound { s with session := s.session.cancel } := by
    unfold Session.cancel at hkept hbegun ⊢
    by_cases hrunning : (s.session.isRunning && !s.session.isCancelled s.session.begun) = true
    · rw [if_pos hrunning] at hkept hbegun ⊢
      exact { h with
        superseded := fun p t hp ht hrun => hkept (h.superseded p t hp ht hrun)
        begun := hbegun }
    · rw [if_neg hrunning]
      exact h
  exact hcancel.wakeCancelled

theorem finish (h : s.Sound) (name : Text) (c : WorkChange) : (s.finish name c).Sound := by
  have hfinishes : Sound { s with finishes := (name, c) :: s.finishes } := { h with }
  obtain ⟨ready, heq, hmem, hnodup⟩ := foldl_enqueue
    (places { s with finishes := (name, c) :: s.finishes } fun t =>
      t.work.name = name && t.awaitsFinish)
    { s with finishes := (name, c) :: s.finishes }
  unfold Schedule.finish
  simp only [heq]
  refine hfinishes.wake hnodup hmem ?_
  intro q hq
  rw [mem_places] at hq
  obtain ⟨t, ht, hwaits⟩ := hq
  refine ⟨t, ht, ?_⟩
  rw [Bool.and_eq_true] at hwaits
  have hfinish := hwaits.2
  unfold Task.awaitsFinish at hfinish
  split at hfinish
  · assumption
  · cases hfinish

end Outside

end Sound

/-! ### A run is asked for -/

section Add

variable {w : Work} {p : ℕ}

/-- Only the new task has not begun. -/
theorem at_of_add (hp : (s.add w).TaskAt p t) (ht : t.stage ≠ .created) : s.TaskAt p t := by
  rcases get_add_iff.1 hp with hp | ⟨-, rfl⟩
  · exact hp
  · exact absurd rfl ht

/-- A task that has a number was there before another one was added. -/
theorem at_of_add_of_pos (hp : (s.add w).TaskAt p t) (ht : 0 < t.run) : s.TaskAt p t := by
  rcases get_add_iff.1 hp with hp | ⟨-, rfl⟩
  · exact hp
  · exact absurd ht (Nat.lt_irrefl 0)

/-- The other tasks stay. -/
theorem add_at (hp : s.TaskAt p t) : (s.add w).TaskAt p t := get_add_iff.2 (Or.inl hp)

/-- Runs are counted as before when a task is added. -/
theorem Counted.add (h : s.Counted) (w : Work) : (s.add w).Counted where
  kept p t hp := by
    rcases get_add_iff.1 hp with hp | ⟨-, rfl⟩
    · exact h.kept p t hp
    · rfl
  fresh p t hp ht := by
    rcases get_add_iff.1 hp with hp | ⟨-, rfl⟩
    · exact h.fresh p t hp ht
    · rfl
  numbered p t hp ht := h.numbered p t (at_of_add hp ht) ht
  distinct p q t u hp hq ht htu :=
    h.distinct p q t u (at_of_add_of_pos hp ht) (at_of_add_of_pos hq (htu ▸ ht)) ht htu
  latest hbegun := by
    obtain ⟨p, t, hp, ht⟩ := h.latest hbegun
    exact ⟨p, t, add_at hp, ht⟩

/-- The lock and its queue agree with the stages as before. -/
theorem Locked.add (h : s.Locked) (w : Work) : (s.add w).Locked where
  holder p t hp ht := h.holder p t (at_of_add hp (by simp [ht])) ht
  held run hrun := by
    obtain ⟨p, t, hp, ht⟩ := h.held run hrun
    exact ⟨p, t, add_at hp, ht⟩
  queued run := by
    refine (h.queued run).trans ⟨?_, ?_⟩
    · rintro ⟨p, t, hp, ht⟩
      exact ⟨p, t, add_at hp, ht⟩
    · rintro ⟨p, t, hp, ht, hrun⟩
      exact ⟨p, t, at_of_add hp (by simp [ht]), ht, hrun⟩
  once := h.once

/-- The session knows as before which runs are of interest. -/
theorem Current.add (h : s.Current) (w : Work) : (s.add w).Current where
  superseded p t hp ht hrun := by
    refine h.superseded p t (at_of_add hp ?_) ht hrun
    rcases ht with ht | ht <;> simp [ht]
  running := by
    refine h.running.trans (and_congr_right fun hbegun => ⟨?_, ?_⟩)
    · intro hlatest p t r hp hrun
      exact hlatest p t r (at_of_add_of_pos hp (hrun ▸ hbegun)) hrun
    · intro hlatest p t r hp hrun
      exact hlatest p t r (add_at hp) hrun
  begun := h.begun

/-- The new task is listed, since it can go on. -/
theorem Listed.add (h : s.Listed) (w : Work) : (s.add w).Listed where
  worked p hp := by
    obtain ⟨t, ht, hstage⟩ := h.worked p hp
    exact ⟨t, add_at ht, hstage⟩
  ready_once := by
    have hnew : s.tasks.length ∉ s.ready := by
      intro hmem
      obtain ⟨t, ht, -⟩ := h.ready _ hmem
      simp [TaskAt] at ht
    exact List.nodup_append.2 ⟨h.ready_once, by simp, by
      rintro a ha b hb rfl
      exact hnew (List.mem_singleton.1 hb ▸ ha)⟩
  ready p hp := by
    rcases List.mem_append.1 hp with hp | hp
    · obtain ⟨t, ht, hgo⟩ := h.ready p hp
      exact ⟨t, add_at ht, hgo⟩
    · exact ⟨_, get_add_iff.2 (Or.inr ⟨List.mem_singleton.1 hp, rfl⟩), Or.inl rfl⟩
  called hnone p t hp ht hhead :=
    List.mem_append.2 (Or.inl (h.called hnone p t (at_of_add hp (by simp [ht])) ht hhead))

theorem Sound.add (h : s.Sound) (w : Work) : (s.add w).Sound :=
  ⟨h.toCounted.add w, h.toLocked.add w, h.toCurrent.add w, h.toListed.add w⟩

end Add

end Schedule

end JitInspect
