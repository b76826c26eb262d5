import JitInspect.Proofs.Session.Soundness

/-!
# Runs that begin, are admitted and end

A run that begins is the latest; it works at once if the lock is free, and waits behind the others if
not. When the lock is released, the run that has waited longest is admitted. Each of these steps keeps
a schedule sound (`Sound.afterBegin`, `Sound.letIn`, `Sound.ended`), and each of them is shown to keep
the numbers of the runs, the lock, what is of interest and the lists of places one after the other.
-/

namespace JitInspect

namespace Schedule

variable {s s₁ : Schedule} {place p : ℕ} {t u : Task}

/-! ### A task begins -/

section Begin

/-- A task that takes a turn is taken off the list, unless it is to be admitted. -/
theorem Sound.erase (h : s.Sound) (ht : s.TaskAt place t) (hstage : t.stage ≠ .waiting) :
    Sound { s with ready := s.ready.erase place } :=
  { h with
    ready_once := h.ready_once.erase place
    ready := fun p hp => h.ready p (List.mem_of_mem_erase hp)
    called := by
      intro hnone p u hp hu hhead
      have hne : p ≠ place := by
        rintro rfl
        rw [Option.some.inj (ht.symm.trans hp)] at hstage
        exact hstage hu
      exact (List.mem_erase_of_ne hne).2 (h.called hnone p u hp hu hhead) }

/-- The run of the task begins; it works if it is admitted at once, and waits if not. -/
def afterBegin (s : Schedule) (place : ℕ) : Schedule :=
  update { s with session := s.session.start } place fun t =>
    { t with
      run := s.session.begun + 1
      stage := if s.session.isFree then .working else .waiting }

/-- The stage at which a run begins. -/
def firstStage (s : Schedule) : Stage := if s.session.isFree then .working else .waiting

/-- A task that has begun is not at the stage before that. -/
theorem firstStage_ne_created (s : Schedule) : s.firstStage ≠ .created := by
  unfold firstStage
  split <;> simp

/-- A run that begins has not ended. -/
theorem firstStage_ne_ended (s : Schedule) (e : TaskEnd) : s.firstStage ≠ .ended e := by
  unfold firstStage
  split <;> simp

/-- The lock is free when nobody holds it and nobody waits for it. -/
theorem isFree_iff : s.session.isFree = true ↔
    s.session.admitted = none ∧ s.session.waiting = [] := by
  unfold Session.isFree
  rw [Bool.and_eq_true, Option.isNone_iff_eq_none, List.isEmpty_iff]

/-- A run that begins gets the next number. -/
theorem begun_afterBegin (s : Schedule) (place : ℕ) :
    (s.afterBegin place).session.begun = s.session.begun + 1 := rfl

/-- A run that finds the lock free is admitted at once. -/
theorem admitted_afterBegin (s : Schedule) (place : ℕ) :
    (s.afterBegin place).session.admitted =
      if s.session.isFree then some (s.session.begun + 1) else s.session.admitted := rfl

/-- One that does not waits behind the others. -/
theorem waiting_afterBegin (s : Schedule) (place : ℕ) :
    (s.afterBegin place).session.waiting =
      if s.session.isFree then s.session.waiting else s.session.waiting ++ [s.session.begun + 1] :=
  rfl

/-- The task that has begun. -/
theorem afterBegin_self (ht : s.TaskAt place t) : (s.afterBegin place).TaskAt place
    { t with run := s.session.begun + 1, stage := s.firstStage } :=
  (get_update_iff _).2 (Or.inl ⟨rfl, t, ht, rfl⟩)

/-- The tasks that had begun before stay as they are. -/
theorem afterBegin_other (ht : s.TaskAt place t) (hstage : t.stage = .created)
    (hp : s.TaskAt p u) (hu : u.stage ≠ .created) : (s.afterBegin place).TaskAt p u := by
  refine (get_update_iff _).2 (Or.inr ⟨?_, hp⟩)
  rintro rfl
  rw [Option.some.inj (hp.symm.trans ht)] at hu
  exact hu hstage

/-- Behind the beginning of a run its task has moved on and the other tasks have not. -/
theorem afterBegin_cases (ht : s.TaskAt place t) (hp : (s.afterBegin place).TaskAt p u) :
    (p = place ∧ u = { t with run := s.session.begun + 1, stage := s.firstStage }) ∨
      (p ≠ place ∧ s.TaskAt p u) := by
  rcases (get_update_iff _).1 hp with ⟨rfl, v, hv, rfl⟩ | hp
  · rw [Option.some.inj (hv.symm.trans ht)]
    exact Or.inl ⟨rfl, rfl⟩
  · exact Or.inr hp

/-- The runs that wait have begun before. -/
theorem Sound.le_of_mem_waiting (h : s.Sound) {run : ℕ} (hrun : run ∈ s.session.waiting) :
    run ≤ s.session.begun := by
  obtain ⟨p, u, hp, -, rfl⟩ := (h.queued run).1 hrun
  exact h.run_le hp

/-- Runs are counted on when one begins. -/
theorem Counted.afterBegin (h : s.Counted) (ht : s.TaskAt place t) :
    (s.afterBegin place).Counted where
  kept p u hp := by
    rcases afterBegin_cases ht hp with ⟨-, rfl⟩ | ⟨-, hpOld⟩
    · exact h.kept place t ht
    · exact h.kept p u hpOld
  fresh p u hp hu := by
    rcases afterBegin_cases ht hp with ⟨-, rfl⟩ | ⟨-, hpOld⟩
    · exact absurd hu s.firstStage_ne_created
    · exact h.fresh p u hpOld hu
  numbered p u hp hu := by
    rw [begun_afterBegin]
    rcases afterBegin_cases ht hp with ⟨-, rfl⟩ | ⟨-, hpOld⟩
    · exact ⟨Nat.succ_pos _, Nat.le_refl _⟩
    · obtain ⟨hpos, hle⟩ := h.numbered p u hpOld hu
      exact ⟨hpos, Nat.le_succ_of_le hle⟩
  distinct p q u v hp hq hu huv := by
    -- an older number is smaller than the new one
    rcases afterBegin_cases ht hp with ⟨hpEq, rfl⟩ | ⟨-, hpOld⟩ <;>
      rcases afterBegin_cases ht hq with ⟨hqEq, rfl⟩ | ⟨-, hqOld⟩
    · exact hpEq.trans hqEq.symm
    · have hle := h.run_le hqOld
      simp only at huv
      omega
    · have hle := h.run_le hpOld
      simp only at huv
      omega
    · exact h.distinct p q u v hpOld hqOld hu huv
  latest _ := ⟨place, _, afterBegin_self ht, rfl⟩

/-- A run that finds the lock free is the only one that works, and nobody waits. -/
theorem Sound.locked_afterBegin_of_isFree (h : s.Sound) (ht : s.TaskAt place t)
    (hfree : s.session.isFree = true) : (s.afterBegin place).Locked := by
  obtain ⟨hnone, hempty⟩ := isFree_iff.1 hfree
  have hfirst : s.firstStage = .working := if_pos hfree
  constructor
  case holder =>
    intro p u hp hu
    rw [admitted_afterBegin, if_pos hfree]
    rcases afterBegin_cases ht hp with ⟨-, rfl⟩ | ⟨-, hpOld⟩
    · rfl
    · rw [h.holder p u hpOld hu] at hnone
      cases hnone
  case held =>
    intro run hrun
    rw [admitted_afterBegin, if_pos hfree] at hrun
    exact ⟨place, _, afterBegin_self ht, hfirst, Option.some.inj hrun⟩
  case queued =>
    intro run
    rw [waiting_afterBegin, if_pos hfree, hempty]
    refine ⟨fun hrun => absurd hrun List.not_mem_nil, ?_⟩
    rintro ⟨p, u, hp, hu, rfl⟩
    rcases afterBegin_cases ht hp with ⟨-, rfl⟩ | ⟨-, hpOld⟩
    · rw [hfirst] at hu
      cases hu
    · rw [← hempty]
      exact (h.queued u.run).2 ⟨p, u, hpOld, hu, rfl⟩
  case once =>
    rw [waiting_afterBegin, if_pos hfree]
    exact h.once

/-- A run that finds the lock taken waits behind the others, and the lock stays as it is. -/
theorem Sound.locked_afterBegin_of_not_isFree (h : s.Sound) (ht : s.TaskAt place t)
    (hstage : t.stage = .created) (hfree : ¬ s.session.isFree = true) :
    (s.afterBegin place).Locked := by
  have hfirst : s.firstStage = .waiting := if_neg hfree
  constructor
  case holder =>
    intro p u hp hu
    rw [admitted_afterBegin, if_neg hfree]
    rcases afterBegin_cases ht hp with ⟨-, rfl⟩ | ⟨-, hpOld⟩
    · rw [hfirst] at hu
      cases hu
    · exact h.holder p u hpOld hu
  case held =>
    intro run hrun
    rw [admitted_afterBegin, if_neg hfree] at hrun
    obtain ⟨p, u, hp, hu, hurun⟩ := h.held run hrun
    exact ⟨p, u, afterBegin_other ht hstage hp (by simp [hu]), hu, hurun⟩
  case queued =>
    intro run
    rw [waiting_afterBegin, if_neg hfree, List.mem_append, List.mem_singleton]
    constructor
    · rintro (hrun | rfl)
      · obtain ⟨p, u, hp, hu, hurun⟩ := (h.queued run).1 hrun
        exact ⟨p, u, afterBegin_other ht hstage hp (by simp [hu]), hu, hurun⟩
      · exact ⟨place, _, afterBegin_self ht, hfirst, rfl⟩
    · rintro ⟨p, u, hp, hu, rfl⟩
      rcases afterBegin_cases ht hp with ⟨-, rfl⟩ | ⟨-, hpOld⟩
      · exact Or.inr rfl
      · exact Or.inl ((h.queued u.run).2 ⟨p, u, hpOld, hu, rfl⟩)
  case once =>
    -- the new number is larger than those that wait
    rw [waiting_afterBegin, if_neg hfree]
    refine List.nodup_append.2 ⟨h.once, by simp, ?_⟩
    rintro a ha b hb rfl
    have hle := h.le_of_mem_waiting ha
    have hnew := List.mem_singleton.1 hb
    omega

/-- The lock and its queue agree with the stages of the tasks when a run has begun. -/
theorem Sound.locked_afterBegin (h : s.Sound) (ht : s.TaskAt place t)
    (hstage : t.stage = .created) : (s.afterBegin place).Locked := by
  by_cases hfree : s.session.isFree = true
  · exact h.locked_afterBegin_of_isFree ht hfree
  · exact h.locked_afterBegin_of_not_isFree ht hstage hfree

/-- The run that was the latest is unfinished at most if the session is running, and then it is
cancelled by the one that begins. -/
theorem Sound.current_afterBegin (h : s.Sound) (ht : s.TaskAt place t) :
    (s.afterBegin place).Current where
  superseded p u hp hu hrun := by
    rw [begun_afterBegin] at hrun
    rcases afterBegin_cases ht hp with ⟨-, rfl⟩ | ⟨-, hpOld⟩
    · exact absurd rfl hrun
    change s.session.cancel.isCancelled u.run = true
    by_cases hlatest : u.run = s.session.begun
    · have hpos : 0 < u.run := (h.numbered p u hpOld (by rcases hu with hu | hu <;> simp [hu])).1
      have hrunning : s.session.isRunning = true := by
        refine h.running.2 ⟨hlatest ▸ hpos, fun q v r hq hv hr => ?_⟩
        obtain rfl := h.distinct p q u v hpOld hq hpos (hlatest.trans hv.symm)
        rw [← Option.some.inj (hpOld.symm.trans hq)] at hr
        rcases hu with hu | hu <;> rw [hu] at hr <;> cases hr
      rw [hlatest]
      exact isCancelled_cancel_begun hrunning
    · exact isCancelled_cancel (h.superseded p u hpOld hu hlatest)
  running := by
    refine ⟨fun _ => ⟨Nat.succ_pos _, fun p u r hp hrun hr => ?_⟩, fun _ => rfl⟩
    rcases afterBegin_cases ht hp with ⟨-, rfl⟩ | ⟨-, hpOld⟩
    · exact s.firstStage_ne_ended _ hr
    · have hle := h.run_le hpOld
      rw [begun_afterBegin] at hrun
      omega
  begun run hrun := by
    rw [begun_afterBegin]
    change s.session.cancel.isCancelled run = true at hrun
    rcases of_isCancelled_cancel hrun with hold | rfl
    · exact Nat.le_succ_of_le (h.begun run hold)
    · exact Nat.le_succ _

/-- The tasks that can go on are the right ones when a run has begun. -/
theorem Sound.listed_afterBegin (h : s.Sound) (ht : s.TaskAt place t) (hstage : t.stage = .created)
    (hready : place ∉ s.ready) : (s.afterBegin place).Listed where
  worked p hp := by
    obtain ⟨u, hu, hnot, hstill⟩ := h.worked p hp
    exact ⟨u, afterBegin_other ht hstage hu hnot, hnot, hstill⟩
  ready_once := h.ready_once
  ready p hp := by
    obtain ⟨u, hu, hgo⟩ := h.ready p hp
    have hne : p ≠ place := by
      rintro rfl
      exact hready hp
    refine ⟨u, (get_update_iff _).2 (Or.inr ⟨hne, hu⟩), ?_⟩
    rcases hgo with hgo | hgo | ⟨hgo, hhead, hnone⟩
    · exact Or.inl hgo
    · exact Or.inr (Or.inl hgo)
    · have hfree : ¬ s.session.isFree = true := by
        rw [isFree_iff]
        rintro ⟨-, hempty⟩
        rw [hempty] at hhead
        cases hhead
      refine Or.inr (Or.inr ⟨hgo, ?_, ?_⟩)
      · rw [waiting_afterBegin, if_neg hfree, List.head?_append, hhead]
        rfl
      · rw [admitted_afterBegin, if_neg hfree, hnone]
  called := by
    -- if nobody is admitted then the lock was not free, and whoever was first in the queue still is
    intro hnone p u hp hu hhead
    rw [admitted_afterBegin] at hnone
    have hfree : ¬ s.session.isFree = true := by
      intro hfree
      rw [if_pos hfree] at hnone
      cases hnone
    rw [if_neg hfree] at hnone
    have hwait : s.session.waiting ≠ [] := fun hempty => hfree (isFree_iff.2 ⟨hnone, hempty⟩)
    obtain ⟨first, rest, hfirst⟩ := List.exists_cons_of_ne_nil hwait
    rw [waiting_afterBegin, if_neg hfree, hfirst] at hhead
    have hfirstRun : first = u.run := Option.some.inj hhead
    rcases afterBegin_cases ht hp with ⟨-, rfl⟩ | ⟨-, hpOld⟩
    · have hfirstLe : first ≤ s.session.begun := h.le_of_mem_waiting (by simp [hfirst])
      simp only at hfirstRun
      omega
    · exact h.called hnone p u hpOld hu (by rw [hfirst, hfirstRun]; rfl)

/-- The run that begins is the latest. Unless it is admitted at once it waits behind the others. -/
theorem Sound.afterBegin (h : s.Sound) (ht : s.TaskAt place t) (hstage : t.stage = .created)
    (hready : place ∉ s.ready) : (s.afterBegin place).Sound :=
  ⟨h.toCounted.afterBegin ht, h.locked_afterBegin ht hstage, h.current_afterBegin ht,
    h.listed_afterBegin ht hstage hready⟩

end Begin

/-! ### A task is admitted -/

section Admit

/-- From the first schedule to the second the task that waits at the place is admitted. -/
structure Admits (s s₁ : Schedule) (place : ℕ) (t : Task) : Prop
    extends Moves s s₁ place t .working where
  waits : t.stage = .waiting
  first : s.session.waiting.head? = some t.run
  vacant : s.session.admitted = none
  session : s₁.session = s.session.admitNext
  ready : s₁.ready = s.ready.erase place
  started : s₁.started = s.started

namespace Admits

/-- The run has begun. -/
theorem pos (ha : Admits s s₁ place t) (h : s.Sound) : 0 < t.run :=
  (h.numbered place t ha.before (by simp [ha.waits])).1

/-- No other task has its number. -/
theorem eq_place (ha : Admits s s₁ place t) (h : s.Sound) (hp : s.TaskAt p u) (hrun : u.run = t.run) :
    p = place :=
  h.distinct p place u t hp ha.before (hrun ▸ ha.pos h) hrun

/-- The other runs wait behind it. -/
theorem waiting_eq (ha : Admits s s₁ place t) : s.session.waiting = t.run :: s₁.session.waiting := by
  rw [ha.session]
  change s.session.waiting = t.run :: s.session.waiting.tail
  have hfirst := ha.first
  cases hwaiting : s.session.waiting with
  | nil =>
    rw [hwaiting] at hfirst
    cases hfirst
  | cons run rest =>
    rw [hwaiting] at hfirst
    rw [Option.some.inj hfirst]
    rfl

/-- The run of the task holds the lock. -/
theorem admitted_eq (ha : Admits s s₁ place t) : s₁.session.admitted = some t.run := by
  rw [ha.session]
  exact ha.first

/-- Nobody works before. -/
theorem not_working (ha : Admits s s₁ place t) (h : s.Sound) (hp : s.TaskAt p u) :
    u.stage ≠ .working := by
  intro hu
  have hnone := ha.vacant
  rw [h.holder p u hp hu] at hnone
  cases hnone

/-- The lock and its queue agree with the stages of the tasks as before. -/
theorem locked (ha : Admits s s₁ place t) (h : s.Sound) : s₁.Locked where
  holder p u hp hu := by
    rcases ha.at_cases hp with ⟨-, rfl⟩ | ⟨-, hpOld⟩
    · exact ha.admitted_eq
    · exact absurd hu (ha.not_working h hpOld)
  held run hrun := ⟨place, _, ha.self, rfl, Option.some.inj (ha.admitted_eq.symm.trans hrun)⟩
  queued run := by
    have honce := h.once
    rw [ha.waiting_eq, List.nodup_cons] at honce
    constructor
    · intro hrun
      have hmem : run ∈ s.session.waiting := by
        rw [ha.waiting_eq]
        exact List.mem_cons_of_mem t.run hrun
      obtain ⟨p, u, hp, hu, rfl⟩ := (h.queued run).1 hmem
      refine ⟨p, u, (ha.other ?_).2 hp, hu, rfl⟩
      rintro rfl
      rw [Option.some.inj (hp.symm.trans ha.before)] at hrun
      exact honce.1 hrun
    · rintro ⟨p, u, hp, hu, rfl⟩
      rcases ha.at_cases hp with ⟨-, rfl⟩ | ⟨hne, hpOld⟩
      · cases hu
      · have hmem := (h.queued u.run).2 ⟨p, u, hpOld, hu, rfl⟩
        rw [ha.waiting_eq, List.mem_cons] at hmem
        rcases hmem with hmem | hmem
        · exact absurd (ha.eq_place h hpOld hmem) hne
        · exact hmem
  once := by
    have honce := h.once
    rw [ha.waiting_eq, List.nodup_cons] at honce
    exact honce.2

/-- The session knows as before which runs are of interest. -/
theorem current (ha : Admits s s₁ place t) (h : s.Sound) : s₁.Current where
  superseded p u hp hu hrun := by
    rw [ha.session] at hrun ⊢
    rcases ha.at_cases hp with ⟨-, rfl⟩ | ⟨-, hpOld⟩
    · exact h.superseded place t ha.before (Or.inl ha.waits) hrun
    · exact h.superseded p u hpOld hu hrun
  running := by
    rw [ha.session]
    refine h.running.trans (and_congr_right fun _ => ⟨?_, ?_⟩)
    · intro hlatest p u r hp hrun
      rcases ha.at_cases hp with ⟨-, rfl⟩ | ⟨-, hpOld⟩
      · simp
      · exact hlatest p u r hpOld hrun
    · intro hlatest p u r hp hrun
      by_cases hne : p = place
      · subst hne
        rw [Option.some.inj (hp.symm.trans ha.before), ha.waits]
        simp
      · exact hlatest p u r ((ha.other hne).2 hp) hrun
  begun run hrun := by
    rw [ha.session] at hrun ⊢
    exact h.begun run hrun

/-- The lists of places agree with the stages of the tasks as before. -/
theorem listed (ha : Admits s s₁ place t) (h : s.Sound) : s₁.Listed where
  worked p hp := by
    rw [ha.started] at hp
    obtain ⟨u, hu, hnot, hstill⟩ := h.worked p hp
    refine ⟨u, (ha.other ?_).2 hu, hnot, hstill⟩
    rintro rfl
    rw [Option.some.inj (hu.symm.trans ha.before)] at hstill
    exact hstill ha.waits
  ready_once := by
    rw [ha.ready]
    exact h.ready_once.erase place
  ready p hp := by
    rw [ha.ready] at hp
    have hne : p ≠ place := by
      rintro rfl
      exact h.ready_once.not_mem_erase hp
    obtain ⟨u, hu, hgo⟩ := h.ready p (List.mem_of_mem_erase hp)
    refine ⟨u, (ha.other hne).2 hu, ?_⟩
    rcases hgo with hgo | hgo | ⟨-, hfirst, -⟩
    · exact Or.inl hgo
    · exact Or.inr (Or.inl hgo)
    · rw [ha.first] at hfirst
      exact absurd (ha.eq_place h hu (Option.some.inj hfirst).symm) hne
  called hnone := by
    rw [ha.admitted_eq] at hnone
    cases hnone

theorem sound (ha : Admits s s₁ place t) (h : s.Sound) : s₁.Sound where
  toCounted := h.toCounted.move ha.toMoves (by rw [ha.session]; rfl) (by simp [ha.waits]) (by simp)
  toLocked := ha.locked h
  toCurrent := ha.current h
  toListed := ha.listed h

end Admits

/-- The run that has waited longest is admitted and works. -/
theorem Sound.letIn (h : s.Sound) (ht : s.TaskAt place t) (hstage : t.stage = .waiting)
    (hhead : s.session.waiting.head? = some t.run) (hnone : s.session.admitted = none) :
    (mark { s with session := s.session.admitNext, ready := s.ready.erase place } place).Sound :=
  Admits.sound ⟨⟨ht, rfl⟩, hstage, hhead, hnone, rfl, rfl, rfl⟩ h

end Admit

/-! ### A task ends -/

section Ending

variable {e : TaskEnd}

/-- Only a task that waits is called. -/
theorem Sound.waits_of_called (h : s.Sound) (hp : s.TaskAt p u)
    (hhead : s.session.waiting.head? = some u.run) : u.stage = .waiting := by
  obtain ⟨q, v, hq, hv, hvu⟩ := (h.queued u.run).1 (List.mem_of_head? hhead)
  have hpos : 0 < v.run := (h.numbered q v hq (by simp [hv])).1
  obtain rfl := h.distinct q p v u hq hp hpos hvu
  rw [Option.some.inj (hp.symm.trans hq)]
  exact hv

/-- What the end of a task leaves of the session: nobody is admitted, and the session is no longer
running if it was the latest run that returned. -/
structure EndsIn (s : Schedule) (t : Task) (e : TaskEnd) (c : Session) : Prop where
  begun : c.begun = s.session.begun
  cancelled : c.cancelled = s.session.cancelled
  admitted : c.admitted = none
  waiting : c.waiting = s.session.waiting
  running : c.isRunning = true ↔
    s.session.isRunning = true ∧ ¬ (t.run = s.session.begun ∧ ∃ r, e = .result r)

/-- From the first schedule to the second the task that works at the place ends, and the one that has
waited longest is called. -/
structure Ends (s s₁ : Schedule) (place : ℕ) (t : Task) (e : TaskEnd) : Prop
    extends Moves s s₁ place t (.ended e), EndsIn s t e s₁.session where
  works : t.stage = .working
  taken : place ∉ s.ready
  started : s₁.started = s.started
  ready_once : s.ready.Nodup → s₁.ready.Nodup
  ready : ∀ p, p ∈ s₁.ready ↔ p ∈ s.ready ∨ ∃ u, s.TaskAt p u ∧ u.hasEnded = false ∧
    s.session.waiting.head? = some u.run

namespace Ends

/-- Nobody else works. -/
theorem not_working (he : Ends s s₁ place t e) (h : s.Sound) (hne : p ≠ place) (hp : s.TaskAt p u) :
    u.stage ≠ .working :=
  fun hu => hne (h.working_unique hp he.before hu he.works)

/-- Behind the end of the run nobody holds the lock, and the queue is as it was. -/
theorem locked (he : Ends s s₁ place t e) (h : s.Sound) : s₁.Locked where
  holder p u hp hu := by
    rcases he.at_cases hp with ⟨-, rfl⟩ | ⟨hne, hpOld⟩
    · cases hu
    · exact absurd hu (he.not_working h hne hpOld)
  held run hrun := by
    rw [he.admitted] at hrun
    cases hrun
  queued run := by
    rw [he.waiting]
    refine (h.queued run).trans ⟨?_, ?_⟩
    · rintro ⟨p, u, hp, hu, hrun⟩
      refine ⟨p, u, (he.other ?_).2 hp, hu, hrun⟩
      rintro rfl
      rw [Option.some.inj (hp.symm.trans he.before), he.works] at hu
      cases hu
    · rintro ⟨p, u, hp, hu, hrun⟩
      rcases he.at_cases hp with ⟨-, rfl⟩ | ⟨-, hpOld⟩
      · cases hu
      · exact ⟨p, u, hpOld, hu, hrun⟩
  once := by
    rw [he.waiting]
    exact h.once

/-- The session knows which runs are of interest, and that it is idle if the latest one has returned. -/
theorem current (he : Ends s s₁ place t e) (h : s.Sound) : s₁.Current where
  superseded p u hp hu hrun := by
    rw [he.begun] at hrun
    rw [Session.isCancelled, he.cancelled]
    rcases he.at_cases hp with ⟨-, rfl⟩ | ⟨-, hpOld⟩
    · rcases hu with hu | hu <;> cases hu
    · exact h.superseded p u hpOld hu hrun
  running := by
    rw [he.begun, he.running]
    constructor
    · rintro ⟨hrunning, hnot⟩
      obtain ⟨hbegun, hlatest⟩ := h.running.1 hrunning
      refine ⟨hbegun, fun p u r hp hrun => ?_⟩
      rcases he.at_cases hp with ⟨-, rfl⟩ | ⟨-, hpOld⟩
      · exact fun hr => hnot ⟨hrun, r, Stage.ended.inj hr⟩
      · exact hlatest p u r hpOld hrun
    · rintro ⟨hbegun, hlatest⟩
      refine ⟨h.running.2 ⟨hbegun, fun p u r hp hrun => ?_⟩, ?_⟩
      · by_cases hne : p = place
        · subst hne
          rw [Option.some.inj (hp.symm.trans he.before), he.works]
          simp
        · exact hlatest p u r ((he.other hne).2 hp) hrun
      · rintro ⟨hrun, r, rfl⟩
        exact hlatest place _ r he.self hrun rfl
  begun run hrun := by
    rw [Session.isCancelled, he.cancelled] at hrun
    rw [he.begun]
    exact h.begun run hrun

/-- The run that is called can go on, and no place is listed twice. -/
theorem listed (he : Ends s s₁ place t e) (h : s.Sound) : s₁.Listed where
  worked p hp := by
    rw [he.started] at hp
    obtain ⟨u, hu, hnot, hstill⟩ := h.worked p hp
    by_cases hne : p = place
    · subst hne
      exact ⟨_, he.self, by simp, by simp⟩
    · exact ⟨u, (he.other hne).2 hu, hnot, hstill⟩
  ready_once := he.ready_once h.ready_once
  ready p hp := by
    rcases (he.ready p).1 hp with hpOld | ⟨u, hu, -, hhead⟩
    · have hne : p ≠ place := by
        rintro rfl
        exact he.taken hpOld
      obtain ⟨u, hu, hgo⟩ := h.ready p hpOld
      refine ⟨u, (he.other hne).2 hu, ?_⟩
      rcases hgo with hgo | hgo | ⟨-, -, hnone⟩
      · exact Or.inl hgo
      · exact absurd hgo (he.not_working h hne hu)
      · rw [h.holder place t he.before he.works] at hnone
        cases hnone
    · have hwaits := h.waits_of_called hu hhead
      have hne : p ≠ place := by
        rintro rfl
        rw [Option.some.inj (hu.symm.trans he.before), he.works] at hwaits
        cases hwaits
      refine ⟨u, (he.other hne).2 hu, Or.inr (Or.inr ⟨hwaits, ?_, he.admitted⟩)⟩
      rw [he.waiting]
      exact hhead
  called _ p u hp hu hhead := by
    rw [he.waiting] at hhead
    rcases he.at_cases hp with ⟨-, rfl⟩ | ⟨-, hpOld⟩
    · cases hu
    · refine (he.ready p).2 (Or.inr ⟨u, hpOld, ?_, hhead⟩)
      simp [Task.hasEnded, hu]

theorem sound (he : Ends s s₁ place t e) (h : s.Sound) : s₁.Sound where
  toCounted := h.toCounted.move he.toMoves he.begun (by simp [he.works]) (by simp)
  toLocked := he.locked h
  toCurrent := he.current h
  toListed := he.listed h

end Ends

/-- The task that worked ends, and the one that has waited longest can go on. -/
theorem Sound.ended (h : (s.mark place).Sound) (ht : s.TaskAt place t) (hready : place ∉ s.ready)
    {session : Session} (hends : EndsIn s t e session) (world : World) :
    (finishTask { s.release with session, world } place e).Sound := by
  obtain ⟨ready, heq, hmem, hnodup⟩ := s.release_eq
  rw [heq]
  have hcalled : s.session.waiting.head? ≠ some t.run := by
    intro hhead
    have hwaits := h.waits_of_called (mark_at_self ht) hhead
    cases hwaits
  have hsession : EndsIn (s.mark place) { t with stage := .working } e session :=
    ⟨hends.begun, hends.cancelled, hends.admitted, hends.waiting, hends.running⟩
  have hstep : Ends (s.mark place) (finishTask { s with session, world, ready } place e) place
      { t with stage := .working } e := by
    refine ⟨⟨mark_at_self ht, ?_⟩, hsession, rfl, hready, rfl, hnodup, fun p => ?_⟩
    · rw [mark, update_update]
      rfl
    · refine (hmem p).trans (or_congr Iff.rfl (exists_congr fun u => ?_))
      by_cases hne : p = place
      · -- the task that ends is not called, so that its stage does not matter
        subst hne
        constructor
        · rintro ⟨hu, -, hhead⟩
          rw [Option.some.inj (hu.symm.trans ht)] at hhead
          exact absurd hhead hcalled
        · rintro ⟨hu, -, hhead⟩
          rw [Option.some.inj (hu.symm.trans (mark_at_self ht))] at hhead
          exact absurd hhead hcalled
      · rw [mark_at_of_ne hne]
        rfl
  exact hstep.sound h

end Ending

end Schedule

end JitInspect
