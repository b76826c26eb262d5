import JitInspect.Proofs.Session.Admission

/-!
# Turns

A turn lets one task go on. `Schedule.Turned` says what that can do: the schedule stays sound, the
other tasks stay as they are, no token is taken back, and what is shown changes only if the task
returns a result and its run is the latest. The description is put together along the definitions:
from the end of a task to the completion of its work, to the admission of its run, to the turn.

A task whose work has started ends as its own work does, and one that was cancelled while it waited
ends without any (`Schedule.EndsAs`); this is followed along the same definitions.
-/

namespace JitInspect

/-- What the user sees of a session. -/
def Session.showing (c : Session) : Text × Text × Option RunResult :=
  (c.output, c.previousOutput, c.lastResult)

/-- What is seen once a result is shown. -/
def Session.showingWith (c : Session) (r : RunResult) : Text × Text × Option RunResult :=
  (r.output, if Text.blank c.output then c.previousOutput else c.output, some r)

/-- The end of a task whose work has ended. -/
def TaskEnd.ofWork (e : WorkEnd) : TaskEnd :=
  match e.failure with
  | some f => .failure f
  | none => .result e.result

namespace Schedule

variable {s s₁ s₂ : Schedule} {place : ℕ} {t u : Task}

/-! ### What a turn can do -/

section Turned

/-- What a turn of the task at the place does to what was seen before. -/
inductive Shows (c : Session) (place : ℕ) (s₁ : Schedule) : Prop where
  /-- The task has not returned, and the user sees what was seen before. -/
  | nothing (t : Task) (hat : s₁.TaskAt place t) (hstage : ∀ r, t.stage ≠ .ended (.result r))
      (hshowing : s₁.session.showing = c.showing)
  /-- The task has returned, and its result is shown if its run is the latest. -/
  | result (t : Task) (r : RunResult) (hat : s₁.TaskAt place t) (hstage : t.stage = .ended (.result r))
      (hshowing : s₁.session.showing =
        if t.run = s₁.session.begun then c.showingWith r else c.showing)

/-- What a turn of the task at the place can do. -/
structure Turned (s : Schedule) (place : ℕ) (s₁ : Schedule) : Prop where
  sound : s₁.Sound
  others : ∀ p ≠ place, s₁.tasks[p]? = s.tasks[p]?
  cancelled : ∀ run, s.session.isCancelled run = true → s₁.session.isCancelled run = true
  started : s₁.started = s.started ∨ s₁.started = s.started ++ [place]
  shows : Shows s.session place s₁

/-- What happened in the turn before may be reckoned in, as long as nothing was shown. -/
theorem Turned.after (h : Turned s₁ place s₂) (hothers : ∀ p ≠ place, s₁.tasks[p]? = s.tasks[p]?)
    (hcancelled : ∀ run, s.session.isCancelled run = true → s₁.session.isCancelled run = true)
    (hstarted : s₁.started = s.started) (hshowing : s₁.session.showing = s.session.showing) :
    Turned s place s₂ where
  sound := h.sound
  others p hp := (h.others p hp).trans (hothers p hp)
  cancelled run hrun := h.cancelled run (hcancelled run hrun)
  started := by
    rw [← hstarted]
    exact h.started
  shows := by
    have hwith : ∀ r, s₁.session.showingWith r = s.session.showingWith r := by
      intro r
      simp only [Session.showing, Prod.mk.injEq] at hshowing
      simp only [Session.showingWith, hshowing.1, hshowing.2.1]
    cases h.shows with
    | nothing t hat hstage hsame => exact .nothing t hat hstage (hsame.trans hshowing)
    | result t r hat hstage hsame =>
      refine .result t r hat hstage ?_
      rw [hsame, hwith, hshowing]

/-- How a task that stood at the place before a turn may end in it. -/
inductive EndsAs (s s₁ : Schedule) (place : ℕ) (t : Task) : TaskEnd → Prop where
  /-- Its run was cancelled while it waited, and no work of it was started. -/
  | early (hwaits : t.stage = .waiting) (hcancelled : s.session.isCancelled t.run = true)
      (hnot : place ∉ s₁.started) : EndsAs s s₁ place t (.result .cancelledEarly)
  /-- Its own work was started and has given this result. -/
  | result (hstarted : place ∈ s₁.started) (hworks : (s.ending t).failure = none) :
      EndsAs s s₁ place t (.result (s.ending t).result)
  /-- Its own work was started and has failed. -/
  | failure {f : Failure} (hstarted : place ∈ s₁.started) (hfails : (s.ending t).failure = some f) :
      EndsAs s s₁ place t (.failure f)

/-- A task whose work was started may end as the work does. -/
theorem EndsAs.ofWork (hstarted : place ∈ s₁.started) :
    EndsAs s s₁ place t (.ofWork (s.ending t)) := by
  unfold TaskEnd.ofWork
  cases hfailure : (s.ending t).failure with
  | none => exact .result hstarted hfailure
  | some f => exact .failure hstarted hfailure

/-- What may have become of a task when its turn is over. -/
inductive Comes (s s₁ : Schedule) (place : ℕ) (t : Task) : Stage → Prop where
  | waits : Comes s s₁ place t .waiting
  | works (hstarted : place ∈ s₁.started) : Comes s s₁ place t .working
  | ends {x : TaskEnd} (hends : EndsAs s s₁ place t x) : Comes s s₁ place t (.ended x)

/-- Which other tasks can go on does not matter. -/
theorem Comes.of_ready {ready : List ℕ} {stage : Stage}
    (h : Comes { s with ready } s₁ place t stage) : Comes s s₁ place t stage := by
  cases h with
  | waits => exact .waits
  | works hstarted => exact .works hstarted
  | ends hends =>
    cases hends with
    | early hwaits hcancelled hnot => exact .ends (.early hwaits hcancelled hnot)
    | result hstarted hworks => exact .ends (.result hstarted hworks)
    | failure hstarted hfails => exact .ends (.failure hstarted hfails)

/-- A task whose work was started is still at it, or it has ended as the work does. -/
theorem Comes.of_started {stage : Stage} (hstarted : place ∈ s₁.started)
    (hstage : stage = .working ∨ stage = .ended (.ofWork (s.ending t))) :
    Comes s s₁ place t stage := by
  rcases hstage with rfl | rfl
  · exact .works hstarted
  · exact .ends (.ofWork hstarted)

/-- What a task keeps from one schedule to a later one. -/
structure Keeps (t v : Task) : Prop where
  work : v.work = t.work
  /-- A run that has begun keeps its number, -/
  run : t.stage ≠ .created → v.run = t.run
  begun : t.stage ≠ .created → v.stage ≠ .created
  /-- and one that has ended stays as it is. -/
  ended : t.hasEnded = true → v = t

theorem Keeps.refl (t : Task) : Keeps t t := ⟨rfl, fun _ => rfl, id, fun _ => rfl⟩

theorem Keeps.trans {v w : Task} (h : Keeps t v) (hlater : Keeps v w) : Keeps t w where
  work := hlater.work.trans h.work
  run hbegun := (hlater.run (h.begun hbegun)).trans (h.run hbegun)
  begun hbegun := hlater.begun (h.begun hbegun)
  ended hended := by
    have hsame := h.ended hended
    rw [← hsame]
    exact hlater.ended (hsame ▸ hended)

/-- A task that has had its turn is no longer about to begin. -/
theorem Comes.ne_created {stage : Stage} (h : Comes s s₁ place t stage) : stage ≠ .created := by
  cases h <;> simp

end Turned

/-! ### The end of a task -/

section Ending

/-- Only the latest run shows its result. -/
theorem showing_conclude (c : Session) (run : ℕ) (r : RunResult) :
    (c.conclude run r).1.showing = if run = c.begun then c.showingWith r else c.showing := by
  unfold Session.conclude
  by_cases h : run = c.begun
  · rw [if_neg (not_not.2 h), if_pos h]
    rfl
  · rw [if_pos h, if_neg h]

/-- Cancelling shows nothing. -/
theorem showing_cancel (c : Session) : c.cancel.showing = c.showing := by
  unfold Session.cancel
  split <;> rfl

/-- What ends when a run is concluded behind the lock. -/
theorem endsIn_conclude (t : Task) (r : RunResult) (hrun : t.run = u.run) :
    EndsIn s t (.result r) (s.session.release.conclude u.run r).1 := by
  unfold Session.conclude
  rw [← hrun]
  by_cases h : t.run = s.session.begun
  · have hnot : ¬ t.run ≠ s.session.release.begun := not_not.2 h
    rw [if_neg hnot]
    refine ⟨rfl, rfl, rfl, rfl, ?_⟩
    simp [h]
    rfl
  · have hne : t.run ≠ s.session.release.begun := h
    rw [if_pos hne]
    refine ⟨rfl, rfl, rfl, rfl, ?_⟩
    simp [h]
    rfl

/-- A run that is concluded behind the lock returns its result. -/
theorem conclude_turned (h : (s.mark place).Sound) (ht : s.TaskAt place t) (hready : place ∉ s.ready)
    (hrun : t.run = u.run) (r : RunResult) :
    Turned s place (s.release.conclude place u.run r) ∧
      (s.release.conclude place u.run r).started = s.started ∧
      (s.release.conclude place u.run r).TaskAt place { t with stage := .ended (.result r) } := by
  obtain ⟨ready, hrelease, -⟩ := s.release_eq
  have hsession : s.release.session = s.session.release := by rw [hrelease]
  have htasks : s.release.tasks = s.tasks := by rw [hrelease]
  have hstarted : s.release.started = s.started := by rw [hrelease]
  obtain ⟨world, hconclude⟩ := s.release.conclude_eq place u.run r
  have hends : EndsIn s t (.result r) (s.release.session.conclude u.run r).1 := by
    rw [hsession]
    exact endsIn_conclude t r hrun
  have hat : (s.release.conclude place u.run r).TaskAt place { t with stage := .ended (.result r) } := by
    rw [hconclude]
    refine (get_update_iff _).2 (Or.inl ⟨rfl, t, ?_, rfl⟩)
    change s.release.tasks[place]? = some t
    rw [htasks]
    exact ht
  refine ⟨⟨?_, ?_, ?_, Or.inl ?_, ?_⟩, ?_, hat⟩
  · rw [hconclude]
    exact h.ended ht hready hends world
  · intro p hp
    rw [hconclude]
    refine (get_update_of_ne _ hp).trans ?_
    change s.release.tasks[p]? = _
    rw [htasks]
  · intro run hcancelled
    rw [hconclude]
    change (s.release.session.conclude u.run r).1.cancelled.contains run = true
    rw [hends.cancelled]
    exact hcancelled
  · rw [hconclude]
    exact hstarted
  · refine .result _ r hat rfl ?_
    rw [hconclude]
    change (s.release.session.conclude u.run r).1.showing = if t.run =
      (s.release.session.conclude u.run r).1.begun then _ else _
    rw [hends.begun, showing_conclude, hsession, ← hrun]
    rfl
  · rw [hconclude]
    exact hstarted

/-- Work that comes to its end returns its result or fails, and so does its task. -/
theorem complete_turned (h : (s.mark place).Sound) (ht : s.TaskAt place t) (hready : place ∉ s.ready)
    (hrun : t.run = u.run) :
    Turned s place (s.complete place u) ∧ (s.complete place u).started = s.started ∧
      (s.complete place u).TaskAt place { t with stage := .ended (.ofWork (s.ending u)) } := by
  unfold complete TaskEnd.ofWork
  cases (s.ending u).failure with
  | none => exact conclude_turned h ht hready hrun (s.ending u).result
  | some f =>
    obtain ⟨ready, hrelease, -⟩ := s.release_eq
    have hsession : s.release.session = s.session.release := by rw [hrelease]
    have htasks : s.release.tasks = s.tasks := by rw [hrelease]
    have hstarted : s.release.started = s.started := by rw [hrelease]
    have hends : EndsIn s t (.failure f) s.release.session := by
      rw [hsession]
      refine ⟨rfl, rfl, rfl, rfl, ?_⟩
      simp
      rfl
    have hat : (s.release.finishTask place (.failure f)).TaskAt place
        { t with stage := .ended (.failure f) } := by
      refine (get_update_iff _).2 (Or.inl ⟨rfl, t, ?_, rfl⟩)
      rw [htasks]
      exact ht
    refine ⟨⟨h.ended ht hready hends s.release.world, ?_, ?_, Or.inl hstarted, ?_⟩, hstarted, hat⟩
    · intro p hp
      refine (get_update_of_ne _ hp).trans ?_
      rw [htasks]
    · intro run hcancelled
      change s.release.session.cancelled.contains run = true
      rw [hsession]
      exact hcancelled
    · refine .nothing _ hat (by simp) ?_
      change s.release.session.showing = _
      rw [hsession]
      rfl

end Ending

/-! ### Turns of a task -/

section Tasks

/-- A run that is admitted works, and may have come to the end of its work already, unless it was
cancelled before; then it does nothing and returns at once. -/
theorem enter_turned (h : (s.mark place).Sound) (ht : s.TaskAt place t) (hready : place ∉ s.ready)
    (hrun : t.run = u.run) :
    Turned s place (s.enter place u) ∧ (s.session.isCancelled t.run = true →
      (s.enter place u).started = s.started ∧
        (s.enter place u).TaskAt place { t with stage := .ended (.result .cancelledEarly) }) ∧
      (s.session.isCancelled t.run = false → place ∈ (s.enter place u).started ∧
        ∃ stage, (s.enter place u).TaskAt place { t with stage } ∧
          (stage = .working ∨ stage = .ended (.ofWork (s.ending u)))) := by
  have hsame : s.session.isCancelled t.run = s.session.isCancelled u.run := by rw [hrun]
  unfold enter
  rw [hsame]
  by_cases hcancelled : s.session.isCancelled u.run = true
  · rw [if_pos hcancelled]
    obtain ⟨hturned, hstarted, hat⟩ := conclude_turned h ht hready hrun .cancelledEarly
    exact ⟨hturned, fun _ => ⟨hstarted, hat⟩, fun hc => by rw [hcancelled] at hc; cases hc⟩
  rw [if_neg hcancelled]
  have hmark : (mark { s with
      started := s.started ++ [place]
      world := { s.world with disk := u.work.effect s.world.disk } } place).Sound := by
    refine { h with worked := ?_ }
    intro p hp
    rcases List.mem_append.1 hp with hp | hp
    · exact h.worked p hp
    · rw [List.mem_singleton] at hp
      subst hp
      exact ⟨_, mark_at_self ht, by simp, by simp⟩
  by_cases hcomplete : canComplete { s with
      started := s.started ++ [place]
      world := { s.world with disk := u.work.effect s.world.disk } } u = true
  · simp only [hcomplete, if_true]
    obtain ⟨hturned, hstarted, hat⟩ := complete_turned (u := u) hmark ht hready hrun
    refine ⟨{ hturned with started := Or.inr hstarted }, fun hc => absurd hc hcancelled,
      fun _ => ⟨?_, _, hat, Or.inr rfl⟩⟩
    rw [hstarted]
    exact List.mem_concat_self
  · simp only [hcomplete]
    refine ⟨⟨hmark, fun p hp => get_update_of_ne _ hp, fun _ hc => hc, Or.inr rfl, ?_⟩,
      fun hc => absurd hc hcancelled,
      fun _ => ⟨List.mem_concat_self, _, mark_at_self ht, Or.inl rfl⟩⟩
    exact .nothing { t with stage := .working } (mark_at_self ht) (by simp) rfl

/-- The run of the task at the place has begun and waits; the run before it is cancelled. -/
def begunAt (s : Schedule) (place : ℕ) : Schedule :=
  update { s with session := s.session.start } place fun t =>
    { t with run := s.session.start.begun, stage := .waiting }

/-- The task of the run. -/
theorem begunAt_self (ht : s.TaskAt place t) :
    (s.begunAt place).TaskAt place { t with run := s.session.start.begun, stage := .waiting } :=
  (get_update_iff _).2 (Or.inl ⟨rfl, t, ht, rfl⟩)

/-- A turn may begin with the beginning of a run, which shows nothing. -/
theorem Turned.begunAt (h : Turned (s.begunAt place) place s₂) : Turned s place s₂ :=
  h.after (fun _ hp => get_update_of_ne _ hp) (fun _ hc => Sound.isCancelled_cancel hc) rfl
    (showing_cancel s.session)

/-- The number of a run that begins is new, so that it is not cancelled. -/
theorem Sound.not_isCancelled_start (h : s.Sound) :
    s.session.start.isCancelled s.session.start.begun = false := by
  rw [Bool.eq_false_iff]
  intro hc
  rcases Sound.of_isCancelled_cancel hc with hold | heq
  · exact Nat.not_succ_le_self _ (h.begun _ hold)
  · exact Nat.succ_ne_self _ heq

/-- Nor is it the number of the run that is admitted. -/
theorem Sound.admitted_ne_begun (h : s.Sound) : s.session.admitted ≠ some s.session.start.begun := by
  intro hheld
  obtain ⟨p, u, hp, hu, hrun⟩ := h.held _ hheld
  have hle := (h.numbered p u hp (by simp [hu])).2
  rw [hrun] at hle
  exact absurd hle (Nat.not_succ_le_self _)

/-- A run that begins while the lock is free is admitted at once, and so its work is started. -/
theorem start_turned_of_isFree (h : s.Sound) (ht : s.TaskAt place t) (hstage : t.stage = .created)
    (hready : place ∉ s.ready) (hfree : s.session.isFree = true) :
    Turned s place (s.start place t) ∧ ∃ stage,
      (s.start place t).TaskAt place { t with run := s.session.start.begun, stage } ∧
        Comes s (s.start place t) place t stage := by
  have hbegin := h.afterBegin ht hstage hready
  unfold afterBegin at hbegin
  rw [if_pos hfree] at hbegin
  have hmark : ((s.begunAt place).mark place).Sound := by
    rw [mark, begunAt, update_update]
    exact hbegin
  have hadmitted : s.session.start.admitted = some s.session.start.begun := if_pos hfree
  have hstart : s.start place t =
      (s.begunAt place).wakeCancelled.enter place { t with run := s.session.start.begun } :=
    if_pos hadmitted
  -- The tasks that are woken wait for their cancellation, and the one that has just begun does not.
  obtain ⟨ready, hwake, hmem, hnodup⟩ := (s.begunAt place).wakeCancelled_eq
  have hother : ∀ {q u}, (s.begunAt place).TaskAt q u → u.awaitsCancellation = true → q ≠ place := by
    rintro q u hu hawaits rfl
    rw [Option.some.inj (hu.symm.trans (begunAt_self ht))] at hawaits
    cases hawaits
  have hplace : place ∉ ready := by
    intro hp
    rcases (hmem place).1 hp with hp | ⟨u, hu, hawaits, -⟩
    · exact hready hp
    · exact hother hu hawaits rfl
  have hsound : (mark { s.begunAt place with ready } place).Sound := by
    refine hmark.wake hnodup hmem ?_
    rintro q ⟨u, hu, hawaits, -⟩
    exact ⟨u, (mark_at_of_ne (hother hu hawaits)).2 hu, Sound.stage_of_awaitsCancellation hawaits⟩
  rw [hstart, hwake]
  obtain ⟨hturned, -, hworks⟩ :=
    enter_turned (u := { t with run := s.session.start.begun }) hsound (begunAt_self ht) hplace rfl
  obtain ⟨hstarted, stage, hat, hcomes⟩ := hworks h.not_isCancelled_start
  have hbegun : Turned (s.begunAt place) place _ :=
    hturned.after (fun _ _ => rfl) (fun _ hc => hc) rfl rfl
  exact ⟨hbegun.begunAt, stage, hat, .of_started hstarted hcomes⟩

/-- Else it waits, and no work is started. -/
theorem start_turned_of_not_isFree (h : s.Sound) (ht : s.TaskAt place t)
    (hstage : t.stage = .created) (hready : place ∉ s.ready) (hheld : ¬ s.session.isFree = true) :
    Turned s place (s.start place t) ∧ (s.start place t).started = s.started ∧
      (s.start place t).TaskAt place { t with run := s.session.start.begun, stage := .waiting } := by
  have hbegin := h.afterBegin ht hstage hready
  unfold afterBegin at hbegin
  rw [if_neg hheld] at hbegin
  have hsound : (s.begunAt place).Sound := hbegin
  have hadmitted : s.session.start.admitted = s.session.admitted := if_neg hheld
  have hstart : s.start place t = (s.begunAt place).wakeCancelled :=
    if_neg (hadmitted ▸ h.admitted_ne_begun)
  obtain ⟨ready, hwake, -, -⟩ := (s.begunAt place).wakeCancelled_eq
  have hturned : Turned (s.begunAt place) place (s.begunAt place).wakeCancelled := by
    rw [hwake]
    refine ⟨hwake ▸ hsound.wakeCancelled, fun _ _ => rfl, fun _ hc => hc, Or.inl rfl, ?_⟩
    exact .nothing _ (begunAt_self ht) (by simp) rfl
  refine ⟨hstart ▸ hturned.begunAt, ?_, ?_⟩
  · rw [hstart, hwake]
    rfl
  · rw [hstart, hwake]
    exact begunAt_self ht

/-- A run that begins is admitted if nobody is and nobody waits; the run before it is cancelled. -/
theorem start_turned (h : s.Sound) (ht : s.TaskAt place t) (hstage : t.stage = .created)
    (hready : place ∉ s.ready) :
    Turned s place (s.start place t) ∧
      (s.session.admitted ≠ none → (s.start place t).started = s.started) ∧
      ∃ stage, (s.start place t).TaskAt place { t with run := s.session.start.begun, stage } ∧
        Comes s (s.start place t) place t stage := by
  by_cases hfree : s.session.isFree = true
  · obtain ⟨hturned, stage, hat, hcomes⟩ := start_turned_of_isFree h ht hstage hready hfree
    refine ⟨hturned, fun hheld => ?_, stage, hat, hcomes⟩
    exact absurd (isFree_iff.1 hfree).1 hheld
  · obtain ⟨hturned, hstarted, hat⟩ := start_turned_of_not_isFree h ht hstage hready hfree
    exact ⟨hturned, fun _ => hstarted, _, hat, .waits⟩

/-- The task at the place takes a turn. -/
def turn (s : Schedule) (place : ℕ) : Schedule :=
  match s.tasks[place]? with
  | some t => proceed { s with ready := s.ready.erase place } place t
  | none => { s with ready := s.ready.erase place }

/-- A task that works already is counted among those that work. -/
theorem mark_eq_self (ht : s.TaskAt place t) (hstage : t.stage = .working) : s.mark place = s := by
  have htasks : (s.mark place).tasks = s.tasks := by
    refine List.ext_getElem? fun p => ?_
    by_cases hne : p = place
    · subst hne
      rw [show (s.mark p).tasks[p]? = _ from mark_at_self ht, show s.tasks[p]? = _ from ht, ← hstage]
    · rw [mark, get_update_of_ne _ hne]
  have hmark : s.mark place = { s with tasks := (s.mark place).tasks } := rfl
  rw [hmark, htasks]

/-- A task that waits has not started its work. -/
theorem Sound.not_mem_started (h : s.Sound) (ht : s.TaskAt place t) (hwaits : t.stage = .waiting) :
    place ∉ s.started := by
  intro hmem
  obtain ⟨u, hu, -, hnot⟩ := h.worked place hmem
  rw [← Option.some.inj (ht.symm.trans hu)] at hnot
  exact hnot hwaits

/-- What a turn does to the task that takes it, next to what any turn can do. -/
structure TurnOf (s s₁ : Schedule) (place : ℕ) (t : Task) : Prop where
  turned : Turned s place s₁
  /-- Work is started only while nobody is admitted. -/
  idles : s.session.admitted ≠ none → s₁.started = s.started
  /-- A run that was cancelled while it waited starts no work. -/
  early : t.stage = .waiting → s.session.isCancelled t.run = true →
    s₁.started = s.started ∧ ∃ v, s₁.TaskAt place v ∧ v.stage = .ended (.result .cancelledEarly)
  /-- A task that works must have been started before. -/
  comes : (t.stage = .working → place ∈ s.started) →
    ∃ v, s₁.TaskAt place v ∧ Keeps t v ∧ Comes s s₁ place t v.stage

/-- A task that has not begun begins its run. -/
theorem turnOf_created (h : s.Sound) (ht : s.TaskAt place t) (hstage : t.stage = .created) :
    TurnOf s (start { s with ready := s.ready.erase place } place t) place t := by
  have hoff : place ∉ s.ready.erase place := h.ready_once.not_mem_erase
  obtain ⟨hturned, hidles, stage, hat, hcomes⟩ :=
    start_turned (h.erase ht (by simp [hstage])) ht hstage hoff
  refine ⟨hturned.after (fun _ _ => rfl) (fun _ hc => hc) rfl rfl, hidles, ?_, fun _ => ?_⟩
  · intro hwaits
    rw [hstage] at hwaits
    cases hwaits
  · refine ⟨_, hat, ⟨rfl, ?_, fun _ => hcomes.ne_created, ?_⟩, hcomes.of_ready⟩
    · intro hbegun
      exact absurd hstage hbegun
    · simp [Task.hasEnded, hstage]

/-- A task that works goes on because its work has come to its end. -/
theorem turnOf_working (h : s.Sound) (ht : s.TaskAt place t) (hstage : t.stage = .working) :
    TurnOf s (complete { s with ready := s.ready.erase place } place t) place t := by
  have hoff : place ∉ s.ready.erase place := h.ready_once.not_mem_erase
  have hmark : (mark { s with ready := s.ready.erase place } place).Sound := by
    have hself : mark { s with ready := s.ready.erase place } place =
        { s with ready := s.ready.erase place } := mark_eq_self ht hstage
    rw [hself]
    exact h.erase ht (by simp [hstage])
  obtain ⟨hturned, hstarted, hat⟩ := complete_turned (u := t) hmark ht hoff rfl
  refine ⟨hturned.after (fun _ _ => rfl) (fun _ hc => hc) rfl rfl, fun _ => hstarted, ?_,
    fun hin => ⟨_, hat, ⟨rfl, fun _ => rfl, by simp, by simp [Task.hasEnded, hstage]⟩, ?_⟩⟩
  · intro hwaits
    rw [hstage] at hwaits
    cases hwaits
  · have hmem : place ∈ (complete { s with ready := s.ready.erase place } place t).started := by
      rw [hstarted]
      exact hin hstage
    exact .of_started hmem (Or.inr rfl)

/-- A task that waits goes on because its run has been called. -/
theorem turnOf_waiting (h : s.Sound) (ht : s.TaskAt place t) (hstage : t.stage = .waiting)
    (hhead : s.session.waiting.head? = some t.run) (hnone : s.session.admitted = none) :
    TurnOf s (enter { s with
      session := s.session.admitNext
      ready := s.ready.erase place } place t) place t := by
  have hoff : place ∉ s.ready.erase place := h.ready_once.not_mem_erase
  obtain ⟨hturned, hearly, hworks⟩ :=
    enter_turned (u := t) (h.letIn ht hstage hhead hnone) ht hoff rfl
  refine ⟨hturned.after (fun _ _ => rfl) (fun _ hc => hc) rfl rfl, fun hheld => absurd hnone hheld,
    fun _ hc => ⟨(hearly hc).1, _, (hearly hc).2, rfl⟩, fun _ => ?_⟩
  cases hc : s.session.isCancelled t.run with
  | true =>
    obtain ⟨hstarted, hat⟩ := hearly hc
    have hnot : place ∉ (enter { s with
        session := s.session.admitNext
        ready := s.ready.erase place } place t).started := by
      rw [hstarted]
      exact h.not_mem_started ht hstage
    exact ⟨_, hat, ⟨rfl, fun _ => rfl, by simp, by simp [Task.hasEnded, hstage]⟩,
      .ends (.early hstage hc hnot)⟩
  | false =>
    obtain ⟨hmem, stage, hat, hcame⟩ := hworks hc
    have hcomes : Comes s _ place t stage := .of_started hmem hcame
    exact ⟨_, hat, ⟨rfl, fun _ => rfl, fun _ => hcomes.ne_created, by simp [Task.hasEnded, hstage]⟩,
      hcomes⟩

/-- Whichever task takes a turn, it is a turn as described. -/
theorem turn_turned (h : s.Sound) (hplace : place ∈ s.ready) (ht : s.TaskAt place t) :
    TurnOf s (s.turn place) place t := by
  have hkept := h.kept place t ht
  obtain ⟨u, hu, hgo⟩ := h.ready place hplace
  obtain rfl : t = u := Option.some.inj (ht.symm.trans hu)
  have hturn : s.turn place = proceed { s with ready := s.ready.erase place } place t := by
    unfold turn
    rw [show s.tasks[place]? = some t from ht]
  rw [hturn]
  unfold proceed
  rcases hgo with hgo | hgo | ⟨hgo, hhead, hnone⟩
  · simp only [hgo, hkept]
    exact turnOf_created h ht hgo
  · simp only [hgo, hkept]
    exact turnOf_working h ht hgo
  · simp only [hgo, hkept]
    exact turnOf_waiting h ht hgo hhead hnone

end Tasks

end Schedule

end JitInspect
