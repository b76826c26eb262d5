import JitInspect.Proofs.Session.Turns

/-!
# Interleavings

The runs of a session may be asked for, cancelled and told to finish at any moment, and the tasks
that can go on may take their turns in any order. `Schedule.Reaches` relates a schedule to those that
it can come to, with the outputs that were shown on the way: the output of a result is shown when the
latest run returns it.

However the events are interleaved, the session serves its latest run (`session_serves_latest`): runs
do their work one at a time, the others are cancelled, each returns what its own work has come to, and
what is seen comes from the latest run alone. The order in which the program itself lets tasks go on
is one of these interleavings (`Schedule.reaches_settle`).
-/

namespace JitInspect

/-- What can happen to a schedule. -/
inductive Event where
  /-- A run with the given work is asked for. -/
  | ask (w : Work)
  /-- The latest run is cancelled. -/
  | cancel
  /-- The work of a name is told to finish. -/
  | finish (name : Text) (c : WorkChange)
  /-- The task at the place takes a turn. -/
  | turn (place : ℕ)

namespace Schedule

variable {s s₁ s₂ : Schedule} {e : Event}

/-! ### Events -/

section Events

/-- The schedule after an event. -/
def after (s : Schedule) : Event → Schedule
  | .ask w => s.add w
  | .cancel => s.cancel
  | .finish name c => s.finish name c
  | .turn place => s.turn place

/-- Only a task that can go on takes a turn. -/
def Allows (s : Schedule) : Event → Prop
  | .turn place => place ∈ s.ready
  | _ => True

/-- Between the two schedules the latest run has returned the result. -/
def Returns (s s₁ : Schedule) (r : RunResult) : Prop :=
  ∃ p t t₁, s.TaskAt p t ∧ t.hasEnded = false ∧ s₁.TaskAt p t₁ ∧ t₁.stage = .ended (.result r) ∧
    t₁.run = s₁.session.begun

/-- The schedules that the first one can come to. The list holds the outputs of the results that the
latest run has returned on the way, last first. -/
inductive Reaches (s : Schedule) : List Text → Schedule → Prop where
  | refl : Reaches s [] s
  | shows {shown : List Text} {s₁ : Schedule} {e : Event} {r : RunResult} (h : Reaches s shown s₁)
      (hallows : s₁.Allows e) (hreturns : s₁.Returns (s₁.after e) r) :
      Reaches s (r.output :: shown) (s₁.after e)
  | silent {shown : List Text} {s₁ : Schedule} {e : Event} (h : Reaches s shown s₁)
      (hallows : s₁.Allows e) (hsilent : ∀ r, ¬ s₁.Returns (s₁.after e) r) :
      Reaches s shown (s₁.after e)

/-- Every event that is allowed leads on. -/
theorem Reaches.next {shown : List Text} (h : Reaches s shown s₁) (hallows : s₁.Allows e) :
    ∃ shown₁, Reaches s shown₁ (s₁.after e) := by
  by_cases hreturns : ∃ r, s₁.Returns (s₁.after e) r
  · obtain ⟨r, hr⟩ := hreturns
    exact ⟨_, h.shows hallows hr⟩
  · exact ⟨_, h.silent hallows fun r hr => hreturns ⟨r, hr⟩⟩

end Events

/-! ### What an event does -/

section Steps

/-- What happens from outside changes no task, starts no work and shows nothing. -/
structure Outside (s s₁ : Schedule) : Prop where
  sound : s₁.Sound
  kept : ∀ {p t}, s.TaskAt p t → s₁.TaskAt p t
  /-- A task that has just been asked for has not begun. -/
  new : ∀ {p t}, s₁.TaskAt p t → t.stage ≠ .created → s.TaskAt p t
  cancelled : ∀ {run}, s.session.isCancelled run = true → s₁.session.isCancelled run = true
  started : s₁.started = s.started
  showing : s₁.session.showing = s.session.showing

/-- Every event but a turn comes from outside. -/
theorem Sound.outside (h : s.Sound) (hturn : ∀ place, e ≠ .turn place) : Outside s (s.after e) := by
  cases e with
  | ask w =>
    exact ⟨h.add w, fun hp => get_add_iff.2 (Or.inl hp), fun hp ht => at_of_add hp ht, id, rfl, rfl⟩
  | cancel =>
    refine ⟨h.cancel, ?_, ?_, ?_, ?_, ?_⟩
    all_goals
      obtain ⟨ready, heq, -⟩ := wakeCancelled_eq { s with session := s.session.cancel }
      simp only [Schedule.after, Schedule.cancel, heq]
    · exact id
    · exact fun hp _ => hp
    · exact Sound.isCancelled_cancel
    · exact showing_cancel s.session
  | finish name c =>
    refine ⟨h.finish name c, ?_, ?_, ?_, ?_, ?_⟩
    all_goals
      obtain ⟨ready, heq, -⟩ := foldl_enqueue
        (places { s with finishes := (name, c) :: s.finishes } fun t =>
          t.work.name = name && t.awaitsFinish)
        { s with finishes := (name, c) :: s.finishes }
      simp only [Schedule.after, Schedule.finish, heq]
    · exact id
    · exact fun hp _ => hp
    · exact id
  | turn place => exact absurd rfl (hturn place)

/-- An event comes from outside or is a turn of a task that has not ended. -/
theorem Sound.after_cases (h : s.Sound) (hallows : s.Allows e) :
    Outside s (s.after e) ∨
      ∃ place t, e = .turn place ∧ place ∈ s.ready ∧ s.TaskAt place t ∧ t.hasEnded = false := by
  by_cases hturn : ∃ place, e = .turn place
  · obtain ⟨place, rfl⟩ := hturn
    obtain ⟨t, ht, hgo⟩ := h.ready place hallows
    refine Or.inr ⟨place, t, rfl, hallows, ht, ?_⟩
    rcases hgo with hgo | hgo | ⟨hgo, -⟩ <;> simp [Task.hasEnded, hgo]
  · exact Or.inl (h.outside fun place he => hturn ⟨place, he⟩)

/-- Whatever happens next, the session stays sound. -/
theorem Sound.after (h : s.Sound) (hallows : s.Allows e) : (s.after e).Sound := by
  rcases h.after_cases hallows with hout | ⟨place, t, rfl, hplace, ht, -⟩
  · exact hout.sound
  · exact (turn_turned h hplace ht).turned.sound

/-- Every schedule that is reached is sound. -/
theorem Reaches.sound {shown : List Text} (hreaches : Reaches s shown s₁) (h : s.Sound) :
    s₁.Sound := by
  induction hreaches with
  | refl => exact h
  | shows _ hallows _ ih => exact ih.after hallows
  | silent _ hallows _ ih => exact ih.after hallows

/-- Work is started only while nobody works. -/
theorem Sound.idle_of_started (h : s.Sound) (hallows : s.Allows e)
    (hstarted : (s.after e).started ≠ s.started) {p : ℕ} {t : Task} (hp : s.TaskAt p t) :
    t.stage ≠ .working := by
  rcases h.after_cases hallows with hout | ⟨place, u, rfl, hplace, hu, -⟩
  · exact absurd hout.started hstarted
  · intro ht
    refine hstarted ((turn_turned h hplace hu).idles ?_)
    rw [h.holder p t hp ht]
    simp

/-- Nothing ends through what happens from outside. -/
theorem Outside.not_ends (hout : Outside s s₁) {p : ℕ} {t t₁ : Task} {x : TaskEnd}
    (hp : s.TaskAt p t) (hgoes : t.hasEnded = false) (hp₁ : s₁.TaskAt p t₁) :
    t₁.stage ≠ .ended x := by
  intro hends
  rw [Option.some.inj ((hout.kept hp).symm.trans hp₁)] at hgoes
  simp [Task.hasEnded, hends] at hgoes

/-- Only the task that takes the turn can end in it. -/
theorem Turned.place_of_ends {place : ℕ} (hturned : Turned s place s₁) {p : ℕ} {t t₁ : Task}
    {x : TaskEnd} (hp : s.TaskAt p t) (hgoes : t.hasEnded = false) (hp₁ : s₁.TaskAt p t₁)
    (hends : t₁.stage = .ended x) : p = place := by
  by_contra hne
  have hbefore : s.TaskAt p t₁ := (hturned.others p hne).symm.trans hp₁
  rw [Option.some.inj (hp.symm.trans hbefore)] at hgoes
  simp [Task.hasEnded, hends] at hgoes

/-- What is seen changes if the latest run returns a result, and then it is that result. -/
theorem Sound.showing_after (h : s.Sound) (hallows : s.Allows e) :
    (∀ r, s.Returns (s.after e) r → (s.after e).session.showing = s.session.showingWith r) ∧
      ((∀ r, ¬ s.Returns (s.after e) r) → (s.after e).session.showing = s.session.showing) := by
  rcases h.after_cases hallows with hout | ⟨place, t, rfl, hplace, ht, hgoes⟩
  · refine ⟨?_, fun _ => hout.showing⟩
    rintro r ⟨p, t, t₁, hp, hgoes, hp₁, hstage, -⟩
    exact absurd hstage (hout.not_ends hp hgoes hp₁)
  have hturned := (turn_turned h hplace ht).turned
  cases hturned.shows with
  | nothing u hat hstage hshowing =>
    refine ⟨?_, fun _ => hshowing⟩
    rintro r ⟨p, v, v₁, hp, hends, hp₁, hr, -⟩
    obtain rfl := hturned.place_of_ends hp hends hp₁ hr
    rw [Option.some.inj (hp₁.symm.trans hat)] at hr
    exact absurd hr (hstage r)
  | result u r hat hstage hshowing =>
    constructor
    · rintro r₁ ⟨p, v, v₁, hp, hends, hp₁, hr, hlatest⟩
      obtain rfl := hturned.place_of_ends hp hends hp₁ hr
      rw [Option.some.inj (hp₁.symm.trans hat)] at hr hlatest
      rw [hstage] at hr
      cases hr
      exact hshowing.trans (if_pos hlatest)
    · intro hnone
      refine hshowing.trans (if_neg fun hlatest => ?_)
      exact hnone r ⟨place, t, u, ht, hgoes, hat, hstage, hlatest⟩

/-- The run of the task has been cancelled while it waited, and does no work. -/
def Idles (s : Schedule) (place : ℕ) : Prop :=
  place ∉ s.started ∧ ∃ t, s.TaskAt place t ∧
    (t.stage = .waiting ∧ s.session.isCancelled t.run = true ∨
      t.stage = .ended (.result .cancelledEarly))

/-- A run that is cancelled while it waits does no work later on. -/
theorem Idles.after (h : s.Sound) {place : ℕ} (hidles : s.Idles place) (hallows : s.Allows e) :
    (s.after e).Idles place := by
  obtain ⟨hnot, t, ht, hstage⟩ := hidles
  rcases h.after_cases hallows with hout | ⟨p, u, rfl, hp, hu, -⟩
  · refine ⟨by rwa [hout.started], t, hout.kept ht, ?_⟩
    rcases hstage with ⟨hwaits, hc⟩ | hends
    · exact Or.inl ⟨hwaits, hout.cancelled hc⟩
    · exact Or.inr hends
  obtain ⟨hturned, -, hearly, -⟩ := turn_turned h hp hu
  by_cases hne : place = p
  · -- It is the turn of the run itself: it returns at once, as it can go on only while it waits.
    subst hne
    obtain rfl : t = u := Option.some.inj (ht.symm.trans hu)
    rcases hstage with ⟨hwaits, hc⟩ | hends
    · obtain ⟨hstarted, v, hv, hvends⟩ := hearly hwaits hc
      refine ⟨?_, v, hv, Or.inr hvends⟩
      change place ∉ (s.turn place).started
      rwa [hstarted]
    · obtain ⟨v, hv, hgo⟩ := h.ready place hp
      rw [← Option.some.inj (ht.symm.trans hv), CanGo, hends] at hgo
      simp at hgo
  · refine ⟨?_, t, (hturned.others place hne).trans ht, ?_⟩
    · change place ∉ (s.turn p).started
      rcases hturned.started with hstarted | hstarted <;> rw [hstarted]
      · exact hnot
      · simp [hnot, hne]
    · rcases hstage with ⟨hwaits, hc⟩ | hends
      · exact Or.inl ⟨hwaits, hturned.cancelled _ hc⟩
      · exact Or.inr hends

/-- A task that must stay idle does. -/
theorem Reaches.idles {shown : List Text} (hreaches : Reaches s shown s₁) (h : s.Sound) {place : ℕ}
    (hidles : s.Idles place) : s₁.Idles place := by
  induction hreaches with
  | refl => exact hidles
  | shows hbefore hallows _ ih => exact ih.after (hbefore.sound h) hallows
  | silent hbefore hallows _ ih => exact ih.after (hbefore.sound h) hallows

/-- The work of whoever works has been started. -/
def WorksStarted (s : Schedule) : Prop := ∀ p t, s.TaskAt p t → t.stage = .working → p ∈ s.started

/-- At the beginning there is no task. -/
theorem WorksStarted.initial (w : World) : WorksStarted { world := w } := by
  intro p t hp
  simp [TaskAt] at hp

/-- It stays so through every event. -/
theorem WorksStarted.after (h : s.Sound) (hworks : s.WorksStarted) (hallows : s.Allows e) :
    (s.after e).WorksStarted := by
  intro p t hp hstage
  rcases h.after_cases hallows with hout | ⟨place, u, rfl, hplace, hu, -⟩
  · rw [hout.started]
    exact hworks p t (hout.new hp (by simp [hstage])) hstage
  obtain ⟨hturned, -, -, hcomes⟩ := turn_turned h hplace hu
  by_cases hne : p = place
  · subst hne
    obtain ⟨v, hv, -, hcame⟩ := hcomes (hworks p u hu)
    rw [← Option.some.inj (hp.symm.trans hv), hstage] at hcame
    cases hcame with
    | works hstarted => exact hstarted
  · have hmem := hworks p t ((hturned.others p hne).symm.trans hp) hstage
    change p ∈ (s.turn place).started
    rcases hturned.started with hstarted | hstarted <;> rw [hstarted]
    · exact hmem
    · exact List.mem_append_left _ hmem

/-- At every moment the work of a task that works has been started. -/
theorem Reaches.worksStarted {shown : List Text} (hreaches : Reaches s shown s₁) (h : s.Sound)
    (hworks : s.WorksStarted) : s₁.WorksStarted := by
  induction hreaches with
  | refl => exact hworks
  | shows hbefore hallows _ ih => exact ih.after (hbefore.sound h) hallows
  | silent hbefore hallows _ ih => exact ih.after (hbefore.sound h) hallows

/-- A task that ends in an event has done its own work and ends as that does, unless it was cancelled
while it waited. -/
theorem WorksStarted.endsAs (h : s.Sound) (hworks : s.WorksStarted) (hallows : s.Allows e) {p : ℕ}
    {t t₁ : Task} {x : TaskEnd} (hp : s.TaskAt p t) (hgoes : t.hasEnded = false)
    (hp₁ : (s.after e).TaskAt p t₁) (hends : t₁.stage = .ended x) : EndsAs s (s.after e) p t x := by
  rcases h.after_cases hallows with hout | ⟨place, u, rfl, hplace, hu, -⟩
  · exact absurd hends (hout.not_ends hp hgoes hp₁)
  obtain ⟨hturned, -, -, hcomes⟩ := turn_turned h hplace hu
  obtain rfl := hturned.place_of_ends hp hgoes hp₁ hends
  obtain rfl : t = u := Option.some.inj (hp.symm.trans hu)
  obtain ⟨v, hv, -, hcame⟩ := hcomes (hworks p t hp)
  rw [← Option.some.inj (hp₁.symm.trans hv), hends] at hcame
  cases hcame with
  | ends hends => exact hends

/-- What a task keeps in an event. -/
theorem WorksStarted.keeps (h : s.Sound) (hworks : s.WorksStarted) (hallows : s.Allows e) {p : ℕ}
    {t : Task} (hp : s.TaskAt p t) : ∃ t₁, (s.after e).TaskAt p t₁ ∧ Keeps t t₁ := by
  rcases h.after_cases hallows with hout | ⟨place, u, rfl, hplace, hu, -⟩
  · exact ⟨t, hout.kept hp, .refl t⟩
  obtain ⟨hturned, -, -, hcomes⟩ := turn_turned h hplace hu
  by_cases hne : p = place
  · subst hne
    obtain rfl : t = u := Option.some.inj (hp.symm.trans hu)
    obtain ⟨v, hv, hkeeps, -⟩ := hcomes (hworks p t hp)
    exact ⟨v, hv, hkeeps⟩
  · exact ⟨t, (hturned.others p hne).trans hp, .refl t⟩

/-- A task keeps its work, its number and its end. -/
theorem Reaches.keeps {shown : List Text} (hreaches : Reaches s shown s₁) (h : s.Sound)
    (hworks : s.WorksStarted) {p : ℕ} {t : Task} (hp : s.TaskAt p t) :
    ∃ t₁, s₁.TaskAt p t₁ ∧ Keeps t t₁ := by
  induction hreaches with
  | refl => exact ⟨t, hp, .refl t⟩
  | shows hbefore hallows _ ih =>
    obtain ⟨v, hv, hkeeps⟩ := ih
    obtain ⟨t₁, ht₁, hnext⟩ := (hbefore.worksStarted h hworks).keeps (hbefore.sound h) hallows hv
    exact ⟨t₁, ht₁, hkeeps.trans hnext⟩
  | silent hbefore hallows _ ih =>
    obtain ⟨v, hv, hkeeps⟩ := ih
    obtain ⟨t₁, ht₁, hnext⟩ := (hbefore.worksStarted h hworks).keeps (hbefore.sound h) hallows hv
    exact ⟨t₁, ht₁, hkeeps.trans hnext⟩

/-- When nothing can go on and nobody works, nobody waits either. -/
theorem Sound.not_waiting (h : s.Sound) (hready : s.ready = [])
    (hnobody : ∀ p t, s.TaskAt p t → t.stage ≠ .working) {p : ℕ} {t : Task} (hp : s.TaskAt p t) :
    t.stage ≠ .waiting := by
  intro hwaits
  have hnone : s.session.admitted = none := by
    by_contra hsome
    obtain ⟨run, hrun⟩ := Option.ne_none_iff_exists'.1 hsome
    obtain ⟨q, u, hq, hu, -⟩ := h.held run hrun
    exact hnobody q u hq hu
  have hmem := (h.queued t.run).2 ⟨p, t, hp, hwaits, rfl⟩
  obtain ⟨first, rest, hfirst⟩ := List.exists_cons_of_ne_nil (List.ne_nil_of_mem hmem)
  obtain ⟨q, u, hq, hu, hrun⟩ := (h.queued first).1 (by simp [hfirst])
  have hcalled := h.called hnone q u hq hu (by rw [hfirst, hrun]; rfl)
  rw [hready] at hcalled
  cases hcalled

/-- What is seen is the last output that was shown, with the last one before it that is not blank. -/
theorem Reaches.showing {shown : List Text} {w : World}
    (hreaches : Reaches { world := w } shown s) :
    s.session.output = shown.headD [] ∧
      s.session.previousOutput = (shown.tail.find? fun o => !Text.blank o).getD [] := by
  induction hreaches with
  | refl => exact ⟨rfl, rfl⟩
  | silent hbefore hallows hsilent ih =>
    have hsame := ((hbefore.sound (.initial w)).showing_after hallows).2 hsilent
    simp only [Session.showing, Prod.mk.injEq] at hsame
    rw [hsame.1, hsame.2.1]
    exact ih
  | shows hbefore hallows hreturns ih =>
    rename_i shown s₁ e r
    have hnew := ((hbefore.sound (.initial w)).showing_after hallows).1 r hreturns
    simp only [Session.showing, Session.showingWith, Prod.mk.injEq] at hnew
    refine ⟨hnew.1, ?_⟩
    rw [hnew.2.1, ih.1, ih.2]
    cases shown with
    | nil => rfl
    | cons o rest =>
      change (if Text.blank o = true then _ else o) = ((o :: rest).find? _).getD []
      rw [List.find?_cons]
      cases hblank : Text.blank o with
      | true => rfl
      | false => rfl

end Steps

/-! ### The latest run is served -/

section Serving

/-- The session serves its latest run; the list holds the outputs that were shown, last first. -/
structure ServesLatest (s : Schedule) (shown : List Text) : Prop where
  /-- No two tasks work at once, -/
  oneWorks : ∀ p q t u, s.TaskAt p t → s.TaskAt q u → t.stage = .working → u.stage = .working →
    p = q
  /-- and work is started only while nobody works. -/
  startsAlone : ∀ e, s.Allows e → (s.after e).started ≠ s.started →
    ∀ p t, s.TaskAt p t → t.stage ≠ .working
  /-- A run that has begun and not ended is cancelled unless it is the latest. -/
  superseded : ∀ p t, s.TaskAt p t → t.stage ≠ .created → t.hasEnded = false →
    t.run ≠ s.session.begun → s.session.isCancelled t.run = true
  /-- A run that is cancelled while it waits never works, whatever happens; it can only return that
  it was cancelled. -/
  idles : ∀ p t, s.TaskAt p t → t.stage = .waiting → s.session.isCancelled t.run = true →
    ∀ later s₁, s.Reaches later s₁ → p ∉ s₁.started ∧
      ∃ t₁, s₁.TaskAt p t₁ ∧ (t₁.stage = .waiting ∨ t₁.stage = .ended (.result .cancelledEarly))
  /-- Nobody waits for ever: when nothing can go on and nobody works, nobody waits. -/
  admitsAll : s.ready = [] → (∀ p t, s.TaskAt p t → t.stage ≠ .working) →
    ∀ p t, s.TaskAt p t → t.stage ≠ .waiting
  /-- Whatever happens, a task keeps its work, and the number of its run once that has begun; when it
  has ended, it stays as it is. -/
  keeps : ∀ p t, s.TaskAt p t → ∀ later s₁, s.Reaches later s₁ → ∃ t₁, s₁.TaskAt p t₁ ∧ Keeps t t₁
  /-- A task that ends has done its own work and returns the result of that or fails as that does,
  unless its run was cancelled while it waited; then it has done none and returns just that. -/
  endsAsWorked : ∀ e, s.Allows e → ∀ p t t₁ x, s.TaskAt p t → t.hasEnded = false →
    (s.after e).TaskAt p t₁ → t₁.stage = .ended x → EndsAs s (s.after e) p t x
  /-- The result that the latest run returns is shown, -/
  showsResult : ∀ e r, s.Allows e → s.Returns (s.after e) r →
    (s.after e).session.output = r.output ∧ (s.after e).session.lastResult = some r
  /-- and nothing else changes what is seen. -/
  showsNothingElse : ∀ e, s.Allows e → (∀ r, ¬ s.Returns (s.after e) r) →
    (s.after e).session.output = s.session.output ∧
      (s.after e).session.lastResult = s.session.lastResult ∧
      (s.after e).session.previousOutput = s.session.previousOutput
  /-- What is seen is the last output that was shown, -/
  output : s.session.output = shown.headD []
  /-- and the last one before it that is not blank. -/
  previousOutput :
    s.session.previousOutput = (shown.tail.find? fun o => !Text.blank o).getD []
  /-- The session is running until the latest run returns. -/
  running : s.session.isRunning = true ↔ ∃ p t, s.TaskAt p t ∧ 0 < t.run ∧
    t.run = s.session.begun ∧ ∀ r, t.stage ≠ .ended (.result r)

/-- A session is running as long as its latest run has not returned. -/
theorem Sound.isRunning_iff (h : s.Sound) :
    s.session.isRunning = true ↔ ∃ p t, s.TaskAt p t ∧ 0 < t.run ∧ t.run = s.session.begun ∧
      ∀ r, t.stage ≠ .ended (.result r) := by
  rw [h.running]
  constructor
  · rintro ⟨hbegun, hlatest⟩
    obtain ⟨p, t, hp, hrun⟩ := h.latest hbegun
    exact ⟨p, t, hp, hrun ▸ hbegun, hrun, fun r => hlatest p t r hp hrun⟩
  · rintro ⟨p, t, hp, hpos, hrun, hstage⟩
    refine ⟨hrun ▸ hpos, fun q u r hq hu hr => ?_⟩
    obtain rfl := h.distinct p q t u hp hq hpos (hrun.trans hu.symm)
    rw [← Option.some.inj (hp.symm.trans hq)] at hr
    exact hstage r hr

/-- However its runs are asked for, cancelled and finished, and in whichever order its tasks take
their turns, a session serves its latest run. -/
theorem session_serves_latest (w : World) {shown : List Text}
    (hreaches : Reaches { world := w } shown s) : s.ServesLatest shown := by
  have hsound : s.Sound := hreaches.sound (.initial w)
  have hworks : s.WorksStarted := hreaches.worksStarted (.initial w) (.initial w)
  obtain ⟨houtput, hprevious⟩ := hreaches.showing
  constructor
  case oneWorks => exact fun p q t u hp hq ht hu => hsound.working_unique hp hq ht hu
  case startsAlone => exact fun e hallows hstarted p t hp => hsound.idle_of_started hallows hstarted hp
  case superseded =>
    intro p t hp hbegun hends hrun
    refine hsound.superseded p t hp ?_ hrun
    cases hstage : t.stage with
    | created => exact absurd hstage hbegun
    | waiting => exact Or.inl rfl
    | working => exact Or.inr rfl
    | ended e => simp [Task.hasEnded, hstage] at hends
  case idles =>
    intro p t hp hwaits hcancelled later s₁ hlater
    have hidles : s.Idles p := ⟨hsound.not_mem_started hp hwaits, t, hp, Or.inl ⟨hwaits, hcancelled⟩⟩
    obtain ⟨hnot, t₁, ht₁, hstage⟩ := hlater.idles hsound hidles
    exact ⟨hnot, t₁, ht₁, hstage.imp And.left id⟩
  case admitsAll => exact fun hready hnobody p t hp => hsound.not_waiting hready hnobody hp
  case keeps => exact fun p t hp later s₁ hlater => hlater.keeps hsound hworks hp
  case endsAsWorked =>
    exact fun e hallows p t t₁ x hp hgoes hp₁ hends => hworks.endsAs hsound hallows hp hgoes hp₁ hends
  case showsResult =>
    intro e r hallows hreturns
    have hnew := (hsound.showing_after hallows).1 r hreturns
    simp only [Session.showing, Session.showingWith, Prod.mk.injEq] at hnew
    exact ⟨hnew.1, hnew.2.2⟩
  case showsNothingElse =>
    intro e hallows hsilent
    have hsame := (hsound.showing_after hallows).2 hsilent
    simp only [Session.showing, Prod.mk.injEq] at hsame
    exact ⟨hsame.1, hsame.2.2, hsame.2.1⟩
  case output => exact houtput
  case previousOutput => exact hprevious
  case running => exact hsound.isRunning_iff

/-- What happens from outside shows nothing. -/
theorem Reaches.outside {shown : List Text} {w : World} (h : Reaches { world := w } shown s)
    (hturn : ∀ place, e ≠ .turn place) (hallows : s.Allows e) :
    Reaches { world := w } shown (s.after e) := by
  refine h.silent hallows ?_
  rintro r ⟨p, t, t₁, hp, hgoes, hp₁, hends, -⟩
  exact absurd hends (((h.sound (.initial w)).outside hturn).not_ends hp hgoes hp₁)

/-- Nor does a turn in which the task does not return as the latest run. -/
theorem Reaches.turn_silent {shown : List Text} {w : World} (h : Reaches { world := w } shown s)
    (place : ℕ) {t : Task} (hplace : place ∈ s.ready) (hat : (s.turn place).TaskAt place t)
    (hnot : ∀ r, t.stage = .ended (.result r) → t.run ≠ (s.turn place).session.begun) :
    Reaches { world := w } shown (s.turn place) := by
  refine h.silent (e := .turn place) hplace ?_
  rintro r ⟨p, u, u₁, hp, hgoes, hp₁, hends, hlatest⟩
  have hsound := h.sound (.initial w)
  obtain ⟨v, hv, -⟩ := hsound.ready place hplace
  obtain rfl := (turn_turned hsound hplace hv).turned.place_of_ends hp hgoes hp₁ hends
  rw [Option.some.inj (hp₁.symm.trans hat)] at hends hlatest
  exact hnot r hends hlatest

/-- A turn in which it does shows the result. -/
theorem Reaches.turn_shows {shown : List Text} {w : World} (h : Reaches { world := w } shown s)
    (place : ℕ) {t t₁ : Task} {r : RunResult} (hplace : place ∈ s.ready) (ht : s.TaskAt place t)
    (hgoes : t.hasEnded = false) (hat : (s.turn place).TaskAt place t₁)
    (hends : t₁.stage = .ended (.result r)) (hlatest : t₁.run = (s.turn place).session.begun) :
    Reaches { world := w } (r.output :: shown) (s.turn place) :=
  h.shows (e := .turn place) hplace ⟨place, t, t₁, ht, hgoes, hat, hends, hlatest⟩

/-- The second run waits for the first one, which it has cancelled and which returns in silence; the
results of the second and of a third one are shown. -/
theorem session_serves_latest_of_two :
    ∃ s, Reaches { world := { disk := { tree := .empty, cwd := [] } } } ["three", "two"] s ∧
      s.session.cancelled = [1] ∧ s.session.output = "three" ∧
      s.session.previousOutput = "two" ∧ s.ServesLatest ["three", "two"] := by
  have h₀ := Reaches.refl (s := { world := { disk := { tree := .empty, cwd := [] } } })
  have h₁ := h₀.outside (e := .ask { name := "first", wait := .finish, ending := { output := "one" } })
    (by simp) trivial
  have h₂ := h₁.turn_silent 0 (by decide) rfl (by simp)
  have h₃ := h₂.outside (e := .ask { name := "second", wait := .finish, ending := { output := "two" } })
    (by simp) trivial
  have h₄ := h₃.turn_silent 1 (by decide) rfl (by simp)
  have h₅ := h₄.outside (e := .finish "first" {}) (by simp) trivial
  have h₆ := h₅.turn_silent 0 (by decide) rfl (fun _ _ => by decide)
  have h₇ := h₆.turn_silent 1 (by decide) rfl (by simp)
  have h₈ := h₇.outside (e := .finish "second" {}) (by simp) trivial
  have h₉ := h₈.turn_shows 1 (by decide) rfl rfl rfl rfl rfl
  have h₁₀ := h₉.outside (e := .ask { name := "third", ending := { output := "three" } })
    (by simp) trivial
  have h₁₁ := h₁₀.turn_shows 2 (by decide) rfl rfl rfl rfl rfl
  exact ⟨_, h₁₁, rfl, rfl, rfl, session_serves_latest _ h₁₁⟩

end Serving

/-! ### The program's own order -/

section Settling

/-- Letting the first task that can go on take its turn, time after time, is an interleaving. -/
theorem Reaches.settleWithin (n : ℕ) {shown : List Text} (h : Reaches s shown s₁) :
    ∃ shown₁, Reaches s shown₁ (s₁.settleWithin n) := by
  induction n generalizing shown s₁ with
  | zero => exact ⟨shown, h⟩
  | succ n ih =>
    unfold Schedule.settleWithin
    cases hready : s₁.ready with
    | nil => exact ⟨shown, h⟩
    | cons place ready =>
      obtain ⟨shown₁, h₁⟩ := h.next (e := .turn place) (by simp [Allows, hready])
      have hoff : s₁.ready.erase place = ready := by rw [hready, List.erase_cons_head]
      simp only [Schedule.after, turn, hoff] at h₁
      cases htask : s₁.tasks[place]? with
      | none =>
        simp only [htask] at h₁ ⊢
        exact ih h₁
      | some t =>
        simp only [htask] at h₁ ⊢
        exact ih h₁

/-- So is the order in which the program itself lets tasks go on. -/
theorem reaches_settle (s : Schedule) : ∃ shown, Reaches s shown s.settle :=
  Reaches.refl.settleWithin _

end Settling

end Schedule

end JitInspect
