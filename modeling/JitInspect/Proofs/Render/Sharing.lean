import JitInspect.Proofs.Render.Soundness

/-!
# Drawings and requests over time

What a turn does to one drawing and to one part of a request. A drawing keeps its place and its
file; only its start and the end of its call change it (`Rendering.Stepped`). A part that waits for
a drawing keeps waiting until the call for that drawing ends, and then it has the result, unless the
request is given up before (`Rendering.Moved`). Over many turns this means that whoever joins a
drawing gets what it gives (`Rendering.Reaches.part`), and that what it gives comes from the end of
its own call (`Rendering.Reaches.drawn`).
-/

namespace JitInspect

namespace Rendering

variable {r r₁ r₂ : Rendering} {i k : ℕ} {d d' : Drawing} {e : Event} {es : List Event}

/-! ### One turn -/

section Turn

/-- What a turn does to a drawing. -/
inductive Stepped (r : Rendering) (e : Event) (i : ℕ) (d d' : Drawing) : Prop where
  | same (hother : ∀ o, e ≠ .finish i o) (h : d' = d)
  | started (he : e = .start i) (hqueued : d.isQueued = true)
      (h : d' = { d with stage := .running r.calls })
  | finished (o : Outcome) (he : e = .finish i o) (hrunning : d.isRunning = true)
      (h : d' = { d with stage := .done (r.resultAt d.file o) })

/-- A drawing keeps its file. -/
theorem Stepped.file (h : Stepped r e i d d') : d'.file = d.file := by
  cases h with
  | same _ h => rw [h]
  | started _ _ h => rw [h]
  | finished _ _ _ h => rw [h]

/-- A drawing that has ended stays as it is. -/
theorem Stepped.eq_of_done {x : Except Failure Image} (h : Stepped r e i d d')
    (hdone : d.stage = .done x) : d' = d := by
  cases h with
  | same _ h => exact h
  | started _ hqueued _ =>
    rw [Drawing.isQueued, hdone] at hqueued
    exact absurd hqueued Bool.false_ne_true
  | finished _ _ hrunning _ =>
    rw [Drawing.isRunning, hdone] at hrunning
    exact absurd hrunning Bool.false_ne_true

/-- The end of a call ends its drawing. -/
theorem Stepped.done_of_finish {o : Outcome} (h : Stepped r (.finish i o) i d d') :
    d'.stage = .done (r.resultAt d.file o) := by
  cases h with
  | same hother _ => exact absurd rfl (hother o)
  | started he _ _ => cases he
  | finished o' he _ h =>
    cases he
    rw [h]

theorem getElem?_modify_self {ds : List Drawing} {change : Drawing → Drawing}
    (hd : ds[i]? = some d) : (ds.modify i change)[i]? = some (change d) := by
  rw [List.getElem?_modify, hd]
  simp

theorem getElem?_modify_of_ne {ds : List Drawing} {change : Drawing → Drawing} (hne : k ≠ i) :
    (ds.modify k change)[i]? = ds[i]? := by
  rw [List.getElem?_modify]
  simp [hne]

/-- Every drawing keeps its place. -/
theorem Sound.stepped (h : r.Sound) (hturn : r.Turn e r₁) (hd : r.drawings[i]? = some d) :
    ∃ d', r₁.drawings[i]? = some d' ∧ Stepped r e i d d' := by
  cases hturn with
  | ask name several phases =>
    obtain ⟨-, hext, -, -⟩ := h.parts phases
    exact ⟨d, hext.getElem? hd, .same nofun rfl⟩
  | @start place file hnext =>
    obtain ⟨-, ⟨d₁, hd₁, hqueued, -⟩, -⟩ := nextQueued_eq_some hnext
    by_cases hi : place = i
    · subst hi
      obtain rfl := Option.some.inj (hd.symm.trans hd₁)
      exact ⟨_, getElem?_modify_self hd, .started rfl hqueued rfl⟩
    · exact ⟨d, (getElem?_modify_of_ne hi).trans hd, .same nofun rfl⟩
  | @finish place d₁ o hd₁ hrunning =>
    obtain ⟨world, phases, heq, -, -⟩ := complete_eq r place d₁.file o
    rw [heq]
    by_cases hi : place = i
    · subst hi
      obtain rfl := Option.some.inj (hd.symm.trans hd₁)
      exact ⟨_, getElem?_modify_self hd, .finished o rfl hrunning rfl⟩
    · refine ⟨d, (getElem?_modify_of_ne hi).trans hd, .same (fun o' he => ?_) rfl⟩
      exact hi (Event.finish.inj he).1
  | abandon name => exact ⟨d, hd, .same nofun rfl⟩
  | meanwhile disk outcomes told => exact ⟨d, hd, .same nofun rfl⟩

/-- A turn that makes a drawing is a request. -/
theorem Turn.ask_of_made (hturn : r.Turn e r₁) (hnone : r.drawings[i]? = none)
    (hd : r₁.drawings[i]? = some d) :
    ∃ name several phases, e = .ask name several phases ∧ r₁ = r.enter name several phases := by
  have hnot : ∀ (k : ℕ) (change : Drawing → Drawing),
      (r.drawings.modify k change)[i]? ≠ some d := by
    intro k change hsome
    rw [List.getElem?_modify, hnone] at hsome
    cases hsome
  cases hturn with
  | ask name several phases => exact ⟨name, several, phases, rfl, rfl⟩
  | @start place file _ => exact absurd hd (hnot place _)
  | @finish place d₁ o _ _ =>
    obtain ⟨world, phases, heq, -, -⟩ := complete_eq r place d₁.file o
    rw [heq] at hd
    exact absurd hd (hnot place _)
  | abandon name =>
    have hsame : r.drawings[i]? = some d := hd
    rw [hnone] at hsame
    cases hsame
  | meanwhile disk outcomes told =>
    have hsame : r.drawings[i]? = some d := hd
    rw [hnone] at hsame
    cases hsame

/-- A drawing that a turn makes waits for its start. -/
theorem Sound.made (h : r.Sound) (hturn : r.Turn e r₁) (hnone : r.drawings[i]? = none)
    (hd : r₁.drawings[i]? = some d) : d.stage = .queued := by
  obtain ⟨name, several, phases, -, rfl⟩ := hturn.ask_of_made hnone hd
  obtain ⟨-, hext, -, -⟩ := h.parts phases
  obtain ⟨new, hnew, hqueued⟩ := hext.drawings
  have hin : (r.drawings ++ new)[i]? = some d := hnew ▸ hd
  rw [List.getElem?_append_right (List.getElem?_eq_none_iff.1 hnone)] at hin
  exact hqueued d (List.mem_of_getElem? hin)

/-- What a turn does to a part of a request, which is `a` behind the turn. -/
inductive Moved (r : Rendering) (e : Event) (a : Asking) (p p' : Part) : Prop where
  | same (h : p' = p)
  | answered {k : ℕ} {d : Drawing} (o : Outcome) (he : e = .finish k o)
      (hd : r.drawings[k]? = some d) (hrunning : d.isRunning = true) (hwaits : p.drawing = some k)
      (h : p' = p.given k (r.resultAt d.file o))
  | abandoned (hreply : a.reply = some .abandoned) (h : p' = { p with drawing := none })

/-- A part keeps its phase. -/
theorem Moved.phase {a : Asking} {p p' : Part} (h : Moved r e a p p') : p'.phase = p.phase := by
  cases h with
  | same h => rw [h]
  | answered _ _ _ _ _ h => rw [h, Part.phase_given]
  | abandoned _ h => rw [h]

/-- What a turn does to a request: it stays what it is, and a reply that is there stays. -/
structure Continued (r : Rendering) (e : Event) (a a' : Asking) : Prop where
  several : a'.several = a.several
  reply : a.reply.isSome = true → a'.reply = a.reply
  length : a'.parts.length = a.parts.length
  parts : ∀ {q : ℕ} {p : Part}, a.parts[q]? = some p →
    ∃ p', a'.parts[q]? = some p' ∧ Moved r e a' p p'

theorem Continued.refl (r : Rendering) (e : Event) (a : Asking) : Continued r e a a :=
  ⟨rfl, fun _ => rfl, rfl, fun hp => ⟨_, hp, .same rfl⟩⟩

/-- A request is answered by the end of a call. -/
theorem continued_answer (hd : r.drawings[k]? = some d) (hrunning : d.isRunning = true)
    (o : Outcome) (a : Asking) :
    Continued r (.finish k o) a (a.answer k (r.resultAt d.file o)) := by
  refine ⟨Asking.several_answer a k _, fun hreply => ?_, ?_, fun {q p} hp => ?_⟩
  · rw [Asking.answer_eq, Asking.settle_of_reply (by exact hreply)]
  · rw [Asking.parts_answer, List.length_map]
  · rw [Asking.parts_answer, List.getElem?_map, hp]
    refine ⟨_, rfl, ?_⟩
    by_cases hwaits : p.drawing = some k
    · exact .answered o rfl hd hrunning hwaits rfl
    · exact .same (Part.given_of_ne hwaits _)

theorem continued_abandon (r : Rendering) (e : Event) (a : Asking) : Continued r e a a.abandon := by
  unfold Asking.abandon
  split
  · exact .refl r e a
  · next hreply =>
    refine ⟨rfl, fun h => absurd h hreply, List.length_map _, fun {q p} hp => ?_⟩
    rw [List.getElem?_map, hp]
    exact ⟨_, rfl, .abandoned rfl rfl⟩

/-- A new call leaves those before it in their places. -/
theorem Sound.asking_enter (h : r.Sound) {a : Asking} (ha : r.askings[i]? = some a) (name : Text)
    (several : Bool) (phases : List ℕ) : (r.enter name several phases).askings[i]? = some a := by
  obtain ⟨-, hext, -, -⟩ := h.parts phases
  obtain ⟨hlt, -⟩ := List.getElem?_eq_some_iff.1 ha
  rw [Rendering.enter, hext.askings, List.getElem?_append_left hlt, ha]

/-- Every request keeps its place. -/
theorem Sound.continued (h : r.Sound) (hturn : r.Turn e r₁) {a : Asking}
    (ha : r.askings[i]? = some a) : ∃ a', r₁.askings[i]? = some a' ∧ Continued r e a a' := by
  cases hturn with
  | ask name several phases => exact ⟨a, h.asking_enter ha name several phases, .refl r _ a⟩
  | start hnext => exact ⟨a, ha, .refl r _ a⟩
  | @finish place d o hd hrunning =>
    obtain ⟨world, phases, heq, -, -⟩ := complete_eq r place d.file o
    rw [heq]
    refine ⟨_, ?_, continued_answer hd hrunning o a⟩
    rw [List.getElem?_map, ha]
    rfl
  | abandon name =>
    refine ⟨if a.name = name then a.abandon else a, ?_, ?_⟩
    · rw [Rendering.abandon, List.getElem?_map, ha]
      rfl
    · split
      · exact continued_abandon r _ a
      · exact .refl r _ a
  | meanwhile disk outcomes told => exact ⟨a, ha, .refl r _ a⟩

end Turn

/-! ### Many turns -/

section Turns

/-- A request over time stays what it is. -/
theorem Reaches.asking (hreaches : r.Reaches es r₁) (h : r.Sound) {a : Asking}
    (ha : r.askings[i]? = some a) :
    ∃ a', r₁.askings[i]? = some a' ∧ a'.several = a.several ∧ a'.parts.length = a.parts.length := by
  induction hreaches with
  | refl => exact ⟨a, ha, rfl, rfl⟩
  | next hreaches hturn ih =>
    obtain ⟨a₁, ha₁, hseveral₁, hlength₁⟩ := ih
    obtain ⟨a₂, ha₂, hcontinued⟩ := (h.reaches hreaches).continued hturn ha₁
    exact ⟨a₂, ha₂, hcontinued.several.trans hseveral₁, hcontinued.length.trans hlength₁⟩

/-- A part of a request over time: it stays as it is, or the drawing that it waited for has ended
and it has what this drawing has given, unless the request was given up. -/
theorem Reaches.part (hreaches : r.Reaches es r₁) (h : r.Sound) {a : Asking} {p : Part} {q : ℕ}
    (ha : r.askings[i]? = some a) (hp : a.parts[q]? = some p) :
    ∃ a' p', r₁.askings[i]? = some a' ∧ a'.parts[q]? = some p' ∧ p'.phase = p.phase ∧
      (a'.reply = some .abandoned ∨ p' = p ∨
        ∃ k d x, p.drawing = some k ∧ r₁.drawings[k]? = some d ∧ d.stage = .done x ∧ p'.Has x) := by
  induction hreaches with
  | refl => exact ⟨a, p, ha, hp, rfl, Or.inr (Or.inl rfl)⟩
  | @next es e r₁ r₂ hreaches hturn ih =>
    obtain ⟨a₁, p₁, ha₁, hp₁, hphase, hcases⟩ := ih
    have hsound := h.reaches hreaches
    obtain ⟨a₂, ha₂, hcontinued⟩ := hsound.continued hturn ha₁
    obtain ⟨p₂, hp₂, hmoved⟩ := hcontinued.parts hp₁
    refine ⟨a₂, p₂, ha₂, hp₂, hmoved.phase.trans hphase, ?_⟩
    rcases hcases with habandoned | rfl | ⟨k, d, x, hk, hd, hdone, hhas⟩
    · refine Or.inl ?_
      rw [hcontinued.reply (by rw [habandoned]; rfl), habandoned]
    · cases hmoved with
      | same h => exact Or.inr (Or.inl h)
      | @answered k d o he hd hrunning hwaits h =>
        subst he
        obtain ⟨d₂, hd₂, hstepped⟩ := hsound.stepped hturn hd
        refine Or.inr (Or.inr ⟨k, d₂, r₁.resultAt d.file o, hwaits, hd₂,
          hstepped.done_of_finish, ?_⟩)
        rw [h, Part.given, if_pos hwaits]
        exact ⟨rfl, rfl⟩
      | abandoned hreply _ => exact Or.inl hreply
    · obtain ⟨d₂, hd₂, hstepped⟩ := hsound.stepped hturn hd
      have hstays := hstepped.eq_of_done hdone
      cases hmoved with
      | same h => exact Or.inr (Or.inr ⟨k, d₂, x, hk, hd₂, hstays ▸ hdone, h ▸ hhas⟩)
      | answered _ _ _ _ hwaits _ =>
        rw [hhas.1] at hwaits
        cases hwaits
      | abandoned hreply _ => exact Or.inl hreply

/-- The parts of a request over time, each followed from the beginning. -/
theorem Reaches.parts (hreaches : r.Reaches es r₁) (h : r.Sound) {a a' : Asking} {p' : Part}
    {q : ℕ} (ha : r.askings[i]? = some a) (ha' : r₁.askings[i]? = some a')
    (hp' : a'.parts[q]? = some p') :
    ∃ p, a.parts[q]? = some p ∧ p'.phase = p.phase ∧
      (a'.reply = some .abandoned ∨ p' = p ∨
        ∃ k d x, p.drawing = some k ∧ r₁.drawings[k]? = some d ∧ d.stage = .done x ∧ p'.Has x) := by
  obtain ⟨a₁, ha₁, -, hlength⟩ := hreaches.asking h ha
  obtain rfl := Option.some.inj (ha'.symm.trans ha₁)
  obtain ⟨hlt, -⟩ := List.getElem?_eq_some_iff.1 hp'
  have hp := List.getElem?_eq_getElem (hlength ▸ hlt : q < a.parts.length)
  obtain ⟨a₂, p₂, ha₂, hp₂, hphase, hcases⟩ := hreaches.part h ha hp
  obtain rfl := Option.some.inj (ha'.symm.trans ha₂)
  obtain rfl := Option.some.inj (hp'.symm.trans hp₂)
  exact ⟨_, hp, hphase, hcases⟩

/-- Every drawing keeps its place and its file. -/
theorem Reaches.drawing (hreaches : r.Reaches es r₁) (h : r.Sound)
    (hd : r.drawings[i]? = some d) : ∃ d', r₁.drawings[i]? = some d' ∧ d'.file = d.file := by
  induction hreaches with
  | refl => exact ⟨d, hd, rfl⟩
  | next hreaches hturn ih =>
    obtain ⟨d₁, hd₁, hfile₁⟩ := ih
    obtain ⟨d₂, hd₂, hstepped⟩ := (h.reaches hreaches).stepped hturn hd₁
    exact ⟨d₂, hd₂, hstepped.file.trans hfile₁⟩

/-- The call for the drawing at a place ends on the way, and this is what it gives. -/
def Ended (r : Rendering) (es : List Event) (place : ℕ) (file : Text) (x : Except Failure Image) :
    Prop :=
  ∃ es₁ es₂ r₁ o, es = es₁ ++ .finish place o :: es₂ ∧ r.Reaches es₁ r₁ ∧
    (∃ d, r₁.drawings[place]? = some d ∧ d.isRunning = true ∧ d.file = file) ∧
    x = r₁.resultAt file o

theorem Ended.append {place : ℕ} {file : Text} {x : Except Failure Image}
    (h : r.Ended es place file x) (e : Event) : r.Ended (es ++ [e]) place file x := by
  obtain ⟨es₁, es₂, r₁, o, rfl, hrest⟩ := h
  exact ⟨es₁, es₂ ++ [e], r₁, o, by simp, hrest⟩

/-- A drawing that has ended gives what the end of its own call gave. -/
theorem Reaches.drawn {x : Except Failure Image} (hreaches : r.Reaches es r₁) (h : r.Sound)
    (hd : r₁.drawings[i]? = some d) (hdone : d.stage = .done x)
    (hbefore : ∀ d', r.drawings[i]? = some d' → d'.stage ≠ .done x) :
    r.Ended es i d.file x := by
  induction hreaches generalizing d with
  | refl => exact absurd hdone (hbefore d hd)
  | @next es e r₁ r₃ hreaches hturn ih =>
    have hsound := h.reaches hreaches
    cases hd₁ : r₁.drawings[i]? with
    | none =>
      have hqueued := hsound.made hturn hd₁ hd
      rw [hdone] at hqueued
      cases hqueued
    | some d₁ =>
      obtain ⟨d₂, hd₂, hstepped⟩ := hsound.stepped hturn hd₁
      obtain rfl := Option.some.inj (hd.symm.trans hd₂)
      cases hstepped with
      | same _ h =>
        subst h
        exact (ih hd₁ hdone).append e
      | started _ _ h =>
        rw [h] at hdone
        cases hdone
      | finished o he hrunning h =>
        subst h he
        refine ⟨es, [], r₁, o, rfl, hreaches, ⟨d₁, hd₁, hrunning, rfl⟩, ?_⟩
        exact (DrawingStage.done.inj hdone).symm

end Turns

end Rendering

end JitInspect
