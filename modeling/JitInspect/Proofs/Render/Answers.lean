import JitInspect.Render.Basic
import Mathlib.Data.List.Basic

/-!
# Answers to requests

A request waits for the drawings of its parts. Each part waits for one drawing or has its answer
(`Part.Waits`, `Part.Has`), and the reply follows from the parts (`Asking.Settled`): there is none
as long as a part waits, it holds one image for each part in their order when all parts have images,
and it is the failure of a part otherwise. The end of a drawing and the giving up of a request keep
this.
-/

namespace JitInspect

variable {p : Part} {a : Asking} {x y : Except Failure Image} {k i : ℕ}

/-! ### Parts -/

namespace Part

/-- The part waits for a drawing. -/
def Waits (p : Part) (k : ℕ) : Prop := p.drawing = some k ∧ p.answer = none

/-- The part has its answer. -/
def Has (p : Part) (x : Except Failure Image) : Prop := p.drawing = none ∧ p.answer = some x

/-- The part after a drawing has ended. -/
def given (p : Part) (k : ℕ) (x : Except Failure Image) : Part :=
  if p.drawing = some k then { p with drawing := none, answer := some x } else p

/-- An answer leaves the phase of a part. -/
@[simp] theorem phase_given (p : Part) (k : ℕ) (x : Except Failure Image) :
    (p.given k x).phase = p.phase := by
  unfold given
  split <;> rfl

/-- A part that waits for a drawing has its answer when it is given. -/
theorem Waits.given (h : p.Waits k) (x : Except Failure Image) : (p.given k x).Has x := by
  rw [Part.given, if_pos h.1]
  exact ⟨rfl, rfl⟩

theorem given_of_ne (h : p.drawing ≠ some k) (x : Except Failure Image) : p.given k x = p :=
  if_neg h

/-- The end of a drawing for which no part waits. -/
theorem map_given {ps : List Part} (h : ∀ p ∈ ps, p.drawing = none) (k : ℕ)
    (x : Except Failure Image) : (ps.map fun p => p.given k x) = ps := by
  have hsame : ∀ p ∈ ps, p.given k x = id p := by
    intro p hp
    exact given_of_ne (by rw [h p hp]; exact (Option.some_ne_none k).symm) x
  rw [List.map_congr_left hsame, List.map_id]

/-- A part that has its answer keeps it. -/
theorem Has.given (h : p.Has x) (k : ℕ) (y : Except Failure Image) : p.given k y = p :=
  given_of_ne (by rw [h.1]; exact (Option.some_ne_none k).symm) y

end Part

/-! ### Replies -/

namespace Asking

/-- Each part waits for a drawing or has its answer. -/
def IsOpen (a : Asking) : Prop := ∀ p ∈ a.parts, (∃ k, p.Waits k) ∨ ∃ x, p.Has x

/-- The reply of a request follows from its parts. -/
inductive Settled (a : Asking) : Prop where
  | waits (hreply : a.reply = none) (hopen : a.IsOpen)
      (hwell : ∀ p ∈ a.parts, ∀ f, p.answer ≠ some (.error f))
      (hwaits : ∃ p ∈ a.parts, ∃ k, p.Waits k)
  | answered (is : List Image)
      (hreply : a.reply = some (if a.several then .images is else .image (is.head?.getD none)))
      (hnone : ∀ p ∈ a.parts, p.drawing = none)
      (hparts : a.parts.map (·.answer) = is.map fun i => some (.ok i))
  | failed (f : Failure) (hreply : a.reply = some (.failure f)) (hopen : a.IsOpen)
      (hfailed : ∃ p ∈ a.parts, p.Has (.error f))
  | abandoned (hreply : a.reply = some .abandoned) (hnone : ∀ p ∈ a.parts, p.drawing = none)

/-- A call that has its reply is settled. -/
theorem settle_of_reply (h : a.reply.isSome = true) : a.settle = a := by
  unfold settle
  exact if_pos h

/-- Settling leaves the parts of a call. -/
@[simp] theorem parts_settle (a : Asking) : a.settle.parts = a.parts := by
  unfold settle
  split
  · rfl
  · split <;> rfl

/-- It leaves what was asked for. -/
@[simp] theorem several_settle (a : Asking) : a.settle.several = a.several := by
  unfold settle
  split
  · rfl
  · split <;> rfl

/-- All parts have images, or one of them has none yet. -/
theorem mapM_images (ps : List Part)
    (hopen : ∀ p ∈ ps, (∃ k, p.Waits k) ∨ ∃ x, p.Has x) :
    (∃ is, (ps.mapM fun (p : Part) => p.answer.bind Except.toOption) = some is ∧
        (∀ p ∈ ps, p.drawing = none) ∧ ps.map (·.answer) = is.map fun i => some (.ok i)) ∨
      (ps.mapM fun (p : Part) => p.answer.bind Except.toOption) = none ∧
        ∃ p ∈ ps, (∃ k, p.Waits k) ∨ ∃ f, p.Has (.error f) := by
  induction ps with
  | nil => exact Or.inl ⟨[], rfl, fun _ hp => absurd hp List.not_mem_nil, rfl⟩
  | cons p ps ih =>
    obtain ⟨hp, hps⟩ := List.forall_mem_cons.1 hopen
    rw [List.mapM_cons]
    rcases hp with ⟨k, hwaits⟩ | ⟨x, hhas⟩
    · refine Or.inr ⟨?_, p, List.mem_cons_self, Or.inl ⟨k, hwaits⟩⟩
      rw [hwaits.2]
      rfl
    · cases x with
      | error f =>
        refine Or.inr ⟨?_, p, List.mem_cons_self, Or.inr ⟨f, hhas⟩⟩
        rw [hhas.2]
        rfl
      | ok i =>
        rw [hhas.2]
        rcases ih hps with ⟨is, his, hdrawings, hall⟩ | ⟨hnone, q, hq, hwhy⟩
        · refine Or.inl ⟨i :: is, ?_, List.forall_mem_cons.2 ⟨hhas.1, hdrawings⟩, ?_⟩
          · rw [his]
            rfl
          · rw [List.map_cons, List.map_cons, hall, hhas.2]
        · refine Or.inr ⟨?_, q, List.mem_cons_of_mem p hq, hwhy⟩
          rw [hnone]
          rfl

/-- A request without a reply gets one as soon as its parts allow it. -/
theorem settled_settle (hreply : a.reply = none) (hopen : a.IsOpen) : a.settle.Settled := by
  have hgoing : ¬ a.reply.isSome = true := by rw [hreply]; exact Bool.false_ne_true
  have hfails : ∀ {p : Part} {f : Failure}, p ∈ a.parts → p.answer = some (.error f) →
      p.Has (.error f) := by
    intro p f hp hanswer
    rcases hopen p hp with ⟨k, -, hnone⟩ | ⟨x, hdrawing, -⟩
    · rw [hnone] at hanswer
      cases hanswer
    · exact ⟨hdrawing, hanswer⟩
  unfold settle
  rw [if_neg hgoing]
  cases hfailure : a.firstFailure with
  | some f =>
    obtain ⟨p, hp, hanswer⟩ := List.exists_of_findSome?_eq_some hfailure
    split at hanswer
    · next f' hf' =>
      obtain rfl := Option.some.inj hanswer
      exact .failed f' rfl hopen ⟨p, hp, hfails hp hf'⟩
    · cases hanswer
  | none =>
    have hwell : ∀ p ∈ a.parts, ∀ f, p.answer ≠ some (.error f) := by
      intro p hp f hanswer
      have hnot := List.findSome?_eq_none_iff.1 hfailure p hp
      rw [hanswer] at hnot
      cases hnot
    rcases mapM_images a.parts hopen with ⟨is, his, hdrawings, hall⟩ | ⟨hnone, p, hp, hwhy⟩
    · refine .answered is ?_ hdrawings hall
      dsimp only [ofAnswers]
      rw [his]
      rfl
    · refine .waits ?_ hopen hwell ?_
      · dsimp only [ofAnswers]
        rw [hnone]
        rfl
      · rcases hwhy with ⟨k, hwaits⟩ | ⟨f, hhas⟩
        · exact ⟨p, hp, k, hwaits⟩
        · exact absurd hhas.2 (hwell p hp f)

/-! ### Answers -/

/-- An answer is given to each part, and then the call is settled. -/
theorem answer_eq (a : Asking) (k : ℕ) (x : Except Failure Image) :
    a.answer k x = settle { a with parts := a.parts.map fun p => p.given k x } := rfl

/-- The parts of a call behind an answer. -/
@[simp] theorem parts_answer (a : Asking) (k : ℕ) (x : Except Failure Image) :
    (a.answer k x).parts = a.parts.map fun p => p.given k x := by
  rw [answer_eq, parts_settle]

/-- An answer leaves what was asked for. -/
@[simp] theorem several_answer (a : Asking) (k : ℕ) (x : Except Failure Image) :
    (a.answer k x).several = a.several := by
  rw [answer_eq, several_settle]

/-- An answer that is given to its parts leaves a call open. -/
theorem IsOpen.given (h : a.IsOpen) (k : ℕ) (x : Except Failure Image) :
    IsOpen { a with parts := a.parts.map fun p => p.given k x } := by
  intro p hp
  obtain ⟨q, hq, rfl⟩ := List.mem_map.1 hp
  rcases h q hq with ⟨i, hwaits⟩ | ⟨y, hhas⟩
  · by_cases hik : i = k
    · subst hik
      exact Or.inr ⟨x, hwaits.given x⟩
    · have hne : q.drawing ≠ some k := by
        rw [hwaits.1]
        exact fun h => hik (Option.some.inj h)
      rw [Part.given_of_ne hne]
      exact Or.inl ⟨i, hwaits⟩
  · rw [hhas.given]
    exact Or.inr ⟨y, hhas⟩

/-- The end of a drawing. -/
theorem Settled.answer (h : a.Settled) (k : ℕ) (x : Except Failure Image) :
    (a.answer k x).Settled := by
  have hover : ∀ {r : Reply}, a.reply = some r →
      a.answer k x = { a with parts := a.parts.map fun p => p.given k x } := by
    intro r hr
    rw [answer_eq]
    exact settle_of_reply (by dsimp only; rw [hr]; rfl)
  cases h with
  | waits hreply hopen _ _ =>
    rw [answer_eq]
    exact settled_settle hreply (hopen.given k x)
  | answered is hreply hnone hparts =>
    rw [hover hreply, Part.map_given hnone]
    exact .answered is hreply hnone hparts
  | failed f hreply hopen hfailed =>
    obtain ⟨p, hp, hhas⟩ := hfailed
    rw [hover hreply]
    refine .failed f hreply (hopen.given k x) ⟨p, ?_, hhas⟩
    exact List.mem_map.2 ⟨p, hp, hhas.given k x⟩
  | abandoned hreply hnone =>
    rw [hover hreply, Part.map_given hnone]
    exact .abandoned hreply hnone

/-- Giving up a request. -/
theorem Settled.abandon (h : a.Settled) : a.abandon.Settled := by
  unfold Asking.abandon
  split
  · exact h
  · refine .abandoned rfl fun p hp => ?_
    obtain ⟨q, -, rfl⟩ := List.mem_map.1 hp
    rfl

end Asking

end JitInspect
