import JitInspect.Proofs.Run.Action

/-!
# The processes of a run

A process is a command that was started together with what happened while it ran. From a world and
the one that a step leaves behind it can be read off which processes the step has started:
`World.Starts` names them in order and says what became of the token. The commands are supposed to
come to an end of their own (`World.AllReturn`); a process then has a printed text and leaves a disk
behind, and the world after it is given by `World.ran`.
-/

namespace JitInspect

/-- Whatever the command and the disk, the command comes to an end of its own. -/
structure Outcome.Returns (o : Outcome) : Prop where
  effect : ∀ c d, (StateT.run (o.effect c).run d).1 = .ok ()
  ending : ∃ p, o.ending = .ok p

/-- A command that was started, and what happened while it ran. -/
structure Process extends Started where
  outcome : Outcome

namespace Process

/-- What the process has printed when it ends. -/
def printed (p : Process) : Printed := p.outcome.ending.toOption.getD {}

/-- The disk that the process leaves behind. -/
def left (p : Process) : Disk := (StateT.run (p.outcome.effect p.command).run p.disk).2

/-- Whether the token is cancelled while the process runs. -/
def cancels (p : Process) : Bool := p.outcome.cancels

end Process

namespace World

variable {w w₁ w₂ : World} {ps qs : List Process}

/-- Every command that is still to be started comes to an end of its own. -/
def AllReturn (w : World) : Prop := ∀ o ∈ w.outcomes, o.Returns

/-- The process that the next command will be. -/
def next (w : World) (c : Command) : Process := ⟨⟨c, w.disk⟩, w.nextOutcome⟩

/-- The world when that process has come to an end of its own. -/
def ran (w : World) (c : Command) : World :=
  { w with
    disk := (w.next c).left
    outcomes := w.outcomes.tail
    started := ⟨c, w.disk⟩ :: w.started
    token := w.token.map (· || (w.next c).cancels) }

/-- A command beyond the last outcome comes to an end of its own as well. -/
theorem AllReturn.nextOutcome (h : w.AllReturn) : w.nextOutcome.Returns := by
  unfold World.nextOutcome
  cases hw : w.outcomes with
  | nil => exact ⟨fun _ _ => rfl, {}, rfl⟩
  | cons o os => exact h o (by simp [hw])

/-- A token that is cancelled on condition. -/
theorem map_cancel (t : Option Bool) (b : Bool) :
    (if b then t.map fun _ => true else t) = t.map (· || b) := by
  cases t <;> cases b <;> simp

/-- A command whose effect does not fail ends as its outcome says. -/
theorem ending_of_ok {d : Disk} (c : Command) (o : Outcome)
    (h : StateT.run (o.effect c).run w.disk = (.ok (), d)) :
    w.ending c o = (o.ending, { w with
      disk := d, token := if o.cancels then w.token.map fun _ => true else w.token }) := by
  unfold ending
  rw [h]

/-- A command fails at once if what it does to the disk fails. Otherwise it ends as its outcome says
and leaves the world of its process behind. -/
theorem after_cases (w : World) (c : Command) :
    (∃ f, (StateT.run (w.nextOutcome.effect c).run w.disk).1 = .error f ∧
        w.after c = (.error (.ofFile f),
          { w.starting c with outcomes := w.outcomes.tail, disk := (w.next c).left })) ∨
      (StateT.run (w.nextOutcome.effect c).run w.disk).1 = .ok () ∧
        w.after c = (w.nextOutcome.ending, w.ran c) := by
  rcases hrun : StateT.run (w.nextOutcome.effect c).run w.disk with ⟨f | _, d⟩
  · have hleft : (w.next c).left = d := congrArg Prod.snd hrun
    refine Or.inl ⟨f, rfl, ?_⟩
    unfold after ending
    simp only [starting, hrun, hleft]
  · have hleft : (w.next c).left = d := congrArg Prod.snd hrun
    refine Or.inr ⟨rfl, ?_⟩
    have hend := ending_of_ok (w := { w.starting c with outcomes := w.outcomes.tail }) c
      w.nextOutcome hrun
    refine hend.trans ?_
    rw [ran, hleft, ← map_cancel]
    rfl

/-- However the command ends, its process has been started, and the disk is as it leaves it. -/
structure RanTo (w : World) (p : Process) (w₁ : World) : Prop where
  started : w₁.started = p.toStarted :: w.started
  outcomes : w₁.outcomes = w.outcomes.tail
  disk : w₁.disk = p.left

/-- A command has run to the end that its outcome tells. -/
theorem ranTo_after (w : World) (c : Command) : w.RanTo (w.next c) (w.after c).2 := by
  rcases w.after_cases c with ⟨f, -, hafter⟩ | ⟨-, hafter⟩
  · rw [hafter]
    exact ⟨rfl, rfl, rfl⟩
  · rw [hafter]
    exact ⟨rfl, rfl, rfl⟩

/-- It draws no identifier. -/
theorem identifiers_after (w : World) (c : Command) : (w.after c).2.identifiers = w.identifiers := by
  rcases w.after_cases c with ⟨f, -, hafter⟩ | ⟨-, hafter⟩
  · rw [hafter]
    rfl
  · rw [hafter]
    rfl

/-- What a command gives is what its outcome says. -/
theorem ending_of_after {c : Command} {x : Printed} (h : (w.after c).1 = .ok x) :
    w.nextOutcome.ending = .ok x := by
  rcases w.after_cases c with ⟨f, -, hafter⟩ | ⟨-, hafter⟩
  · rw [hafter] at h
    cases h
  · rw [hafter] at h
    exact h

/-- A command that comes to an end of its own leaves the world of its process behind. -/
theorem after_eq_of_returns (c : Command) (h : w.nextOutcome.Returns) :
    w.after c = (.ok (w.next c).printed, w.ran c) := by
  obtain ⟨heffect, x, hx⟩ := h
  have hprinted : (w.next c).printed = x := by
    unfold Process.printed next
    rw [hx]
    rfl
  rcases w.after_cases c with ⟨f, hf, -⟩ | ⟨-, hend⟩
  · rw [heffect c w.disk] at hf
    cases hf
  · rw [hend, hx, hprinted]

/-- Between the two worlds exactly these processes were started, one after the other. -/
structure Starts (w : World) (ps : List Process) (w₁ : World) : Prop where
  started : w₁.started = (ps.map Process.toStarted).reverse ++ w.started
  outcome : ∀ (i : ℕ) (p : Process), ps[i]? = some p → p.outcome = w.outcomes[i]?.getD {}
  outcomes : w₁.outcomes = w.outcomes.drop ps.length
  token : w₁.token = w.token.map (· || ps.any Process.cancels)

namespace Starts

/-- Nothing was started where commands, outcomes and token are the same. -/
theorem of_same (hs : w₁.started = w.started) (ho : w₁.outcomes = w.outcomes)
    (ht : w₁.token = w.token) : w.Starts [] w₁ :=
  ⟨by simp [hs], by simp, by simp [ho], by simp [ht]⟩

theorem refl (w : World) : w.Starts [] w := of_same rfl rfl rfl

/-- Processes that are started later come behind. -/
theorem trans (h : w.Starts ps w₁) (h₁ : w₁.Starts qs w₂) : w.Starts (ps ++ qs) w₂ where
  started := by
    rw [h₁.started, h.started]
    simp
  outcome i p hp := by
    by_cases hi : i < ps.length
    · rw [List.getElem?_append_left hi] at hp
      exact h.outcome i p hp
    · rw [List.getElem?_append_right (by omega)] at hp
      have ho := h₁.outcome _ p hp
      rw [h.outcomes, List.getElem?_drop] at ho
      rwa [Nat.add_sub_of_le (by omega)] at ho
  outcomes := by
    rw [h₁.outcomes, h.outcomes]
    simp
  token := by
    rw [h₁.token, h.token]
    cases w.token <;> simp [Bool.or_assoc]

/-- A command that ran was started. -/
theorem ran (w : World) (c : Command) : w.Starts [w.next c] (w.ran c) where
  started := by simp [World.ran, World.next]
  outcome i p hp := by
    cases i with
    | zero =>
      obtain rfl : w.next c = p := by simpa using hp
      simp [World.next, World.nextOutcome, List.head?_eq_getElem?]
    | succ i => simp at hp
  outcomes := by simp [World.ran]
  token := by simp [World.ran]

/-- What is left of outcomes that return returns. -/
theorem allReturn (h : w.Starts ps w₁) (hw : w.AllReturn) : w₁.AllReturn := by
  intro o ho
  rw [h.outcomes] at ho
  exact hw o (List.mem_of_mem_drop ho)

/-- The token is cancelled afterwards if it was before or a process cancels it. -/
theorem isCancelled_eq (h : w.Starts ps w₁) :
    w₁.isCancelled = (w.isCancelled || w.token.isSome && ps.any Process.cancels) := by
  unfold World.isCancelled
  rw [h.token]
  rcases w.token with _ | b
  · rfl
  · cases b <;> cases ps.any Process.cancels <;> rfl

theorem isCancelled_of_nil (h : w.Starts [] w₁) : w₁.isCancelled = w.isCancelled := by
  simp [h.isCancelled_eq]

end Starts

end World

/-- Starting a command ends as the command does. -/
theorem Action.perform_start_eq (c : Command) (w : World) : (Action.start c).perform w = w.after c := by
  unfold Action.start
  rw [Action.perform_bind_of_ok (Action.perform_get w)]
  rcases w.after c with ⟨_ | _, _⟩ <;> rfl

/-- Starting a command that comes to an end of its own gives what its process has printed. -/
theorem Action.perform_start {w : World} (c : Command) (h : w.AllReturn) :
    (Action.start c).perform w = (.ok (w.next c).printed, w.ran c) :=
  (Action.perform_start_eq c w).trans (World.after_eq_of_returns c h.nextOutcome)

end JitInspect
