import JitInspect.Supervision.Steps

/-!
# What is heard of a command

A piece of a stream and the end of a stream change what has been heard of the command: how far its
two streams have been read, which lines were captured and received, and whether the reading has
failed. They change nothing else (`Supervision.exists_hear_receive`). How a supervision proceeds and
ends changes nothing of what is known of the command and its token, so `Supervision.facts_step` says
what each step adds to that.
-/

namespace JitInspect

namespace Supervision

variable {s : Supervision} {e : Bool}

/-! ### Hearing -/

section Hearing

/-- What has been heard of a command. -/
structure Hearing where
  output : Stream
  errors : Stream
  captured : List CapturedLine
  received : List CapturedLine
  fault : Option StreamFault

/-- What has been heard so far. -/
def hearing (s : Supervision) : Hearing :=
  ⟨s.output, s.errors, s.captured, s.received, s.fault⟩

/-- The supervision with something else heard. -/
def hear (s : Supervision) (x : Hearing) : Supervision :=
  { s with
    output := x.output, errors := x.errors, captured := x.captured, received := x.received,
    fault := x.fault }

/-- Only what was heard last counts. -/
@[simp] theorem hear_hear (s : Supervision) (x y : Hearing) : (s.hear x).hear y = s.hear y := rfl

end Hearing

/-! ### Streams -/

section Streams

/-- A stream that is replaced is something that was heard. -/
theorem exists_hear_setStream (s : Supervision) (e : Bool) (x : Stream) :
    ∃ y, s.setStream e x = s.hear y := by
  cases e
  · exact ⟨{ s.hearing with output := x }, rfl⟩
  · exact ⟨{ s.hearing with errors := x }, rfl⟩

theorem exists_hear_failReading (s : Supervision) (e : Bool) (f : StreamFault) :
    ∃ y, s.failReading e f = s.hear y := by
  obtain ⟨y, hy⟩ := exists_hear_setStream s e { s.stream e with reading := .failed }
  refine ⟨{ y with fault := s.fault <|> some f }, ?_⟩
  rw [failReading, hy]
  rfl

theorem exists_hear_capture (e : Bool) (s : Supervision) (line : Bytes) :
    ∃ y, capture e s line = s.hear y := by
  unfold capture
  split
  · exact ⟨s.hearing, rfl⟩
  · dsimp only
    split
    · split
      · exact exists_hear_failReading s e _
      · exact ⟨{ s.hearing with
          captured := ⟨e, textOf line⟩ :: s.captured
          received := ⟨e, textOf line⟩ :: s.received }, rfl⟩
    · exact ⟨{ s.hearing with captured := ⟨e, textOf line⟩ :: s.captured }, rfl⟩

theorem exists_hear_foldl_capture (e : Bool) (s : Supervision) (ls : List Bytes) :
    ∃ y, ls.foldl (capture e) s = s.hear y := by
  induction ls generalizing s with
  | nil => exact ⟨s.hearing, rfl⟩
  | cons l ls ih =>
    obtain ⟨y, hy⟩ := exists_hear_capture e s l
    obtain ⟨z, hz⟩ := ih (s.hear y)
    refine ⟨z, ?_⟩
    rw [List.foldl_cons, hy, hz, hear_hear]

/-- A piece of a stream changes only what has been heard. -/
theorem exists_hear_receive (s : Supervision) (e : Bool) (piece : Bytes) :
    ∃ y, s.receive e piece = s.hear y := by
  unfold receive
  split
  · exact ⟨s.hearing, rfl⟩
  obtain ⟨x, hx⟩ := exists_hear_setStream s e ((s.stream e).feed piece).1
  obtain ⟨y, hy⟩ := exists_hear_foldl_capture e (s.hear x) ((s.stream e).feed piece).2.1
  rw [hear_hear] at hy
  dsimp only
  rw [hx, hy]
  split
  · split
    · exact ⟨y, rfl⟩
    · obtain ⟨z, hz⟩ := exists_hear_failReading (s.hear y) e _
      exact ⟨z, hz.trans (hear_hear s y z)⟩
  · exact ⟨y, rfl⟩

/-- The end of a stream changes only what has been heard. -/
theorem exists_hear_closeStream (s : Supervision) (e : Bool) :
    ∃ y, s.closeStream e = s.hear y := by
  unfold closeStream
  split
  · exact ⟨s.hearing, rfl⟩
  obtain ⟨x, hx⟩ := exists_hear_setStream s e { (s.stream e).close.1 with reading := .going }
  obtain ⟨y, hy⟩ := exists_hear_foldl_capture e (s.hear x) (s.stream e).close.2
  rw [hear_hear] at hy
  dsimp only
  rw [hx, hy]
  split
  · exact ⟨y, rfl⟩
  · obtain ⟨z, hz⟩ := exists_hear_setStream (s.hear y) e (s.stream e).close.1
    exact ⟨z, hz.trans (hear_hear s y z)⟩

end Streams

/-! ### Steps -/

section Steps

/-- What is known of a command and of its token. The rest of a supervision says how it proceeds. -/
structure Facts extends Hearing where
  subject : Subject
  token : Option Bool
  started : Bool
  exitCode : Option Int

/-- What is known so far. -/
def facts (s : Supervision) : Facts :=
  ⟨s.hearing, s.subject, s.token, s.started, s.exitCode⟩

/-- Killing the child is asked for, and changes none of the facts. -/
theorem facts_kill (s : Supervision) : s.kill.facts = s.facts := by
  unfold kill
  split
  · rfl
  · split <;> rfl

/-- How the work ends changes none of the facts. -/
theorem facts_fail (s : Supervision) (why : Text) : (s.fail why).facts = s.facts := by
  unfold fail
  exact facts_kill _

theorem facts_succeed (s : Supervision) : s.succeed.facts = s.facts := by
  unfold succeed
  split
  · exact facts_fail s _
  · rfl

/-- Settling only draws conclusions from the facts. -/
theorem facts_settle (s : Supervision) : s.settle.facts = s.facts := by
  unfold settle
  split
  · split
    · exact facts_fail s _
    · split
      · exact facts_succeed s
      · rfl
  · rfl

/-- Noticing that the child has ended changes none of the facts. -/
theorem facts_notice (s : Supervision) : s.notice.facts = s.facts := by
  unfold notice
  split
  · exact facts_settle _
  · rfl

theorem facts_expire (s : Supervision) : s.expire.facts = s.facts := by
  unfold expire
  dsimp only
  split
  · exact (facts_succeed _).trans (facts_notice s)
  · exact facts_notice s

/-- Cancelling turns the token, if there is one, and nothing else. -/
theorem facts_cancel (s : Supervision) :
    s.cancel.facts = { s.facts with token := s.token.map fun _ => true } := by
  unfold cancel
  split
  · next htoken =>
    unfold facts
    rw [htoken]
    rfl
  · next htoken =>
    dsimp only
    rw [htoken]
    split
    · rfl
    · exact facts_fail _ _

/-- What has been heard when something has happened. -/
def heard (s : Supervision) : Happening → Hearing
  | .piece e bytes => (s.receive e bytes).hearing
  | .close e => (s.closeStream e).hearing
  | _ => s.hearing

/-- The token when something has happened. -/
def tokenAfter (s : Supervision) : Happening → Option Bool
  | .cancel => s.token.map fun _ => true
  | _ => s.token

/-- The code of the exit when something has happened. -/
def exitAfter (s : Supervision) : Happening → Option Int
  | .exit code => s.exitCode <|> some code
  | _ => s.exitCode

/-- A supervision that has ended does not change any more. -/
theorem step_of_ended (hs : s.ending.isSome = true) (h : Happening) : s.step h = s := by
  unfold step
  exact if_pos hs

/-- Nothing happens any more when the work has ended. -/
theorem step_of_ending {x : Ending} (hs : s.ending = some x) (h : Happening) : s.step h = s :=
  step_of_ended (Option.isSome_of_eq_some hs) h

/-- What is known after a step. -/
theorem facts_step (hs : s.ending = none) (h : Happening) :
    (s.step h).facts = ⟨s.heard h, s.subject, s.tokenAfter h, s.started, s.exitAfter h⟩ := by
  unfold step
  rw [if_neg (by rw [hs]; exact Bool.false_ne_true)]
  cases h with
  | piece e bytes =>
    obtain ⟨y, hy⟩ := exists_hear_receive s e bytes
    refine (facts_settle _).trans ?_
    rw [heard, hy]
    rfl
  | close e =>
    obtain ⟨y, hy⟩ := exists_hear_closeStream s e
    refine (facts_settle _).trans ?_
    rw [heard, hy]
    rfl
  | exit code => rfl
  | cancel => exact facts_cancel s
  | pause => exact facts_notice s
  | expiry => exact facts_expire s
  | abandon => exact facts_kill _

end Steps

end Supervision

end JitInspect
