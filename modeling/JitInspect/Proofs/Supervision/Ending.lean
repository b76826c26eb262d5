import JitInspect.Proofs.Supervision.Hearing
import JitInspect.Proofs.Text.Trim

/-!
# How a supervision ends

As long as a supervision goes on, nothing is killed, and once its token is cancelled it only waits
for what is left in the streams (`Supervision.Running`). When it has ended, it says why
(`Supervision.Ends`), and a command that was started and has not exited was killed and waited for
once (`Supervision.Finished`). One of the two holds after every sequence of happenings
(`Supervision.sound_run`), and `Supervision.run_endsCleanly` reads off what this means for a
cancelled token and for the command.
-/

namespace JitInspect

namespace Supervision

variable {j : Subject} {token : Option Bool} {s : Supervision} {x : Ending} {why : Text}
  {hs : List Happening}

/-! ### Kills and failures -/

section Failures

/-- Whether the command was started and has not exited. -/
def isLeft (s : Supervision) : Bool := s.started && s.exitCode.isNone

/-- Whether a command that was killed is waited for. -/
def Subject.isReaped (j : Subject) : Bool := j.killAnswer ≠ .refused

/-- A kill happens only to a command that is left. -/
theorem kill_eq (s : Supervision) :
    s.kill = { s with
      kills := s.kills + s.isLeft.toNat
      waits := s.waits + (s.isLeft && s.subject.isReaped).toNat } := by
  cases s with
  | mk subject token started output errors captured received fault exitCode =>
    unfold kill isLeft Subject.isReaped
    cases started
    · rfl
    · cases exitCode with
      | some code => rfl
      | none =>
        dsimp only
        cases subject.killAnswer <;> rfl

/-- A failure is logged and becomes the ending. -/
theorem fail_eq (s : Supervision) (why : Text) :
    s.fail why = { s with
      log := failureRecord s.subject.command why :: s.log
      ending := some (.report
        { output := joined s.lines
          errors := diagnosis s.subject why (joined s.lines)
          process := if s.started then some s.subject.process else none })
      kills := s.kills + s.isLeft.toNat
      waits := s.waits + (s.isLeft && s.subject.isReaped).toNat } := by
  rw [fail, kill_eq]
  rfl

/-- A failure is reported. -/
theorem exists_report_fail (s : Supervision) (why : Text) :
    ∃ r, (s.fail why).ending = some (.report r) := by
  rw [fail_eq]
  exact ⟨_, rfl⟩

/-- Work that succeeds has a report. -/
theorem exists_report_succeed (s : Supervision) : ∃ r, s.succeed.ending = some (.report r) := by
  unfold succeed
  split
  · exact exists_report_fail s _
  · exact ⟨_, rfl⟩

/-- A supervision that settles and still goes on waits for an exit or for the end of a stream. -/
theorem settle_cases (s : Supervision) :
    (s.settle = s ∧ (s.noticed = true → s.ending = none → s.fault = none ∧ s.allClosed = false)) ∨
      ∃ r, s.settle.ending = some (.report r) := by
  unfold settle
  split
  · split
    · exact Or.inr (exists_report_fail s _)
    · next hfault =>
      split
      · exact Or.inr (exists_report_succeed s)
      · next hopen => exact Or.inl ⟨rfl, fun _ _ => ⟨hfault, Bool.eq_false_iff.2 hopen⟩⟩
  · next hsettled =>
    refine Or.inl ⟨rfl, fun hnoticed hend => absurd ?_ hsettled⟩
    rw [hnoticed, hend]
    rfl

/-- A diagnosis begins with the words for a failure. -/
theorem prefix_diagnosis (j : Subject) (why output : Text) :
    diagnosis j why output ≠ [] ∧ "RunProcess failed:".toList <+: diagnosis j why output := by
  have hwords : "RunProcess failed: ".toList = "RunProcess failed:".toList ++ [' '] := rfl
  have hspace : decide (' ' = '\n') = false := rfl
  unfold diagnosis
  simp only [List.append_assoc]
  rw [hwords]
  generalize "RunProcess failed:".toList = words
  -- the blank behind the words is not trimmed
  generalize why ++ _ = rest
  have hfront := Text.prefix_trimEnd (· = '\n') hspace words rest
  refine ⟨fun hnil => ?_, (List.prefix_append words [' ']).trans hfront⟩
  rw [hnil] at hfront
  exact absurd (List.prefix_nil.1 hfront) (by simp)

end Failures

/-! ### Going on and being over -/

section Sound

/-- Why a supervision fails. -/
inductive Fails (s : Supervision) : Text → Prop where
  | cancelled (h : s.isCancelled = true) : Fails s Failure.cancelledMessage
  | start {why : Text} (hs : s.started = false) (h : s.subject.startFault = some why) : Fails s why
  | reading (f : StreamFault) (hs : s.started = true) (h : s.fault = some f) : Fails s f.message

/-- How a supervision ends: with what the command has printed, with a message about a failure, or
with nobody waiting for it. -/
inductive Ends (s : Supervision) : Ending → Prop where
  | printed (hs : s.started = true) (hexit : s.exitCode.isSome = true)
      (hcancel : s.isCancelled = false) (hfault : s.fault = none) :
      Ends s (.report
        { output := joined s.lines
          errors := joined (s.lines.filter (·.isError))
          process := some s.subject.process
          code := s.exitCode })
  | failed {why : Text} (h : Fails s why) :
      Ends s (.report
        { output := joined s.lines
          errors := diagnosis s.subject why (joined s.lines)
          process := if s.started then some s.subject.process else none })
  | abandoned (hs : s.started = true) : Ends s .abandoned

/-- A supervision that goes on. -/
structure Running (s : Supervision) : Prop where
  started : s.started = true
  kills : s.kills = 0
  waits : s.waits = 0
  /-- Only an exit that has happened is noticed. -/
  noticed : s.noticed = true → s.exitCode.isSome = true
  /-- With a cancelled token only the streams are still read. -/
  cancelled : s.isCancelled = true → s.noticed = true

/-- A supervision that has ended. -/
structure Finished (s : Supervision) (x : Ending) : Prop where
  ends : Ends s x
  kills : s.kills = s.isLeft.toNat
  waits : s.waits = (s.isLeft && s.subject.isReaped).toNat

/-- A supervision goes on, or it has ended. -/
def Sound (s : Supervision) : Prop :=
  s.ending = none ∧ s.Running ∨ ∃ x, s.ending = some x ∧ s.Finished x

/-- Nothing has been killed yet when a supervision fails. -/
theorem sound_fail (hkills : s.kills = 0) (hwaits : s.waits = 0) (h : Fails s why) :
    (s.fail why).Sound := by
  have hfails : Fails (s.fail why) why := by
    rw [fail_eq]
    cases h with
    | cancelled h => exact .cancelled h
    | start hs h => exact .start hs h
    | reading f hs h => exact .reading f hs h
  rw [fail_eq] at hfails ⊢
  refine Or.inr ⟨_, rfl, .failed hfails, ?_, ?_⟩
  · dsimp only
    rw [hkills, Nat.zero_add]
    rfl
  · dsimp only
    rw [hwaits, Nat.zero_add]
    rfl

/-- A supervision that is over has killed nothing when the command has exited. -/
theorem Running.finished (h : s.Running) (hexit : s.exitCode.isSome = true) (hx : Ends s x) :
    s.Finished x := by
  have hleft : s.isLeft = false := by
    have hnotNone : ¬ s.exitCode.isNone = true := by
      rw [Option.isNone_iff_eq_none]
      exact Option.isSome_iff_ne_none.1 hexit
    rw [isLeft, Bool.eq_false_iff.2 hnotNone, Bool.and_false]
  refine ⟨hx, ?_, ?_⟩
  · rw [h.kills, hleft]
    rfl
  · rw [h.waits, hleft]
    rfl

/-- The report is right when the end of the child was noticed and nothing went wrong. -/
theorem Running.succeed (h : s.Running) (hnoticed : s.noticed = true) (hfault : s.fault = none) :
    s.succeed.Sound := by
  unfold Supervision.succeed
  split
  · next hcancel => exact sound_fail h.kills h.waits (.cancelled hcancel)
  · next hcancel =>
    have hrunning : ∀ x, Running { s with ending := some x } := fun _ =>
      ⟨h.started, h.kills, h.waits, h.noticed, h.cancelled⟩
    exact Or.inr ⟨_, rfl, (hrunning _).finished (h.noticed hnoticed)
      (.printed h.started (h.noticed hnoticed) (Bool.eq_false_iff.2 hcancel) hfault)⟩

theorem Running.settle (h : s.Running) (hend : s.ending = none) : s.settle.Sound := by
  unfold Supervision.settle
  split
  · next hsettles =>
    have hnoticed : s.noticed = true := (Bool.and_eq_true_iff.1 hsettles).1
    split
    · next f hf => exact sound_fail h.kills h.waits (.reading f h.started hf)
    · next hfault =>
      split
      · exact h.succeed hnoticed hfault
      · exact Or.inl ⟨hend, h⟩
  · exact Or.inl ⟨hend, h⟩

/-- What is heard does not end a supervision by itself. -/
theorem Running.hear (h : s.Running) (y : Hearing) : (s.hear y).Running :=
  ⟨h.started, h.kills, h.waits, h.noticed, h.cancelled⟩

/-- Noticing the end of the child keeps the account right. -/
theorem Running.notice (h : s.Running) (hend : s.ending = none) : s.notice.Sound := by
  unfold Supervision.notice
  split
  · next hexit =>
    have hnoticed : Running { s with noticed := true } :=
      ⟨h.started, h.kills, h.waits, fun _ => hexit, fun _ => rfl⟩
    exact hnoticed.settle hend
  · exact Or.inl ⟨hend, h⟩

/-- When the exit has happened, a pause lets it be noticed, and a fault ends the supervision. -/
theorem notice_cases (hexit : s.exitCode.isSome = true) (hend : s.ending = none) :
    s.notice.ending = none ∧ s.notice.noticed = true ∧ s.notice.fault = none ∨
      ∃ r, s.notice.ending = some (.report r) := by
  unfold Supervision.notice
  rw [if_pos hexit]
  rcases settle_cases { s with noticed := true } with ⟨hsettle, hgoing⟩ | hreport
  · rw [hsettle]
    exact Or.inl ⟨hend, rfl, (hgoing rfl hend).1⟩
  · exact Or.inr hreport

/-- Streams that stay open after the exit do not keep a supervision going. -/
theorem exists_report_expire (hexit : s.exitCode.isSome = true) (hend : s.ending = none) :
    ∃ r, s.expire.ending = some (.report r) := by
  unfold Supervision.expire
  dsimp only
  rcases notice_cases hexit hend with ⟨hgoing, hnoticed, -⟩ | ⟨r, hr⟩
  · rw [if_pos (by rw [hnoticed, hgoing]; rfl)]
    exact exists_report_succeed _
  · rw [if_neg (by rw [hr, Option.isNone_some, Bool.and_false]; exact Bool.false_ne_true)]
    exact ⟨r, hr⟩

theorem Running.expire (h : s.Running) (hend : s.ending = none) : s.expire.Sound := by
  unfold Supervision.expire
  dsimp only
  split
  · next hopen =>
    obtain ⟨hnoticed, hgoing⟩ := Bool.and_eq_true_iff.1 hopen
    have hgoing : s.notice.ending = none := Option.isNone_iff_eq_none.1 hgoing
    rcases h.notice hend with ⟨-, hrunning⟩ | ⟨x, hx, -⟩
    · have hexit : s.notice.exitCode = s.exitCode := congrArg Facts.exitCode (facts_notice s)
      have hfault : s.notice.fault = none := by
        rcases notice_cases (hexit ▸ hrunning.noticed hnoticed) hend with ⟨-, -, hfault⟩ | ⟨r, hr⟩
        · exact hfault
        · rw [hgoing] at hr
          cases hr
      have hlogged : ∀ log, Running { s.notice with log } := fun _ =>
        ⟨hrunning.started, hrunning.kills, hrunning.waits, hrunning.noticed, hrunning.cancelled⟩
      exact (hlogged _).succeed hnoticed hfault
    · rw [hgoing] at hx
      cases hx
  · exact h.notice hend

theorem Running.cancel (h : s.Running) (hend : s.ending = none) : s.cancel.Sound := by
  unfold Supervision.cancel
  split
  · exact Or.inl ⟨hend, h⟩
  · dsimp only
    split
    · next hnoticed =>
      exact Or.inl ⟨hend, h.started, h.kills, h.waits, h.noticed, fun _ => hnoticed⟩
    · exact sound_fail h.kills h.waits (.cancelled rfl)

/-- One step. -/
theorem Sound.step (hs : s.Sound) (h : Happening) : (s.step h).Sound := by
  rcases hs with ⟨hend, hrunning⟩ | ⟨x, hend, hfinished⟩
  · unfold Supervision.step
    rw [if_neg (by rw [hend]; exact Bool.false_ne_true)]
    cases h with
    | piece e bytes =>
      obtain ⟨y, hy⟩ := exists_hear_receive s e bytes
      dsimp only
      rw [hy]
      exact (hrunning.hear y).settle hend
    | close e =>
      obtain ⟨y, hy⟩ := exists_hear_closeStream s e
      dsimp only
      rw [hy]
      exact (hrunning.hear y).settle hend
    | exit code =>
      refine Or.inl ⟨hend, hrunning.started, hrunning.kills, hrunning.waits, fun hnoticed => ?_,
        hrunning.cancelled⟩
      obtain ⟨code', hcode'⟩ := Option.isSome_iff_exists.1 (hrunning.noticed hnoticed)
      dsimp only
      rw [hcode']
      rfl
    | cancel => exact hrunning.cancel hend
    | pause => exact hrunning.notice hend
    | expiry => exact hrunning.expire hend
    | abandon =>
      dsimp only
      rw [kill_eq]
      refine Or.inr ⟨.abandoned, rfl, .abandoned hrunning.started, ?_, ?_⟩
      · dsimp only
        rw [hrunning.kills, Nat.zero_add]
        rfl
      · dsimp only
        rw [hrunning.waits, Nat.zero_add]
        rfl
  · rw [step_of_ending hend]
    exact Or.inr ⟨x, hend, hfinished⟩

end Sound

/-! ### Runs -/

section Runs

theorem run_append (j : Subject) (token : Option Bool) (hs hs' : List Happening) :
    run j token (hs ++ hs') = hs'.foldl step (run j token hs) :=
  List.foldl_append

theorem run_concat (j : Subject) (token : Option Bool) (hs : List Happening) (h : Happening) :
    run j token (hs ++ [h]) = (run j token hs).step h :=
  run_append j token hs [h]

/-- Nothing happens any more when the work has ended. -/
theorem foldl_step_of_ended (hend : s.ending.isSome = true) (hs : List Happening) :
    hs.foldl step s = s := by
  induction hs with
  | nil => rfl
  | cons h hs ih => rw [List.foldl_cons, step_of_ended hend, ih]

/-- Nothing happens any more behind the end of a run. -/
theorem run_append_of_ended (hend : (run j token hs).ending.isSome = true)
    (hs' : List Happening) : run j token (hs ++ hs') = run j token hs := by
  rw [run_append, foldl_step_of_ended hend]

/-- Whether the command is started. -/
def starts (j : Subject) (token : Option Bool) : Bool :=
  token ≠ some true && j.startFault.isNone

/-- The token behind the start. -/
def tokenAtStart (j : Subject) (token : Option Bool) : Option Bool :=
  if starts j token && j.cancelledAtStart then token.map fun _ => true else token

/-- What is known behind the start. -/
theorem facts_start (j : Subject) (token : Option Bool) :
    (start j token).facts =
      ⟨⟨streamOf j.hasOutput, streamOf j.hasErrors, [], [], none⟩, j, tokenAtStart j token,
        starts j token, none⟩ := by
  unfold start
  dsimp only
  split
  · next hcancel =>
    have htoken : token = some true := of_decide_eq_true hcancel
    rw [facts_fail, tokenAtStart, starts, htoken]
    rfl
  · next hlive =>
    have htoken : decide (token ≠ some true) = true :=
      decide_eq_true fun h => hlive (by rw [h]; rfl)
    split
    · next why hwhy =>
      rw [facts_fail, tokenAtStart, starts, htoken, hwhy]
      rfl
    · next hwhy =>
      have hstarts : starts j token = true := by rw [starts, htoken, hwhy]; rfl
      rw [tokenAtStart, hstarts]
      split
      · next hat =>
        rw [hat]
        split
        · rfl
        · rw [facts_fail]
          rfl
      · next hat =>
        rw [Bool.eq_false_iff.2 hat]
        rfl

/-- The account is right at the start, also when the child could not be started. -/
theorem sound_start (j : Subject) (token : Option Bool) : (start j token).Sound := by
  unfold start
  dsimp only
  split
  · next hcancel => exact sound_fail rfl rfl (.cancelled hcancel)
  · next hlive =>
    have hrunning : ∀ s : Supervision, s.started = true → s.kills = 0 → s.waits = 0 →
        s.noticed = false → s.isCancelled = false → s.Running := by
      intro s hstarted hkills hwaits hnoticed hcancel
      exact ⟨hstarted, hkills, hwaits, fun h => absurd (hnoticed.symm.trans h) Bool.false_ne_true,
        fun h => absurd (hcancel.symm.trans h) Bool.false_ne_true⟩
    split
    · next why hwhy => exact sound_fail rfl rfl (.start rfl hwhy)
    · split
      · split
        · exact Or.inl ⟨rfl, hrunning _ rfl rfl rfl rfl (Bool.eq_false_iff.2 hlive)⟩
        · exact sound_fail rfl rfl (.cancelled rfl)
      · exact Or.inl ⟨rfl, hrunning _ rfl rfl rfl rfl (Bool.eq_false_iff.2 hlive)⟩

/-- Every run goes on soundly or has ended soundly. -/
theorem sound_run (j : Subject) (token : Option Bool) (hs : List Happening) :
    (run j token hs).Sound := by
  induction hs using List.reverseRecOn with
  | nil => exact sound_start j token
  | append_singleton hs h ih =>
    rw [run_concat]
    exact ih.step h

/-- What does not change: what is supervised, whether there is a token, and whether the command was
started. -/
theorem step_fixed (s : Supervision) (h : Happening) :
    (s.step h).subject = s.subject ∧ (s.step h).token.isSome = s.token.isSome ∧
      (s.step h).started = s.started := by
  cases hend : s.ending with
  | some x =>
    rw [step_of_ending hend]
    exact ⟨rfl, rfl, rfl⟩
  | none =>
    have hfacts := facts_step hend h
    have htoken : (s.step h).token = s.tokenAfter h := congrArg Facts.token hfacts
    refine ⟨congrArg Facts.subject hfacts, ?_, congrArg Facts.started hfacts⟩
    rw [htoken]
    cases h with
    | cancel => exact Option.isSome_map
    | _ => rfl

/-- What is supervised stays the same, as does whether there is a token and whether the child was
started. -/
theorem run_fixed (j : Subject) (token : Option Bool) (hs : List Happening) :
    (run j token hs).subject = j ∧ (run j token hs).token.isSome = token.isSome ∧
      (run j token hs).started = starts j token := by
  induction hs using List.reverseRecOn with
  | nil =>
    have hfacts := facts_start j token
    have htoken : (start j token).token = tokenAtStart j token := congrArg Facts.token hfacts
    refine ⟨congrArg Facts.subject hfacts, ?_, congrArg Facts.started hfacts⟩
    rw [run, List.foldl_nil, htoken, tokenAtStart]
    split
    · exact Option.isSome_map
    · rfl
  | append_singleton hs h ih =>
    obtain ⟨hsubject, htoken, hstarted⟩ := step_fixed (run j token hs) h
    rw [run_concat]
    exact ⟨hsubject.trans ih.1, htoken.trans ih.2.1, hstarted.trans ih.2.2⟩

/-- A cancelled token stays cancelled. -/
theorem isCancelled_step (hs : s.isCancelled = true) (h : Happening) :
    (s.step h).isCancelled = true := by
  have htoken : s.token = some true := of_decide_eq_true hs
  cases hend : s.ending with
  | some x =>
    rw [step_of_ending hend]
    exact hs
  | none =>
    have hafter : (s.step h).token = s.tokenAfter h := congrArg Facts.token (facts_step hend h)
    rw [isCancelled, hafter, decide_eq_true_eq]
    cases h <;> simp [tokenAfter, htoken]

/-- Who was cancelled stays so. -/
theorem isCancelled_foldl (hs : s.isCancelled = true) (hs' : List Happening) :
    (hs'.foldl step s).isCancelled = true := by
  induction hs' generalizing s with
  | nil => exact hs
  | cons h hs' ih => exact ih (isCancelled_step hs h)

/-- The exit is known when it has happened while the supervision went on. -/
theorem isSome_exitCode_run (j : Subject) (token : Option Bool) (hs : List Happening) :
    (run j token hs).exitCode.isSome = true ↔
      ∃ before code after, hs = before ++ .exit code :: after ∧
        (run j token before).ending = none := by
  induction hs using List.reverseRecOn with
  | nil =>
    have hexit : (start j token).exitCode = none := congrArg Facts.exitCode (facts_start j token)
    rw [run, List.foldl_nil, hexit]
    simp
  | append_singleton hs h ih =>
    have hstep : ((run j token hs).step h).exitCode.isSome = true ↔
        (run j token hs).exitCode.isSome = true ∨
          (run j token hs).ending = none ∧ ∃ code, h = .exit code := by
      cases hend : (run j token hs).ending with
      | some x =>
        rw [step_of_ending hend]
        simp
      | none =>
        have hafter := congrArg Facts.exitCode (facts_step hend h)
        have hafter : ((run j token hs).step h).exitCode = (run j token hs).exitAfter h := hafter
        rw [hafter]
        cases h <;> simp [exitAfter]
    rw [run_concat, hstep, ih]
    constructor
    · rintro (⟨before, code, after, rfl, hend⟩ | ⟨hend, code, rfl⟩)
      · exact ⟨before, code, after ++ [h], by simp, hend⟩
      · exact ⟨hs, code, [], rfl, hend⟩
    · rintro ⟨before, code, after, hhs, hend⟩
      rcases List.eq_nil_or_concat after with rfl | ⟨after, h', rfl⟩
      · obtain ⟨rfl, hh⟩ := List.append_inj' hhs rfl
        exact Or.inr ⟨hend, code, (List.cons.inj hh).1⟩
      · rw [List.concat_eq_append, ← List.cons_append, ← List.append_assoc] at hhs
        obtain ⟨rfl, -⟩ := List.append_inj' hhs rfl
        exact Or.inl ⟨before, code, after, rfl, hend⟩

end Runs

/-! ### Clean ends -/

section Clean

/-- The token is cancelled before the supervision has ended: before the start, while the command is
being started, or later. -/
inductive WasCancelled (j : Subject) : Option Bool → List Happening → Prop where
  | before (hs : List Happening) : WasCancelled j (some true) hs
  | atStart (b : Bool) (hs : List Happening) (h : j.cancelledAtStart = true) :
      WasCancelled j (some b) hs
  | later (b : Bool) (before after : List Happening)
      (h : (run j (some b) before).ending = none) :
      WasCancelled j (some b) (before ++ .cancel :: after)

/-- A supervision of which the token was cancelled knows that, unless nothing was started. -/
theorem WasCancelled.known (h : WasCancelled j token hs) :
    (run j token hs).isCancelled = true ∨ (run j token hs).started = false := by
  have hstart : (start j token).token = tokenAtStart j token :=
    congrArg Facts.token (facts_start j token)
  cases h with
  | before =>
    refine Or.inl (isCancelled_foldl ?_ hs)
    rw [isCancelled, hstart]
    rfl
  | atStart b _ hat =>
    cases hstarts : starts j (some b) with
    | false => exact Or.inr ((run_fixed j (some b) hs).2.2.trans hstarts)
    | true =>
      refine Or.inl (isCancelled_foldl ?_ hs)
      rw [isCancelled, hstart, tokenAtStart, hstarts, hat]
      rfl
  | later b before after hend =>
    refine Or.inl ?_
    obtain ⟨c, hc⟩ := Option.isSome_iff_exists.1 (run_fixed j (some b) before).2.1
    have htoken : ((run j (some b) before).step .cancel).token = some true := by
      have hafter := congrArg Facts.token (facts_step hend .cancel)
      have hafter : ((run j (some b) before).step .cancel).token = _ := hafter
      rw [hafter, tokenAfter, hc]
      rfl
    rw [run_append]
    exact isCancelled_foldl (decide_eq_true htoken) after

theorem WasCancelled.append (h : WasCancelled j token hs) (hs' : List Happening) :
    WasCancelled j token (hs ++ hs') := by
  cases h with
  | before => exact .before _
  | atStart b _ hat => exact .atStart b _ hat
  | later b before after hend =>
    rw [List.append_assoc, List.cons_append]
    exact .later b before (after ++ hs') hend

/-- A token that is cancelled was cancelled before the supervision ended. -/
theorem wasCancelled_of_isCancelled (hcancel : (run j token hs).isCancelled = true) :
    WasCancelled j token hs := by
  induction hs using List.reverseRecOn with
  | nil =>
    have hstart : (start j token).token = tokenAtStart j token :=
      congrArg Facts.token (facts_start j token)
    rw [run, List.foldl_nil, isCancelled, hstart, decide_eq_true_eq, tokenAtStart] at hcancel
    split at hcancel
    · next hat =>
      obtain ⟨b, rfl, -⟩ := Option.map_eq_some_iff.1 hcancel
      exact .atStart b [] (Bool.and_eq_true_iff.1 hat).2
    · rw [hcancel]
      exact .before []
  | append_singleton hs h ih =>
    rw [run_concat] at hcancel
    cases hend : (run j token hs).ending with
    | some x =>
      rw [step_of_ending hend] at hcancel
      exact (ih hcancel).append [h]
    | none =>
      have hafter : ((run j token hs).step h).token = (run j token hs).tokenAfter h :=
        congrArg Facts.token (facts_step hend h)
      rw [isCancelled, hafter, decide_eq_true_eq] at hcancel
      cases h with
      | cancel =>
        have hsome : token.isSome = true := by
          rw [← (run_fixed j token hs).2.1, ← Option.isSome_map (f := fun _ => true)]
          exact Option.isSome_of_eq_some hcancel
        obtain ⟨b, rfl⟩ := Option.isSome_iff_exists.1 hsome
        exact .later b hs [] hend
      | piece _ _ | close _ | exit _ | pause | expiry | abandon =>
        exact (ih (decide_eq_true hcancel)).append _

/-- How a supervision comes to its end. -/
structure EndsCleanly (j : Subject) (token : Option Bool) (hs : List Happening) : Prop where
  /-- A cancellation is reported as a failure. -/
  diagnosed : WasCancelled j token hs → ∀ r, (run j token hs).ending = some (.report r) →
    r.ok = false ∧ "RunProcess failed:".toList <+: r.errors ∧
      ∃ why, r.errors = diagnosis j why r.output
  /-- A supervision that was cancelled gives a report, at the latest when streams that stay open are
  given up. -/
  returns : WasCancelled j token hs → (run j token hs).ending ≠ some .abandoned →
    ∃ r, (run j token (hs ++ [.expiry])).ending = some (.report r)
  /-- The command is started unless the token is cancelled before or the start fails. -/
  started : (run j token hs).started = true ↔ token ≠ some true ∧ j.startFault = none
  exited : (run j token hs).exitCode.isSome = true ↔
    ∃ before code after, hs = before ++ .exit code :: after ∧ (run j token before).ending = none
  /-- Nothing is killed while the supervision goes on. -/
  patient : (run j token hs).ending = none → (run j token hs).kills = 0
  /-- However a supervision ends, a command that was started and has not exited is killed, and no
  other. -/
  killed : (run j token hs).ending.isSome = true →
    (run j token hs).kills =
      if (run j token hs).started = true ∧ (run j token hs).exitCode = none then 1 else 0
  /-- What was killed is waited for. -/
  reaped : j.killAnswer ≠ .refused → (run j token hs).waits = (run j token hs).kills
  /-- Nothing happens any more behind the end. -/
  last : (run j token hs).ending.isSome = true → ∀ hs', run j token (hs ++ hs') = run j token hs

/-- A report is a diagnosis when the token is cancelled or nothing was started. -/
theorem Ends.diagnosed {r : Report} (h : Ends s (.report r))
    (hs : s.isCancelled = true ∨ s.started = false) :
    r.ok = false ∧ "RunProcess failed:".toList <+: r.errors ∧
      ∃ why, r.errors = diagnosis s.subject why r.output := by
  cases h with
  | printed hstarted _ hlive _ =>
    rcases hs with hcancel | hnot
    · exact absurd (hlive.symm.trans hcancel) Bool.false_ne_true
    · exact absurd (hnot.symm.trans hstarted) Bool.false_ne_true
  | @failed why _ =>
    obtain ⟨hne, hfront⟩ := prefix_diagnosis s.subject why (joined s.lines)
    dsimp only [Report.ok]
    refine ⟨Bool.eq_false_iff.2 fun hempty => hne (List.isEmpty_iff.1 hempty), hfront, why, rfl⟩

/-- Every supervision comes to a clean end. -/
theorem run_endsCleanly (j : Subject) (token : Option Bool) (hs : List Happening) :
    EndsCleanly j token hs := by
  obtain ⟨hsubject, -, hstarted⟩ := run_fixed j token hs
  have hlast : (run j token hs).ending.isSome = true →
      ∀ hs', run j token (hs ++ hs') = run j token hs := run_append_of_ended
  have hstarts : (run j token hs).started = true ↔ token ≠ some true ∧ j.startFault = none := by
    rw [hstarted, starts, Bool.and_eq_true, decide_eq_true_eq, Option.isNone_iff_eq_none]
  rcases sound_run j token hs with ⟨hend, hrunning⟩ | ⟨x, hend, hfinished⟩
  · have hgoing : (run j token hs).ending.isSome = true → False := by
      rw [hend]
      exact Bool.false_ne_true
    refine ⟨fun _ r hr => ?_, fun hwas _ => ?_, hstarts, isSome_exitCode_run j token hs,
      fun _ => hrunning.kills, fun h => (hgoing h).elim, fun _ => ?_, hlast⟩
    · rw [hend] at hr
      cases hr
    · have hcancel : (run j token hs).isCancelled = true := by
        rcases hwas.known with hcancel | hnot
        · exact hcancel
        · exact absurd (hnot.symm.trans hrunning.started) Bool.false_ne_true
      have hexit := hrunning.noticed (hrunning.cancelled hcancel)
      rw [run_concat, step, if_neg hgoing]
      exact exists_report_expire hexit hend
    · rw [hrunning.waits, hrunning.kills]
  · have hover : (run j token hs).ending.isSome = true := by rw [hend]; rfl
    refine ⟨fun hwas r hr => ?_, fun _ hreport => ?_, hstarts, isSome_exitCode_run j token hs,
      fun hnone => ?_, fun _ => ?_, fun hreaps => ?_, hlast⟩
    · have hx : x = .report r := Option.some.inj (hend.symm.trans hr)
      have hends := hfinished.ends
      rw [hx] at hends
      have hdiagnosed := hends.diagnosed hwas.known
      rwa [hsubject] at hdiagnosed
    · rw [hlast hover, hend]
      cases x with
      | report r => exact ⟨r, rfl⟩
      | abandoned => exact absurd hend hreport
    · rw [hnone] at hover
      exact absurd hover Bool.false_ne_true
    · rw [hfinished.kills, isLeft]
      cases (run j token hs).started <;> cases (run j token hs).exitCode <;> rfl
    · have hreaped : (run j token hs).subject.isReaped = true := by
        rw [hsubject]
        exact decide_eq_true hreaps
      rw [hfinished.waits, hfinished.kills, hreaped, Bool.and_true]

/-- A command without arguments. -/
def plainCommand : Subject :=
  { command := { executable := "sleep", args := [] }, folder := "/", process := 7 }

/-- A command that is cancelled while it runs is killed and waited for. One that is cancelled while
its streams are still read has exited and is not killed, and its cancellation is reported, too. -/
theorem run_endsCleanly_cancelled :
    (∃ r, (run plainCommand (some false) [.cancel]).ending = some (.report r) ∧ r.ok = false) ∧
      (run plainCommand (some false) [.cancel]).kills = 1 ∧
      (run plainCommand (some false) [.cancel]).waits = 1 ∧
      (∃ r, (run plainCommand (some false) [.exit 0, .pause, .cancel, .expiry]).ending =
        some (.report r) ∧ r.ok = false) ∧
      (run plainCommand (some false) [.exit 0, .pause, .cancel, .expiry]).kills = 0 := by
  have hended : (run plainCommand (some false) [.cancel]).ending.isSome = true := by decide
  have hclean := run_endsCleanly plainCommand (some false) [.cancel]
  have hwas : WasCancelled plainCommand (some false) [.cancel] := .later false [] [] (by decide)
  obtain ⟨r, hr⟩ := hclean.returns hwas (by decide)
  rw [hclean.last hended] at hr
  have hkills : (run plainCommand (some false) [.cancel]).kills = 1 := by
    rw [hclean.killed hended]
    decide
  have hwaits := (hclean.reaped (by decide)).trans hkills
  have hdrained := run_endsCleanly plainCommand (some false) [.exit 0, .pause, .cancel, .expiry]
  have hwas' : WasCancelled plainCommand (some false) [.exit 0, .pause, .cancel, .expiry] :=
    .later false [.exit 0, .pause] [.expiry] (by decide)
  have hended' : (run plainCommand (some false)
      [.exit 0, .pause, .cancel, .expiry]).ending.isSome = true := by decide
  obtain ⟨r', hr'⟩ := hdrained.returns hwas' (by decide)
  rw [hdrained.last hended'] at hr'
  refine ⟨⟨r, hr, (hclean.diagnosed hwas r hr).1⟩, hkills, hwaits,
    ⟨r', hr', (hdrained.diagnosed hwas' r' hr').1⟩, ?_⟩
  rw [hdrained.killed hended']
  decide

end Clean

end Supervision

end JitInspect
