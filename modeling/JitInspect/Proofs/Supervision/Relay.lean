import JitInspect.Proofs.Supervision.Capture
import JitInspect.Proofs.Supervision.Ending

/-!
# Lines that are relayed

The lines of the two streams of a command arrive mixed, and the end of the command, the ends of its
streams and the time that passes come between them. Nevertheless what is captured from a stream are
the first lines of that stream, in order (`Supervision.Hears`), and all of them when the stream ends
in time. `Supervision.run_relays` says this for every supervision, and what the report makes of the
lines.

The lines of a stream are those of its bytes as a whole, `Supervision.linesOf`, so the statements do
not mention how the bytes were cut into pieces.
-/

namespace JitInspect

namespace Supervision

variable {j : Subject} {token : Option Bool} {s s' : Supervision} {e : Bool}
  {past rest hs : List Happening} {h : Happening} {x : Ending}

/-! ### What a command writes -/

section Written

/-- Whether the command has a stream of errors, or one of output. -/
def Subject.has (j : Subject) (e : Bool) : Bool := if e then j.hasErrors else j.hasOutput

/-- The bytes that arrive from a stream up to its end. -/
def bytesOf (e : Bool) : List Happening → Bytes
  | [] => []
  | .piece e' bytes :: hs => if e' = e then bytes ++ bytesOf e hs else bytesOf e hs
  | .close e' :: hs => if e' = e then [] else bytesOf e hs
  | _ :: hs => bytesOf e hs

/-- The bytes that the command writes to a stream. -/
def Subject.written (j : Subject) (e : Bool) (hs : List Happening) : Bytes :=
  if j.has e then bytesOf e hs else []

/-- The line is not too long, and the receiver takes it. -/
def Subject.Accepts (j : Subject) (line : Bytes) : Prop :=
  line.length ≤ maxLineBytes ∧ j.refusedLine ≠ some (textOf line)

instance (j : Subject) (line : Bytes) : Decidable (j.Accepts line) :=
  inferInstanceAs (Decidable (_ ∧ _))

/-- Some line of the stream is too long or refused, whatever comes next. -/
def Subject.Balks (j : Subject) (e : Bool) (past : List Happening) : Prop :=
  ∀ rest, ∃ l ∈ linesOf (j.written e (past ++ rest)), ¬ j.Accepts l

/-- The bytes of a stream that goes on. -/
theorem bytesOf_append (hopen : Happening.close e ∉ past) (rest : List Happening) :
    bytesOf e (past ++ rest) = bytesOf e past ++ bytesOf e rest := by
  induction past with
  | nil => rfl
  | cons h past ih =>
    obtain ⟨hne, hopen⟩ := not_or.1 (List.mem_cons.not.1 hopen)
    have ih := ih hopen
    cases h with
    | piece e' bytes =>
      rw [List.cons_append, bytesOf, bytesOf]
      split
      · rw [ih, List.append_assoc]
      · exact ih
    | close e' =>
      have he : e' ≠ e := fun h => hne (by rw [h])
      rw [List.cons_append, bytesOf, bytesOf, if_neg he, if_neg he, ih]
    | _ => exact ih

/-- Nothing arrives from a stream behind its end. -/
theorem bytesOf_append_of_mem (hclose : Happening.close e ∈ past) (rest : List Happening) :
    bytesOf e (past ++ rest) = bytesOf e past := by
  induction past with
  | nil => exact absurd hclose List.not_mem_nil
  | cons h past ih =>
    cases h with
    | piece e' bytes =>
      have hmem : Happening.close e ∈ past := by simpa using hclose
      rw [List.cons_append, bytesOf, bytesOf, ih hmem]
    | close e' =>
      by_cases he : e' = e
      · rw [List.cons_append, bytesOf, bytesOf, if_pos he, if_pos he]
      · have hmem : Happening.close e ∈ past := by
          simpa [Ne.symm he] using hclose
        rw [List.cons_append, bytesOf, bytesOf, if_neg he, if_neg he, ih hmem]
    | _ => exact ih (by simpa using hclose)

end Written

/-! ### What is captured from a stream -/

section Hears

/-- What has been captured from a stream when the given things have happened. -/
inductive Hears (j : Subject) (s : Supervision) (e : Bool) (past : List Happening) : Prop where
  /-- The stream is being read. -/
  | going (ls : List Bytes) (hhas : j.has e = true) (hopen : Happening.close e ∉ past)
      (hgoing : (s.stream e).reading = .going) (hend : s.ending = none)
      (hfollows : (s.stream e).Follows (bytesOf e past) ls) (htexts : s.textsOf e = ls.map textOf)
  /-- The stream was read to its end, and all of its lines were captured. -/
  | closed (hclosed : (s.stream e).reading = .closed)
      (hall : ∀ rest, j.written e (past ++ rest) = j.written e past)
      (htexts : s.textsOf e = (linesOf (j.written e past)).map textOf)
  /-- The reading has failed, or the supervision ended before the stream. -/
  | part (hfront : ∀ rest, s.textsOf e <+: (linesOf (j.written e (past ++ rest))).map textOf)
      (hwhy : (s.stream e).reading = .failed ∧ j.Balks e past ∨
        (s.stream e).reading = .going ∧ s.ending.isSome = true)

/-- What was captured depends on what was heard only. -/
theorem textsOf_of_hearing (hsame : s'.hearing = s.hearing) (e : Bool) :
    s'.textsOf e = s.textsOf e := by
  have hcaptured : s'.captured = s.captured := congrArg Hearing.captured hsame
  rw [textsOf, textsOf, lines, lines, hcaptured]

theorem stream_of_hearing (hsame : s'.hearing = s.hearing) (e : Bool) :
    s'.stream e = s.stream e := by
  have houtput : s'.output = s.output := congrArg Hearing.output hsame
  have herrors : s'.errors = s.errors := congrArg Hearing.errors hsame
  rw [stream, stream, houtput, herrors]

/-- A receiver that has refused a line has refused it for good. -/
theorem Subject.Balks.later (hbalks : j.Balks e past) (h : Happening) :
    j.Balks e (past ++ [h]) := by
  intro rest
  rw [List.append_assoc]
  exact hbalks _

/-- What has been captured begins the lines of the stream. -/
theorem Hears.begins (hs : Hears j s e past) (rest : List Happening) :
    s.textsOf e <+: (linesOf (j.written e (past ++ rest))).map textOf := by
  cases hs with
  | going ls hhas hopen _ _ hfollows htexts =>
    rw [htexts, Subject.written, if_pos hhas, bytesOf_append hopen]
    exact (hfollows.begins _).map textOf
  | closed _ hall htexts =>
    rw [htexts, hall]
  | part hfront _ => exact hfront rest

/-- A stream that is being read. -/
theorem Hears.of_going (hs : Hears j s e past) (hgoing : (s.stream e).reading = .going)
    (hend : s.ending = none) :
    ∃ ls, j.has e = true ∧ Happening.close e ∉ past ∧
      (s.stream e).Follows (bytesOf e past) ls ∧ s.textsOf e = ls.map textOf := by
  cases hs with
  | going ls hhas hopen _ _ hfollows htexts => exact ⟨ls, hhas, hopen, hfollows, htexts⟩
  | closed hclosed _ _ =>
    rw [hclosed] at hgoing
    cases hgoing
  | part _ hwhy =>
    rcases hwhy with ⟨hfailed, _⟩ | ⟨_, hsome⟩
    · rw [hfailed] at hgoing
      cases hgoing
    · rw [hend] at hsome
      exact absurd hsome Bool.false_ne_true

/-- What matters is the stream and what was captured from it, and whether the supervision has
ended. -/
theorem Hears.of_same (hs : Hears j s e past) (hend : s.ending = none)
    (hstream : s'.stream e = s.stream e) (htexts' : s'.textsOf e = s.textsOf e) :
    Hears j s' e past := by
  have hbegins := hs.begins
  rw [← htexts'] at hbegins
  cases hs with
  | going ls hhas hopen hgoing _ hfollows htexts =>
    rw [← hstream] at hgoing hfollows
    cases hend' : s'.ending with
    | none => exact .going ls hhas hopen hgoing hend' hfollows (htexts'.trans htexts)
    | some x => exact .part hbegins (Or.inr ⟨hgoing, by rw [hend']; rfl⟩)
  | closed hclosed hall htexts => exact .closed (hstream ▸ hclosed) hall (htexts'.trans htexts)
  | part _ hwhy =>
    rcases hwhy with ⟨hfailed, hbalks⟩ | ⟨_, hsome⟩
    · exact .part hbegins (Or.inl ⟨hstream ▸ hfailed, hbalks⟩)
    · rw [hend] at hsome
      exact absurd hsome Bool.false_ne_true

/-- Whatever happens, nothing more is captured from a stream that is not read any more. -/
theorem Hears.later (hs : Hears j s e past) (h : Happening)
    (hover : (s.stream e).reading ≠ .going ∨ s.ending.isSome = true) :
    Hears j s e (past ++ [h]) := by
  cases hs with
  | going _ _ _ hgoing hend =>
    rcases hover with hnot | hsome
    · exact absurd hgoing hnot
    · rw [hend] at hsome
      exact absurd hsome Bool.false_ne_true
  | closed hclosed hall htexts =>
    refine .closed hclosed (fun rest => ?_) ?_
    · rw [List.append_assoc, hall, hall]
    · rw [htexts, hall]
  | part hfront hwhy =>
    refine .part (fun rest => ?_) ?_
    · rw [List.append_assoc]
      exact hfront _
    · rcases hwhy with ⟨hfailed, hbalks⟩ | hended
      · exact Or.inl ⟨hfailed, hbalks.later h⟩
      · exact Or.inr hended

/-- What happens elsewhere adds nothing to the stream. -/
theorem Hears.elsewhere (hs : Hears j s e past) (hbytes : bytesOf e [h] = [])
    (hne : h ≠ .close e) : Hears j s e (past ++ [h]) := by
  by_cases hover : (s.stream e).reading ≠ .going ∨ s.ending.isSome = true
  · exact hs.later h hover
  have hgoing : (s.stream e).reading = .going := not_not.1 (not_or.1 hover).1
  have hend : s.ending = none := Option.not_isSome_iff_eq_none.1 (not_or.1 hover).2
  obtain ⟨ls, hhas, hopen, hfollows, htexts⟩ := hs.of_going hgoing hend
  have hopen' : Happening.close e ∉ past ++ [h] := by
    rw [List.mem_append, List.mem_singleton]
    exact not_or.2 ⟨hopen, hne.symm⟩
  have hbytes' : bytesOf e (past ++ [h]) = bytesOf e past := by
    rw [bytesOf_append hopen, hbytes, List.append_nil]
  exact .going ls hhas hopen' hgoing hend (hbytes'.symm ▸ hfollows) htexts

/-- A piece of the stream. -/
theorem Hears.receive (hs : Hears j s e past) (hsubject : s.subject = j) (hend : s.ending = none)
    (piece : Bytes) : Hears j (s.receive e piece) e (past ++ [.piece e piece]) := by
  by_cases hgoing : (s.stream e).reading = .going
  · obtain ⟨ls, hhas, hopen, hfollows, htexts⟩ := hs.of_going hgoing hend
    obtain ⟨hbegins, hgoes, hlong⟩ := hfollows.feed piece
    have hopen' : Happening.close e ∉ past ++ [.piece e piece] := by simpa using hopen
    have hbytes : bytesOf e (past ++ [.piece e piece]) = bytesOf e past ++ piece := by
      rw [bytesOf_append hopen, bytesOf, if_pos rfl, bytesOf, List.append_nil]
    have hwritten : ∀ rest, j.written e (past ++ [.piece e piece] ++ rest) =
        bytesOf e past ++ piece ++ bytesOf e rest := by
      intro rest
      rw [Subject.written, if_pos hhas, bytesOf_append hopen', hbytes]
    have hend' : (s.receive e piece).ending = none := by
      obtain ⟨y, hy⟩ := exists_hear_receive s e piece
      rw [hy]
      exact hend
    cases receives_receive hgoing piece with
    | all htakes hnone hstream _ =>
      refine .going (ls ++ ((s.stream e).feed piece).2.1) hhas hopen' ?_ hend' ?_ ?_
      · rw [hstream, Stream.reading_feed, hgoing]
      · rw [hstream, hbytes]
        exact hgoes hnone
      · rw [htakes.texts, htexts, List.map_append]
    | @failed taken htakes hfront hfailed hwhy =>
      have hlines : ∀ rest, ls ++ taken <+:
          linesOf (j.written e (past ++ [.piece e piece] ++ rest)) := by
        intro rest
        rw [hwritten]
        exact ((List.prefix_append_right_inj ls).2 hfront).trans (hbegins _)
      refine .part (fun rest => ?_) (Or.inl ⟨hfailed, fun rest => ?_⟩)
      · rw [htakes.texts, htexts, ← List.map_append]
        exact (hlines rest).map textOf
      · rw [hwritten]
        rcases hwhy with hfault | ⟨l, hl, hrefused⟩
        · obtain ⟨l, hl, hlength⟩ := hlong hfault (bytesOf e rest)
          exact ⟨l, hl, fun haccepts => absurd haccepts.1 (Nat.not_le.2 hlength)⟩
        · have hmem := (hbegins (bytesOf e rest)).subset (List.mem_append_right ls hl)
          exact ⟨l, hmem, fun haccepts => haccepts.2 (hsubject ▸ hrefused)⟩
  · rw [receive_of_not_going hgoing]
    exact hs.later _ (Or.inl hgoing)

/-- The end of the stream. -/
theorem Hears.closeStream (hs : Hears j s e past) (hsubject : s.subject = j)
    (hend : s.ending = none) : Hears j (s.closeStream e) e (past ++ [.close e]) := by
  by_cases hgoing : (s.stream e).reading = .going
  · obtain ⟨ls, hhas, hopen, hfollows, htexts⟩ := hs.of_going hgoing hend
    have hmem : Happening.close e ∈ past ++ [.close e] := by simp
    have hbytes : bytesOf e (past ++ [.close e]) = bytesOf e past := by
      rw [bytesOf_append hopen, bytesOf, if_pos rfl, List.append_nil]
    have hwritten : ∀ rest, j.written e (past ++ [.close e] ++ rest) = bytesOf e past := by
      intro rest
      rw [Subject.written, if_pos hhas, bytesOf_append_of_mem hmem, hbytes]
    have hended : j.written e (past ++ [.close e]) = bytesOf e past := by
      rw [Subject.written, if_pos hhas, hbytes]
    have hlines := hfollows.close
    cases closes_closeStream hgoing with
    | all htakes hclosed _ =>
      refine .closed hclosed (fun rest => ?_) ?_
      · rw [hwritten, hended]
      · rw [hended, hlines, htakes.texts, htexts, List.map_append]
    | failed htakes hfront hfailed hwhy =>
      refine .part (fun rest => ?_) (Or.inl ⟨hfailed, fun rest => ?_⟩)
      · rw [hwritten, hlines, htakes.texts, htexts, ← List.map_append]
        exact ((List.prefix_append_right_inj ls).2 hfront).map textOf
      · obtain ⟨l, hl, hrefused⟩ := hwhy
        rw [hwritten, hlines]
        exact ⟨l, List.mem_append_right ls hl, fun haccepts => haccepts.2 (hsubject ▸ hrefused)⟩
  · rw [closeStream_of_not_going hgoing]
    exact hs.later _ (Or.inl hgoing)

end Hears

/-! ### Steps -/

section Steps

theorem eq_not_of_ne {e e' : Bool} (he : e' ≠ e) : e = !e' := by
  cases e <;> cases e' <;> first | rfl | exact absurd rfl he

/-- A happening is heard as long as the work goes on. -/
theorem hearing_step (hend : s.ending = none) (h : Happening) : (s.step h).hearing = s.heard h :=
  congrArg Facts.toHearing (facts_step hend h)

/-- How a stream stands behind one more happening. -/
theorem Hears.step (hs : Hears j s e past) (hsubject : s.subject = j) (h : Happening) :
    Hears j (s.step h) e (past ++ [h]) := by
  cases hend : s.ending with
  | some x =>
    rw [step_of_ending hend]
    exact hs.later h (Or.inr (by rw [hend]; rfl))
  | none =>
    have hsame := hearing_step hend h
    -- What is heard does not depend on the ending that the step may come to.
    have hstep : ∀ t : Supervision, t.ending = none → t.hearing = s.heard h →
        Hears j t e (past ++ [h]) → Hears j (s.step h) e (past ++ [h]) := by
      intro t ht hheard hears
      have hsame' := hsame.trans hheard.symm
      exact hears.of_same ht (stream_of_hearing hsame' e) (textsOf_of_hearing hsame' e)
    cases h with
    | piece e' bytes =>
      have hgoes : (s.receive e' bytes).ending = none := by
        obtain ⟨y, hy⟩ := exists_hear_receive s e' bytes
        rw [hy]
        exact hend
      refine hstep (s.receive e' bytes) hgoes rfl ?_
      by_cases he : e' = e
      · subst he
        exact hs.receive hsubject hend bytes
      · obtain ⟨ls, htakes, -⟩ := exists_takes_receive s e' bytes
        rw [eq_not_of_ne he] at hs ⊢
        refine (hs.of_same hend htakes.stream htakes.others).elsewhere ?_ (by simp)
        rw [bytesOf, if_neg (by cases e' <;> decide)]
        rfl
    | close e' =>
      have hgoes : (s.closeStream e').ending = none := by
        obtain ⟨y, hy⟩ := exists_hear_closeStream s e'
        rw [hy]
        exact hend
      refine hstep (s.closeStream e') hgoes rfl ?_
      by_cases he : e' = e
      · subst he
        exact hs.closeStream hsubject hend
      · obtain ⟨ls, htakes, -⟩ := exists_takes_closeStream s e'
        rw [eq_not_of_ne he] at hs ⊢
        refine (hs.of_same hend htakes.stream htakes.others).elsewhere ?_ (by simp)
        rw [bytesOf, if_neg (by cases e' <;> decide)]
        rfl
    | exit _ | cancel | pause | expiry | abandon =>
      exact hstep s hend rfl (hs.elsewhere rfl Happening.noConfusion)

/-- A stream that is not read any more stays as it is. -/
theorem stream_step (hover : (s.stream e).reading ≠ .going) (h : Happening) :
    (s.step h).stream e = s.stream e := by
  cases hend : s.ending with
  | some x => rw [step_of_ending hend]
  | none =>
    have hsame := hearing_step hend h
    cases h with
    | piece e' bytes =>
      refine (stream_of_hearing hsame e).trans ?_
      by_cases he : e' = e
      · rw [he, receive_of_not_going hover]
      · obtain ⟨ls, htakes, -⟩ := exists_takes_receive s e' bytes
        rw [eq_not_of_ne he, htakes.stream]
    | close e' =>
      refine (stream_of_hearing hsame e).trans ?_
      by_cases he : e' = e
      · rw [he, closeStream_of_not_going hover]
      · obtain ⟨ls, htakes, -⟩ := exists_takes_closeStream s e'
        rw [eq_not_of_ne he, htakes.stream]
    | exit _ | cancel | pause | expiry | abandon => exact stream_of_hearing hsame e

/-- A stream that is over stays as it is. -/
theorem stream_foldl (hover : (s.stream e).reading ≠ .going) (hs : List Happening) :
    (hs.foldl step s).stream e = s.stream e := by
  induction hs generalizing s with
  | nil => rfl
  | cons h hs ih =>
    have hstays := stream_step hover h
    rw [List.foldl_cons, ih (by rwa [hstays]), hstays]

/-- What a step adds to the captured lines. -/
theorem exists_takes_step (hend : s.ending = none) (h : Happening) :
    ∃ t e ls, (s.step h).hearing = t.hearing ∧ Takes s t e ls ∧
      (t.fault = s.fault ∨ (t.stream e).reading = .failed) := by
  have hsame := hearing_step hend h
  cases h with
  | piece e bytes =>
    obtain ⟨ls, htakes, hfault⟩ := exists_takes_receive s e bytes
    exact ⟨s.receive e bytes, e, ls, hsame, htakes, hfault⟩
  | close e =>
    obtain ⟨ls, htakes, hfault⟩ := exists_takes_closeStream s e
    exact ⟨s.closeStream e, e, ls, hsame, htakes, hfault⟩
  | exit _ | cancel | pause | expiry | abandon =>
    exact ⟨s, false, [], hsame, takes_refl s false, Or.inl rfl⟩

/-- What is found out when what has happened is settled. -/
theorem settle_ends (hend : s.ending = none) (hover : s.settle.ending.isSome = true) :
    s.settle.allClosed = true ∨ s.settle.fault ≠ none := by
  have hheard : s.settle.hearing = s.hearing := congrArg Facts.toHearing (facts_settle s)
  have hclosed : s.settle.allClosed = s.allClosed :=
    congrArg (fun y : Hearing => decide (y.output.reading = .closed) &&
      decide (y.errors.reading = .closed)) hheard
  have hfault : s.settle.fault = s.fault := congrArg Hearing.fault hheard
  rw [hclosed, hfault]
  by_contra hneither
  obtain ⟨hopen, hnone⟩ := not_or.1 hneither
  have hsame : s.settle = s := by
    unfold Supervision.settle
    rw [not_ne_iff.1 hnone]
    dsimp only
    rw [if_neg hopen, ite_self]
  rw [hsame, hend] at hover
  exact absurd hover Bool.false_ne_true

/-- Cancelling ends the work only by cancelling it. -/
theorem cancel_ends (hend : s.ending = none) (hover : s.cancel.ending.isSome = true) :
    s.cancel.isCancelled = true := by
  have htoken : s.cancel.token = s.token.map fun _ => true :=
    congrArg Facts.token (facts_cancel s)
  cases hs : s.token with
  | none =>
    have hsame : s.cancel = s := by rw [Supervision.cancel, hs]
    rw [hsame, hend] at hover
    exact absurd hover Bool.false_ne_true
  | some b =>
    rw [hs] at htoken
    exact decide_eq_true htoken

/-- A time that has run out ends the work only when the child has ended. -/
theorem expire_ends (hend : s.ending = none) (hrunning : s.Running)
    (hover : s.expire.ending.isSome = true) : s.exitCode.isSome = true := by
  by_contra hexit
  have hnoticed : s.noticed = false := by
    rw [Bool.eq_false_iff]
    exact fun hnoticed => hexit (hrunning.noticed hnoticed)
  have hsame : s.expire = s := by
    rw [expire, notice, if_neg hexit, hnoticed, Bool.false_and, if_neg Bool.false_ne_true]
  rw [hsame, hend] at hover
  exact Bool.false_ne_true hover

/-- What ends a supervision that goes on. -/
theorem step_ends (hend : s.ending = none) (hrunning : s.Running) (h : Happening)
    (hover : (s.step h).ending.isSome = true) :
    (s.step h).allClosed = true ∨ (s.step h).fault ≠ none ∨ (s.step h).isCancelled = true ∨
      (s.step h).ending = some .abandoned ∨ h = .expiry ∧ s.exitCode.isSome = true := by
  have hgoing : ¬ s.ending.isSome = true := by rw [hend]; exact Bool.false_ne_true
  unfold Supervision.step at hover ⊢
  rw [if_neg hgoing] at hover ⊢
  cases h with
  | piece e bytes =>
    obtain ⟨y, hy⟩ := exists_hear_receive s e bytes
    have hbefore : (s.receive e bytes).ending = none := by rw [hy]; exact hend
    exact (settle_ends hbefore hover).imp_right Or.inl
  | close e =>
    obtain ⟨y, hy⟩ := exists_hear_closeStream s e
    have hbefore : (s.closeStream e).ending = none := by rw [hy]; exact hend
    exact (settle_ends hbefore hover).imp_right Or.inl
  | exit code => exact absurd hover hgoing
  | cancel => exact Or.inr (Or.inr (Or.inl (cancel_ends hend hover)))
  | pause =>
    dsimp only [notice] at hover ⊢
    split at hover
    · next hexit =>
      have hbefore : ({ s with noticed := true } : Supervision).ending = none := hend
      rw [if_pos hexit]
      exact (settle_ends hbefore hover).imp_right Or.inl
    · exact absurd hover hgoing
  | expiry =>
    exact Or.inr (Or.inr (Or.inr (Or.inr ⟨rfl, expire_ends hend hrunning hover⟩)))
  | abandon =>
    refine Or.inr (Or.inr (Or.inr (Or.inl ?_)))
    rw [kill_eq]

end Steps

/-! ### Runs -/

section Runs

/-- How a stream stands at the start. -/
theorem hears_start (j : Subject) (token : Option Bool) (e : Bool) :
    Hears j (start j token) e [] := by
  have hheard : (start j token).hearing =
      ⟨streamOf j.hasOutput, streamOf j.hasErrors, [], [], none⟩ :=
    congrArg Facts.toHearing (facts_start j token)
  have hstream : (start j token).stream e = streamOf (j.has e) := by
    have houtput : (start j token).output = _ := congrArg Hearing.output hheard
    have herrors : (start j token).errors = _ := congrArg Hearing.errors hheard
    rw [stream, houtput, herrors]
    cases e <;> rfl
  have htexts : (start j token).textsOf e = [] := by
    have hcaptured : (start j token).captured = [] := congrArg Hearing.captured hheard
    rw [textsOf, lines, hcaptured]
    rfl
  cases hhas : j.has e with
  | false =>
    refine .closed ?_ (fun rest => ?_) ?_
    · rw [hstream, hhas]
      rfl
    · rw [Subject.written, Subject.written, hhas]
      rfl
    · rw [htexts, Subject.written, hhas]
      rfl
  | true =>
    have hgoing : ((start j token).stream e).reading = .going := by
      rw [hstream, hhas]
      rfl
    cases hend : (start j token).ending with
    | none =>
      refine .going [] hhas List.not_mem_nil hgoing hend ?_ htexts
      rw [hstream, hhas]
      exact Stream.follows_nil .going
    | some x =>
      refine .part (fun rest => ?_) (Or.inr ⟨hgoing, by rw [hend]; rfl⟩)
      rw [htexts]
      exact List.nil_prefix

/-- How it stands behind any happenings. -/
theorem hears_run (j : Subject) (token : Option Bool) (hs : List Happening) (e : Bool) :
    Hears j (run j token hs) e hs := by
  induction hs using List.reverseRecOn with
  | nil => exact hears_start j token e
  | append_singleton hs h ih =>
    rw [run_concat]
    exact ih.step (run_fixed j token hs).1 h

/-- The receiver got each line that was captured, once and in the same order. -/
theorem received_run (hreceiver : j.hasReceiver = true) (token : Option Bool)
    (hs : List Happening) : (run j token hs).received = (run j token hs).captured := by
  induction hs using List.reverseRecOn with
  | nil =>
    have hheard := congrArg Facts.toHearing (facts_start j token)
    exact (congrArg Hearing.received hheard).trans (congrArg Hearing.captured hheard).symm
  | append_singleton hs h ih =>
    rw [run_concat]
    cases hend : (run j token hs).ending with
    | some x => rw [step_of_ending hend, ih]
    | none =>
      obtain ⟨t, e, ls, hsame, htakes, -⟩ := exists_takes_step hend h
      have hreceived : t.received = t.captured :=
        htakes.received ((run_fixed j token hs).1.symm ▸ hreceiver) ih
      exact (congrArg Hearing.received hsame).trans
        (hreceived.trans (congrArg Hearing.captured hsame).symm)

/-- A fault comes from a line that is too long or refused. -/
theorem balks_of_fault (hfault : (run j token hs).fault ≠ none) : ∃ e, j.Balks e hs := by
  induction hs using List.reverseRecOn with
  | nil =>
    have hnone : (start j token).fault = none :=
      congrArg (fun f : Facts => f.fault) (facts_start j token)
    exact absurd hnone hfault
  | append_singleton hs h ih =>
    have hears := hears_run j token (hs ++ [h])
    rw [run_concat] at hfault hears
    cases hend : (run j token hs).ending with
    | some x =>
      rw [step_of_ending hend] at hfault
      obtain ⟨e, hbalks⟩ := ih hfault
      exact ⟨e, hbalks.later h⟩
    | none =>
      obtain ⟨t, e, ls, hsame, -, hcases⟩ := exists_takes_step hend h
      rcases hcases with hold | hfailed
      · have hnew : ((run j token hs).step h).fault = t.fault := congrArg Hearing.fault hsame
        rw [hnew, hold] at hfault
        obtain ⟨e, hbalks⟩ := ih hfault
        exact ⟨e, hbalks.later h⟩
      · rw [← stream_of_hearing hsame e] at hfailed
        cases hears e with
        | going _ _ _ hgoing _ _ _ =>
          rw [hfailed] at hgoing
          cases hgoing
        | closed hclosed _ _ =>
          rw [hfailed] at hclosed
          cases hclosed
        | part _ hwhy =>
          rcases hwhy with ⟨-, hbalks⟩ | ⟨hgoing, -⟩
          · exact ⟨e, hbalks⟩
          · rw [hfailed] at hgoing
            cases hgoing

end Runs

/-! ### Relays -/

section Relays

/-- No stream that is still open after the exit is given up. -/
def InTime (hs : List Happening) : Prop :=
  ∀ before code after, hs = before ++ .exit code :: after → Happening.expiry ∉ after

/-- A command is started, nobody cancels it or stops waiting for it, no line is too long, and the
receiver takes every line. -/
structure Undisturbed (j : Subject) (token : Option Bool) (hs : List Happening) : Prop where
  starts : j.startFault = none
  live : ¬ WasCancelled j token hs
  awaited : (run j token hs).ending ≠ some .abandoned
  accepted : ∀ e, ∀ l ∈ linesOf (j.written e hs), j.Accepts l

theorem InTime.of_append (h : InTime (hs ++ rest)) : InTime hs := by
  intro before code after hhs hmem
  refine h before code (after ++ rest) ?_ (List.mem_append_left rest hmem)
  rw [hhs, List.append_assoc, List.cons_append]

/-- Without a disturbance a supervision that has ended has printed what the command wrote. -/
theorem Undisturbed.fault (hu : Undisturbed j token (past ++ rest)) :
    (run j token past).fault = none := by
  by_contra hfault
  obtain ⟨e, hbalks⟩ := balks_of_fault hfault
  obtain ⟨l, hl, hnot⟩ := hbalks rest
  exact hnot (hu.accepted e l hl)

/-- Undisturbed work is not cancelled. -/
theorem Undisturbed.isCancelled (hu : Undisturbed j token (past ++ rest)) :
    (run j token past).isCancelled = false := by
  rw [Bool.eq_false_iff]
  exact fun hcancel => hu.live ((wasCancelled_of_isCancelled hcancel).append rest)

theorem Undisturbed.not_abandoned (hu : Undisturbed j token (past ++ rest)) :
    (run j token past).ending ≠ some .abandoned := by
  intro habandoned
  have hawaited := hu.awaited
  rw [run_append_of_ended (by rw [habandoned]; rfl)] at hawaited
  exact hawaited habandoned

/-- Without a disturbance the report says what the command has printed. -/
theorem Undisturbed.ends (hu : Undisturbed j token (past ++ rest))
    (hend : (run j token past).ending = some x) :
    (run j token past).exitCode.isSome = true ∧ x = .report
      { output := joined (run j token past).lines
        errors := joined ((run j token past).lines.filter (·.isError))
        process := some j.process
        code := (run j token past).exitCode } := by
  obtain ⟨hsubject, -, -⟩ := run_fixed j token past
  rcases sound_run j token past with ⟨hnone, -⟩ | ⟨y, hy, hfinished⟩
  · rw [hend] at hnone
    cases hnone
  have hxy : y = x := Option.some.inj (hy.symm.trans hend)
  subst hxy
  cases hfinished.ends with
  | printed _ hexit _ _ =>
    rw [hsubject]
    exact ⟨hexit, rfl⟩
  | failed hfails =>
    cases hfails with
    | cancelled hcancel =>
      exact absurd (hu.isCancelled.symm.trans hcancel) Bool.false_ne_true
    | start _ hwhy =>
      rw [hsubject, hu.starts] at hwhy
      cases hwhy
    | reading f _ hfault =>
      rw [hu.fault] at hfault
      cases hfault
  | abandoned _ => exact absurd hy hu.not_abandoned

/-- Without a disturbance only the ends of both streams end a supervision in time. -/
theorem Undisturbed.closed (hu : Undisturbed j token (past ++ rest)) (htime : InTime past)
    (hover : (run j token past).ending.isSome = true) : (run j token past).allClosed = true := by
  induction past using List.reverseRecOn generalizing rest with
  | nil =>
    obtain ⟨x, hx⟩ := Option.isSome_iff_exists.1 hover
    have hexit : (start j token).exitCode = none := congrArg Facts.exitCode (facts_start j token)
    have hsome : (start j token).exitCode.isSome = true := (hu.ends hx).1
    rw [hexit] at hsome
    exact absurd hsome Bool.false_ne_true
  | append_singleton past h ih =>
    have hu' : Undisturbed j token (past ++ ([h] ++ rest)) := by rwa [← List.append_assoc]
    by_cases hbefore : (run j token past).ending.isSome = true
    · rw [run_concat, step_of_ended hbefore]
      exact ih hu' htime.of_append hbefore
    · have hend : (run j token past).ending = none := Option.not_isSome_iff_eq_none.1 hbefore
      rcases sound_run j token past with ⟨-, hrunning⟩ | ⟨x, hx, -⟩
      · have hlive := hu.isCancelled
        have hfault := hu.fault
        have hawaited := hu.not_abandoned
        rw [run_concat] at hover hlive hfault hawaited ⊢
        rcases step_ends hend hrunning h hover with hclosed | hbad | hcancel | habandoned |
          ⟨rfl, hexit⟩
        · exact hclosed
        · exact absurd hfault hbad
        · exact absurd (hlive.symm.trans hcancel) Bool.false_ne_true
        · exact absurd habandoned hawaited
        · obtain ⟨before, code, after, rfl, -⟩ := (isSome_exitCode_run j token past).1 hexit
          refine absurd ?_ (htime before code (after ++ [.expiry]) ?_)
          · exact List.mem_append_right after (List.mem_singleton_self _)
          · rw [List.append_assoc, List.cons_append]
      · rw [hend] at hx
        cases hx

/-- A stream that ends in time is captured as a whole. -/
theorem Undisturbed.whole (hu : Undisturbed j token (past ++ rest)) (htime : InTime past)
    (hclose : j.has e = true → Happening.close e ∈ past) :
    (run j token (past ++ rest)).textsOf e =
      (linesOf (j.written e (past ++ rest))).map textOf := by
  have hclosed : ((run j token past).stream e).reading = .closed := by
    cases hears_run j token past e with
    | going _ hhas hopen _ _ _ _ => exact absurd (hclose hhas) hopen
    | closed hclosed _ _ => exact hclosed
    | part _ hwhy =>
      rcases hwhy with ⟨-, hbad⟩ | ⟨-, hover⟩
      · obtain ⟨l, hl, hnot⟩ := hbad rest
        exact absurd (hu.accepted e l hl) hnot
      · have hall := hu.closed htime hover
        rw [allClosed, Bool.and_eq_true, decide_eq_true_eq, decide_eq_true_eq] at hall
        cases e
        · exact hall.1
        · exact hall.2
  have hfinal : ((run j token (past ++ rest)).stream e).reading = .closed := by
    rw [run_append, stream_foldl (by rw [hclosed]; exact Reading.noConfusion), hclosed]
  cases hears_run j token (past ++ rest) e with
  | going _ _ _ hgoing _ _ _ =>
    rw [hfinal] at hgoing
    cases hgoing
  | closed _ _ htexts => exact htexts
  | part _ hwhy =>
    rcases hwhy with ⟨hfailed, -⟩ | ⟨hgoing, -⟩
    · rw [hfinal] at hfailed
      cases hfailed
    · rw [hfinal] at hgoing
      cases hgoing

/-- So much time behind the exit that open streams are given up, there is an end. -/
theorem ended_of_expiry (hexit : (run j token past).exitCode.isSome = true)
    (rest : List Happening) :
    (run j token (past ++ .expiry :: rest)).ending.isSome = true := by
  cases hend : (run j token past).ending with
  | some x =>
    rw [run_append_of_ended (by rw [hend]; rfl), hend]
    rfl
  | none =>
    obtain ⟨r, hr⟩ := exists_report_expire hexit hend
    have hstep : (run j token (past ++ [.expiry])).ending = some (.report r) := by
      rw [run_concat, step, hend, if_neg (by simp)]
      exact hr
    rw [List.append_cons, run_append_of_ended (by rw [hstep]; rfl), hstep]
    rfl

/-- A cancellation before the exit is noticed ends the supervision with what was captured. -/
theorem stopped_of_cancel (htoken : token.isSome = true) (hend : (run j token past).ending = none)
    (hnoticed : (run j token past).noticed = false) (rest : List Happening) :
    (∃ r, (run j token (past ++ .cancel :: rest)).ending = some (.report r)) ∧
      (run j token (past ++ .cancel :: rest)).captured = (run j token past).captured := by
  obtain ⟨b, hb⟩ := Option.isSome_iff_exists.1 ((run_fixed j token past).2.1.trans htoken)
  have hcaptured : (run j token (past ++ [.cancel])).captured = (run j token past).captured := by
    rw [run_concat]
    exact congrArg Hearing.captured (hearing_step hend .cancel)
  have hreport : ∃ r, (run j token (past ++ [.cancel])).ending = some (.report r) := by
    rw [run_concat, step, hend, if_neg (by simp), cancel, hb]
    dsimp only
    rw [hnoticed, if_neg Bool.false_ne_true]
    exact exists_report_fail _ _
  obtain ⟨r, hr⟩ := hreport
  rw [List.append_cons, run_append_of_ended (by rw [hr]; rfl)]
  exact ⟨⟨r, hr⟩, hcaptured⟩

/-- Joined lines are nothing when the lines are. -/
theorem joined_eq_nil_iff (ls : List CapturedLine) :
    joined ls = [] ↔ ∀ t ∈ ls.map (·.text), ∀ c ∈ t, Text.isNewline c = true := by
  have hsep : ∀ c ∈ "\n".toList, Text.isNewline c = true := by
    intro c hc
    rw [List.mem_singleton.1 hc]
    rfl
  rw [joined, Text.trim_eq_nil_iff, Text.forall_mem_join hsep]

/-- No errors are reported when every line of the stream of errors is empty. -/
theorem isEmpty_joined_errors (htexts : ∀ t ∈ s.textsOf true, ∃ line, t = textOf line) :
    (joined (s.lines.filter (·.isError))).isEmpty = true ↔ ∀ t ∈ s.textsOf true, t = [] := by
  have hfilter : (s.lines.filter (·.isError)).map (·.text) = s.textsOf true := by
    simp [textsOf]
  rw [List.isEmpty_iff, joined_eq_nil_iff, hfilter]
  refine forall₂_congr fun t ht => ?_
  obtain ⟨line, rfl⟩ := htexts t ht
  exact Text.trimEnd_eq_nil_iff.symm

/-- What becomes of the lines of a command. -/
structure Relays (j : Subject) (token : Option Bool) (hs : List Happening) : Prop where
  /-- The receiver gets each captured line once, in the order of the lines. -/
  received : j.hasReceiver = true → (run j token hs).received = (run j token hs).captured
  /-- What is captured from a stream are its first lines, in order. -/
  begins : ∀ e, (run j token hs).textsOf e <+: (linesOf (j.written e hs)).map textOf
  /-- A stream that ends before it is given up is captured as a whole. -/
  whole : Undisturbed j token hs → ∀ e past rest, hs = past ++ rest → InTime past →
    (j.has e = true → Happening.close e ∈ past) →
    (run j token hs).textsOf e = (linesOf (j.written e hs)).map textOf
  /-- When so much time has passed behind the exit that open streams are given up, there is an
  end. -/
  returns : ∀ past, (run j token past).exitCode.isSome = true → ∀ rest,
    hs = past ++ .expiry :: rest → (run j token hs).ending.isSome = true
  /-- A report always holds all captured lines. -/
  output : ∀ r, (run j token hs).ending = some (.report r) →
    r.output = joined (run j token hs).lines
  /-- Without a disturbance the errors are the lines of the stream of errors, and the command has
  succeeded when all of these are empty. -/
  report : Undisturbed j token hs → ∀ r, (run j token hs).ending = some (.report r) →
    r.errors = joined ((run j token hs).lines.filter (·.isError)) ∧
      (r.ok = true ↔ ∀ t ∈ (run j token hs).textsOf true, t = [])
  /-- A cancellation before the exit is noticed gives a report at once: nothing is captured behind
  it. -/
  stops : ∀ past rest, hs = past ++ .cancel :: rest → token.isSome = true →
    (run j token past).ending = none → (run j token past).noticed = false →
    (∃ r, (run j token hs).ending = some (.report r)) ∧
      (run j token hs).captured = (run j token past).captured

/-- Every supervision relays the lines of its command. -/
theorem run_relays (j : Subject) (token : Option Bool) (hs : List Happening) :
    Relays j token hs := by
  have hbegins : ∀ e, (run j token hs).textsOf e <+: (linesOf (j.written e hs)).map textOf := by
    intro e
    have hfront := (hears_run j token hs e).begins []
    rwa [List.append_nil] at hfront
  refine ⟨fun hreceiver => received_run hreceiver token hs, hbegins, ?_, ?_, ?_, ?_, ?_⟩
  · intro hu e past rest hsplit htime hclose
    subst hsplit
    exact hu.whole htime hclose
  · intro past hexit rest hsplit
    subst hsplit
    exact ended_of_expiry hexit rest
  · intro r hr
    rcases sound_run j token hs with ⟨hnone, -⟩ | ⟨x, hx, hfinished⟩
    · rw [hnone] at hr
      cases hr
    · have hxr : x = .report r := Option.some.inj (hx.symm.trans hr)
      have hends := hfinished.ends
      rw [hxr] at hends
      cases hends <;> rfl
  · intro hu r hr
    have hu' : Undisturbed j token (hs ++ []) := by rwa [List.append_nil]
    obtain ⟨-, hreport⟩ := hu'.ends hr
    have herrors : r.errors = joined ((run j token hs).lines.filter (·.isError)) :=
      congrArg Report.errors (Ending.report.inj hreport)
    refine ⟨herrors, ?_⟩
    rw [Report.ok, herrors]
    refine isEmpty_joined_errors fun t ht => ?_
    obtain ⟨line, -, rfl⟩ := List.mem_map.1 ((hbegins true).subset ht)
    exact ⟨line, rfl⟩
  · intro past rest hsplit htoken hend hnoticed
    subst hsplit
    exact stopped_of_cancel htoken hend hnoticed rest

/-- A line of output that arrives in two pieces, the second of them behind the exit, and a line of
errors between them. -/
def mixedLines : List Happening :=
  [.piece false [97], .piece true [98, 13, 10], .exit 0, .pause, .piece false [99, 10],
    .close true, .close false]

/-- Both lines are captured in the order in which they are finished, the receiver gets them, and the
line of errors makes the command fail. A line behind a cancellation is not captured. -/
theorem run_relays_mixed :
    (run plainCommand none mixedLines).textsOf false = ["ac".toList] ∧
      (run plainCommand none mixedLines).textsOf true = ["b".toList] ∧
      (run plainCommand none mixedLines).received = (run plainCommand none mixedLines).captured ∧
      ∃ r, (run plainCommand none mixedLines).ending = some (.report r) ∧
        r.output = "b\nac".toList ∧ r.errors = "b".toList ∧ r.ok = false ∧
      ∃ r', (run plainCommand (some false)
          [.piece false [97, 10], .cancel, .piece false [98, 10]]).ending = some (.report r') ∧
        r'.output = "a".toList := by
  have hrelays := run_relays plainCommand none mixedLines
  have hundisturbed : Undisturbed plainCommand none mixedLines := by
    refine ⟨rfl, nofun, by decide, fun e => ?_⟩
    cases e <;> decide
  have htime : InTime mixedLines := by
    intro before code after hsplit hmem
    have hlate : Happening.expiry ∈ mixedLines := by
      rw [hsplit]
      exact List.mem_append_right before (List.mem_cons_of_mem _ hmem)
    simp [mixedLines] at hlate
  have hwhole := fun e hclose =>
    hrelays.whole hundisturbed e mixedLines [] (List.append_nil _).symm htime hclose
  have houtput : (run plainCommand none mixedLines).textsOf false = ["ac".toList] :=
    (hwhole false fun _ => by simp [mixedLines]).trans (by decide)
  have herrors : (run plainCommand none mixedLines).textsOf true = ["b".toList] :=
    (hwhole true fun _ => by simp [mixedLines]).trans (by decide)
  have hended : (run plainCommand none mixedLines).ending = some (.report
      { output := "b\nac", errors := "b", process := some 7, code := some 0 }) := by decide
  have hok := (hrelays.report hundisturbed _ hended).2
  rw [herrors] at hok
  have hstopped := run_relays plainCommand (some false)
    [.piece false [97, 10], .cancel, .piece false [98, 10]]
  obtain ⟨⟨r', hr'⟩, hcaptured⟩ :=
    hstopped.stops [.piece false [97, 10]] [.piece false [98, 10]] rfl rfl (by decide) (by decide)
  have houtput' : r'.output = "a".toList := by
    rw [hstopped.output r' hr', lines, hcaptured]
    decide
  refine ⟨houtput, herrors, hrelays.received rfl, _, hended, rfl, rfl, ?_, r', hr', houtput'⟩
  exact Bool.eq_false_iff.2 fun h => absurd (hok.1 h _ (List.mem_singleton_self _)) (by decide)

end Relays

end Supervision

end JitInspect
