import JitInspect.Proofs.Supervision.Hearing
import JitInspect.Proofs.Supervision.Stream

/-!
# Lines that are captured

What a piece of a stream, or its end, adds to the captured lines: lines of that stream, in order,
and nothing to those of the other stream (`Supervision.Takes`). All lines that were read are captured,
unless the receiver refuses one of them; then the reading of the stream has failed
(`Supervision.Taking`). The same holds for a line, for the lines of a piece, and for the last line.
-/

namespace JitInspect

namespace Supervision

variable {s s' s'' : Supervision} {e : Bool} {ls new : List Bytes} {l : Bytes}

/-- The texts of the lines that were captured from a stream, in order. -/
def textsOf (s : Supervision) (e : Bool) : List Text :=
  (s.lines.filter (·.isError = e)).map (·.text)

/-! ### Replaced streams -/

section Streams

variable (s : Supervision) (e : Bool) (x : Stream) (f : StreamFault)

/-- The stream that was replaced. -/
@[simp] theorem stream_setStream : (s.setStream e x).stream e = x := by cases e <;> rfl

/-- The other stream stays. -/
@[simp] theorem stream_setStream_not : (s.setStream e x).stream (!e) = s.stream (!e) := by
  cases e <;> rfl

/-- The captured lines stay. -/
@[simp] theorem captured_setStream : (s.setStream e x).captured = s.captured := by cases e <;> rfl

/-- So do the lines that were handed on. -/
@[simp] theorem received_setStream : (s.setStream e x).received = s.received := by cases e <;> rfl

/-- So does the fault, if there is one. -/
@[simp] theorem fault_setStream : (s.setStream e x).fault = s.fault := by cases e <;> rfl

/-- So does what is supervised. -/
@[simp] theorem subject_setStream : (s.setStream e x).subject = s.subject := by cases e <;> rfl

/-- The stream of which the reading failed. -/
@[simp] theorem stream_failReading :
    (s.failReading e f).stream e = { s.stream e with reading := .failed } := by
  cases e <;> rfl

/-- The other stream is read on. -/
@[simp] theorem stream_failReading_not : (s.failReading e f).stream (!e) = s.stream (!e) := by
  cases e <;> rfl

/-- What was captured before stays. -/
@[simp] theorem captured_failReading : (s.failReading e f).captured = s.captured := by
  cases e <;> rfl

/-- So do the lines that were handed on. -/
@[simp] theorem received_failReading : (s.failReading e f).received = s.received := by
  cases e <;> rfl

/-- So does what is supervised. -/
@[simp] theorem subject_failReading : (s.failReading e f).subject = s.subject := by cases e <;> rfl

end Streams

/-! ### Lines taken from a stream -/

section Takes

/-- The lines `ls` of a stream were captured, and nothing else. -/
structure Takes (s s' : Supervision) (e : Bool) (ls : List Bytes) : Prop where
  texts : s'.textsOf e = s.textsOf e ++ ls.map textOf
  others : s'.textsOf (!e) = s.textsOf (!e)
  stream : s'.stream (!e) = s.stream (!e)
  subject : s'.subject = s.subject
  /-- Who receives the lines gets those that are captured. -/
  received : s.subject.hasReceiver = true → s.received = s.captured → s'.received = s'.captured

/-- Where nothing happens nothing is captured. -/
theorem takes_refl (s : Supervision) (e : Bool) : Takes s s e [] :=
  ⟨(List.append_nil _).symm, rfl, rfl, rfl, fun _ hsame => hsame⟩

/-- Lines that are captured one after another. -/
theorem Takes.trans (h : Takes s s' e ls) (h' : Takes s' s'' e new) :
    Takes s s'' e (ls ++ new) := by
  refine ⟨?_, h'.others.trans h.others, h'.stream.trans h.stream, h'.subject.trans h.subject, ?_⟩
  · rw [h'.texts, h.texts, List.append_assoc, List.map_append]
  · intro hreceiver hsame
    exact h'.received (h.subject.symm ▸ hreceiver) (h.received hreceiver hsame)

/-- Nothing is captured when only the stream changes. -/
theorem takes_setStream (s : Supervision) (e : Bool) (x : Stream) :
    Takes s (s.setStream e x) e [] := by
  have hlines : (s.setStream e x).lines = s.lines := by simp only [lines, captured_setStream]
  refine ⟨?_, ?_, by simp, by simp, ?_⟩
  · rw [textsOf, hlines, List.map_nil, List.append_nil]
    rfl
  · rw [textsOf, hlines]
    rfl
  · intro _ hsame
    rw [received_setStream, captured_setStream, hsame]

/-- Nor is anything captured when the reading fails. -/
theorem takes_failReading (s : Supervision) (e : Bool) (f : StreamFault) :
    Takes s (s.failReading e f) e [] := by
  have hlines : (s.failReading e f).lines = s.lines := by simp only [lines, captured_failReading]
  refine ⟨?_, ?_, by simp, by simp, ?_⟩
  · rw [textsOf, hlines, List.map_nil, List.append_nil]
    rfl
  · rw [textsOf, hlines]
    rfl
  · intro _ hsame
    rw [received_failReading, captured_failReading, hsame]

/-- One more captured line. -/
theorem takes_cons (hcaptured : s'.captured = ⟨e, textOf l⟩ :: s.captured)
    (hstream : s'.stream (!e) = s.stream (!e)) (hsubject : s'.subject = s.subject)
    (hreceived : s.subject.hasReceiver = true → s.received = s.captured →
      s'.received = s'.captured) : Takes s s' e [l] := by
  have hlines : s'.lines = s.lines ++ [⟨e, textOf l⟩] := by
    rw [lines, hcaptured, List.reverse_cons]
    rfl
  refine ⟨?_, ?_, hstream, hsubject, hreceived⟩
  · rw [textsOf, hlines, List.filter_append, List.map_append]
    simp [textsOf]
  · rw [textsOf, hlines, List.filter_append, List.map_append]
    cases e <;> simp [textsOf]

end Takes

/-! ### Capturing -/

section Capture

/-- The lines `ls` that were read from a stream are being captured: all of them, or those in front
of one that the receiver refuses. -/
inductive Taking (s s' : Supervision) (e : Bool) (ls : List Bytes) : Prop where
  | all (h : Takes s s' e ls) (hstream : s'.stream e = s.stream e) (hfault : s'.fault = s.fault)
  | refused {taken : List Bytes} (h : Takes s s' e taken) (hfront : taken <+: ls)
      (hfailed : (s'.stream e).reading = .failed)
      (hrefused : ∃ l ∈ ls, s.subject.refusedLine = some (textOf l))

/-- A line of a stream that is read is captured, unless the receiver refuses it. -/
theorem taking_capture (hreading : (s.stream e).reading ≠ .failed) (l : Bytes) :
    Taking s (capture e s l) e [l] := by
  unfold capture
  rw [if_neg hreading]
  dsimp only
  split
  · split
    · next hrefused =>
      refine .refused (takes_failReading s e .receiver) List.nil_prefix ?_
        ⟨l, List.mem_singleton_self l, hrefused⟩
      rw [stream_failReading]
    · refine .all (takes_cons rfl rfl rfl fun _ hsame => ?_) rfl rfl
      dsimp only
      rw [hsame]
  · next hnobody =>
    exact .all (takes_cons rfl rfl rfl fun hreceiver => absurd hreceiver hnobody) rfl rfl

/-- Nothing is captured from a stream that has failed. -/
theorem foldl_capture_of_failed (hfailed : (s.stream e).reading = .failed) (ls : List Bytes) :
    ls.foldl (capture e) s = s := by
  induction ls with
  | nil => rfl
  | cons l ls ih => rw [List.foldl_cons, capture, if_pos hfailed, ih]

/-- Of several lines those in front of the first one that is refused are captured. -/
theorem taking_foldl_capture (hreading : (s.stream e).reading ≠ .failed) (ls : List Bytes) :
    Taking s (ls.foldl (capture e) s) e ls := by
  induction ls generalizing s with
  | nil => exact .all (takes_refl s e) rfl rfl
  | cons l ls ih =>
    rw [List.foldl_cons]
    cases taking_capture hreading l with
    | all h hstream hfault =>
      have hgoing : ((capture e s l).stream e).reading ≠ .failed := by rwa [hstream]
      cases ih hgoing with
      | all h' hstream' hfault' =>
        exact .all (h.trans h') (hstream'.trans hstream) (hfault'.trans hfault)
      | refused h' hfront hfailed hrefused =>
        obtain ⟨l', hl', hline⟩ := hrefused
        refine .refused (h.trans h') (List.cons_prefix_cons.2 ⟨rfl, hfront⟩) hfailed
          ⟨l', List.mem_cons_of_mem l hl', ?_⟩
        rw [← hline, h.subject]
    | refused h hfront hfailed hrefused =>
      rw [foldl_capture_of_failed hfailed]
      obtain ⟨l', hl', hline⟩ := hrefused
      refine .refused h (hfront.trans (List.prefix_append [l] ls)) hfailed ⟨l', ?_, hline⟩
      exact List.mem_cons.2 (Or.inl (List.mem_singleton.1 hl'))

end Capture

/-! ### Pieces and ends of streams -/

section Reading

/-- What a piece of a stream brings: the lines that it finishes, or a part of them when the reading
fails. -/
inductive Receives (s s' : Supervision) (e : Bool) (piece : Bytes) : Prop where
  | all (h : Takes s s' e ((s.stream e).feed piece).2.1)
      (hnone : ((s.stream e).feed piece).2.2 = none)
      (hstream : s'.stream e = ((s.stream e).feed piece).1) (hfault : s'.fault = s.fault)
  | failed {taken : List Bytes} (h : Takes s s' e taken)
      (hfront : taken <+: ((s.stream e).feed piece).2.1)
      (hfailed : (s'.stream e).reading = .failed)
      (hwhy : ((s.stream e).feed piece).2.2 ≠ none ∨
        ∃ l ∈ ((s.stream e).feed piece).2.1, s.subject.refusedLine = some (textOf l))

/-- What a piece brings to a stream that is read on: `Stream.feed` finds the lines, and they are captured
one by one. -/
theorem receives_receive (hgoing : (s.stream e).reading = .going) (piece : Bytes) :
    Receives s (s.receive e piece) e piece := by
  unfold receive
  rw [if_neg (fun hnot => hnot hgoing)]
  dsimp only
  have hset := takes_setStream s e ((s.stream e).feed piece).1
  have hreading : ((s.setStream e ((s.stream e).feed piece).1).stream e).reading ≠ .failed := by
    rw [stream_setStream, Stream.reading_feed, hgoing]
    decide
  have htaking := taking_foldl_capture hreading ((s.stream e).feed piece).2.1
  generalize ((s.stream e).feed piece).2.1.foldl (capture e)
    (s.setStream e ((s.stream e).feed piece).1) = s' at htaking
  cases htaking with
  | all h hstream hfault =>
    have htakes := hset.trans h
    rw [stream_setStream] at hstream
    rw [fault_setStream] at hfault
    split
    · next f hf =>
      have hnot : (s'.stream e).reading ≠ .failed := by
        rw [hstream, Stream.reading_feed, hgoing]
        decide
      rw [if_neg hnot]
      refine .failed (htakes.trans (takes_failReading s' e f)) ?_ ?_ (Or.inl ?_)
      · simp
      · rw [stream_failReading]
      · rw [hf]
        exact Option.some_ne_none f
    · next hnone => exact .all htakes hnone hstream hfault
  | refused h hfront hfailed hrefused =>
    have htakes := hset.trans h
    rw [subject_setStream] at hrefused
    split
    · rw [if_pos hfailed]
      exact .failed htakes hfront hfailed (Or.inr hrefused)
    · exact .failed htakes hfront hfailed (Or.inr hrefused)

/-- What the end of a stream brings: the line that is left, unless the receiver refuses it. -/
inductive Closes (s s' : Supervision) (e : Bool) : Prop where
  | all (h : Takes s s' e (s.stream e).close.2) (hclosed : (s'.stream e).reading = .closed)
      (hfault : s'.fault = s.fault)
  | failed {taken : List Bytes} (h : Takes s s' e taken)
      (hfront : taken <+: (s.stream e).close.2) (hfailed : (s'.stream e).reading = .failed)
      (hwhy : ∃ l ∈ (s.stream e).close.2, s.subject.refusedLine = some (textOf l))

/-- What the end brings to a stream that is read on. -/
theorem closes_closeStream (hgoing : (s.stream e).reading = .going) :
    Closes s (s.closeStream e) e := by
  unfold closeStream
  rw [if_neg (fun hnot => hnot hgoing)]
  dsimp only
  generalize hx : ({ (s.stream e).close.1 with reading := .going } : Stream) = x
  have hset := takes_setStream s e x
  have hreading : ((s.setStream e x).stream e).reading ≠ .failed := by
    rw [stream_setStream, ← hx]
    exact Reading.noConfusion
  have htaking := taking_foldl_capture hreading (s.stream e).close.2
  generalize (s.stream e).close.2.foldl (capture e) (s.setStream e x) = s' at htaking
  cases htaking with
  | all h hstream hfault =>
    have hnot : (s'.stream e).reading ≠ .failed := by
      rw [hstream]
      exact hreading
    rw [if_neg hnot]
    have htakes := (hset.trans h).trans (takes_setStream s' e (s.stream e).close.1)
    rw [List.nil_append, List.append_nil] at htakes
    refine .all htakes ?_ ?_
    · rw [stream_setStream]
      rfl
    · rw [fault_setStream, hfault, fault_setStream]
  | refused h hfront hfailed hrefused =>
    rw [if_pos hfailed]
    rw [subject_setStream] at hrefused
    exact .failed (hset.trans h) hfront hfailed hrefused

/-- A stream that is not read any more brings nothing. -/
theorem receive_of_not_going (h : (s.stream e).reading ≠ .going) (piece : Bytes) :
    s.receive e piece = s := by
  unfold receive
  exact if_pos h

/-- Nor does its end. -/
theorem closeStream_of_not_going (h : (s.stream e).reading ≠ .going) : s.closeStream e = s := by
  unfold closeStream
  exact if_pos h

/-- Whether or not the stream is still read, a piece brings lines of that stream, and a fault only
when its reading fails. -/
theorem exists_takes_receive (s : Supervision) (e : Bool) (piece : Bytes) :
    ∃ ls, Takes s (s.receive e piece) e ls ∧
      ((s.receive e piece).fault = s.fault ∨ ((s.receive e piece).stream e).reading = .failed) := by
  by_cases hgoing : (s.stream e).reading = .going
  · cases receives_receive hgoing piece with
    | all h _ _ hfault => exact ⟨_, h, Or.inl hfault⟩
    | failed h _ hfailed _ => exact ⟨_, h, Or.inr hfailed⟩
  · rw [receive_of_not_going hgoing]
    exact ⟨[], takes_refl s e, Or.inl rfl⟩

/-- The same for the end of a stream. -/
theorem exists_takes_closeStream (s : Supervision) (e : Bool) :
    ∃ ls, Takes s (s.closeStream e) e ls ∧
      ((s.closeStream e).fault = s.fault ∨ ((s.closeStream e).stream e).reading = .failed) := by
  by_cases hgoing : (s.stream e).reading = .going
  · cases closes_closeStream hgoing with
    | all h _ hfault => exact ⟨_, h, Or.inl hfault⟩
    | failed h _ hfailed _ => exact ⟨_, h, Or.inr hfailed⟩
  · rw [closeStream_of_not_going hgoing]
    exact ⟨[], takes_refl s e, Or.inl rfl⟩

end Reading

end Supervision

end JitInspect
