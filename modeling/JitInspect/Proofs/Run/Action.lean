import JitInspect.Proofs.FileTree.Removing
import JitInspect.Run.Perform

/-!
# How actions are performed

An action is a program over the world that may fail. `Action.perform` shows how it ends and the
world that it leaves behind. This file says so for each of the constructs that actions are written
with and for each of the elementary actions, so that the actions of a run are opened step by step:
a sequence is performed by `perform_bind`, and what stands at its front by the lemma of its name.
-/

namespace JitInspect

namespace Action

variable {α β : Type}

/-! ### Constructs -/

section Constructs

/-- A value is handed over in the same world. -/
@[simp] theorem perform_pure (x : α) (w : World) :
    (pure x : Action α).perform w = (.ok x, w) := rfl

/-- A failure leaves the world as it is. -/
@[simp] theorem perform_throw (f : Failure) (w : World) :
    (throw f : Action α).perform w = (.error f, w) := rfl

/-- The world that is handed over is the one at hand. -/
@[simp] theorem perform_get (w : World) : (get : Action World).perform w = (.ok w, w) := rfl

/-- A modification always ends well. -/
@[simp] theorem perform_modify (g : World → World) (w : World) :
    (modify g : Action PUnit).perform w = (.ok ⟨⟩, g w) := rfl

/-- A sequence goes on where its first action left the world, unless that one failed. -/
theorem perform_bind (a : Action α) (g : α → Action β) (w : World) :
    (a >>= g).perform w =
      match a.perform w with
      | (.ok x, w₁) => (g x).perform w₁
      | (.error f, w₁) => (.error f, w₁) := by
  unfold perform ExceptT.run StateT.run
  simp only [bind, ExceptT.bind, ExceptT.mk, StateT.bind, ExceptT.bindCont]
  rcases a w with ⟨_ | _, _⟩ <;> rfl

/-- The first action of a sequence ended well. -/
theorem perform_bind_of_ok {a : Action α} {g : α → Action β} {w w₁ : World} {x : α}
    (h : a.perform w = (.ok x, w₁)) : (a >>= g).perform w = (g x).perform w₁ := by
  rw [perform_bind, h]

/-- The first action of a sequence failed. -/
theorem perform_bind_of_error {a : Action α} {g : α → Action β} {w w₁ : World} {f : Failure}
    (h : a.perform w = (.error f, w₁)) : (a >>= g).perform w = (.error f, w₁) := by
  rw [perform_bind, h]

/-- A sequence that ended well went on where its first action ended well. -/
theorem perform_bind_eq_ok {a : Action α} {g : α → Action β} {w w₁ : World} {y : β} :
    (a >>= g).perform w = (.ok y, w₁) ↔
      ∃ x w₂, a.perform w = (.ok x, w₂) ∧ (g x).perform w₂ = (.ok y, w₁) := by
  rw [perform_bind]
  rcases a.perform w with ⟨f | x, w₂⟩
  · simp
  · simp

/-- A function of the result leaves the world to the action. -/
theorem perform_map (g : α → β) (a : Action α) (w : World) :
    (g <$> a).perform w = ((a.perform w).1.map g, (a.perform w).2) := by
  unfold perform ExceptT.run StateT.run
  simp only [Functor.map, ExceptT.map, ExceptT.mk, bind, StateT.bind]
  rcases a w with ⟨_ | _, _⟩ <;> rfl

/-- A failure is handled in the world that the failed action left behind. -/
theorem perform_tryCatch (a : Action α) (handle : Failure → Action α) (w : World) :
    (tryCatch a handle).perform w =
      match a.perform w with
      | (.ok x, w₁) => (.ok x, w₁)
      | (.error f, w₁) => (handle f).perform w₁ := by
  unfold perform ExceptT.run StateT.run
  simp only [tryCatch, tryCatchThe, MonadExceptOf.tryCatch, ExceptT.tryCatch, ExceptT.mk, bind,
    StateT.bind]
  rcases a w with ⟨_ | _, _⟩ <;> rfl

/-- An action that is tried hands its end over as a value. -/
theorem perform_try (a : Action α) (w : World) :
    (tryCatch (Except.ok <$> a) fun f => pure (.error f) : Action (Except Failure α)).perform w =
      (.ok (a.perform w).1, (a.perform w).2) := by
  rw [perform_tryCatch, perform_map]
  rcases a.perform w with ⟨_ | _, _⟩ <;> rfl

/-- The cleanup follows in any case. When it ends well it leaves the end of the action as it is. -/
theorem perform_thenAlways (a : Action α) {cleanup : Action Unit} {w w₁ : World}
    (h : cleanup.perform (a.perform w).2 = (.ok (), w₁)) :
    (a.thenAlways cleanup).perform w = ((a.perform w).1, w₁) := by
  unfold thenAlways
  rw [perform_bind_of_ok (perform_try a w), perform_bind_of_ok h]
  cases (a.perform w).1 <;> rfl

end Constructs

/-! ### Elementary actions -/

section Elementary

/-- A checkpoint fails exactly when the run was cancelled, and changes nothing. -/
theorem perform_checkpoint (w : World) :
    checkpoint.perform w =
      (if w.isCancelled then .error (.cancelled Failure.cancelledMessage) else .ok (), w) := by
  unfold checkpoint
  rw [perform_bind_of_ok (perform_get w)]
  by_cases h : w.isCancelled = true
  · rw [if_pos h, if_pos h]
    rfl
  · rw [if_neg h, if_neg h]
    rfl

/-- A checkpoint of a run that was cancelled. -/
theorem perform_checkpoint_of_isCancelled {w : World} (h : w.isCancelled = true) :
    checkpoint.perform w = (.error (.cancelled Failure.cancelledMessage), w) := by
  rw [perform_checkpoint, if_pos h]

/-- A checkpoint of a run that was not. -/
theorem perform_checkpoint_of_not_isCancelled {w : World} (h : w.isCancelled = false) :
    checkpoint.perform w = (.ok (), w) := by
  rw [perform_checkpoint, h]
  rfl

/-- What is reported comes in front of the progress so far. -/
@[simp] theorem perform_report (t : Text) (w : World) :
    (report t).perform w = (.ok (), { w with progress := t :: w.progress }) := rfl

/-- A record comes in front of the log so far. -/
@[simp] theorem perform_log (r : LogRecord) (w : World) :
    (log r).perform w = (.ok (), { w with log := r :: w.log }) := rfl

/-- Adding records to the log always ends well. -/
theorem perform_logs (rs : List LogRecord) (w : World) :
    ∃ records, (rs.forM log).perform w = (.ok (), { w with log := records }) := by
  induction rs generalizing w with
  | nil => exact ⟨w.log, rfl⟩
  | cons r rs ih =>
    obtain ⟨records, hrest⟩ := ih { w with log := r :: w.log }
    exact ⟨records, (perform_bind_of_ok (perform_log r w)).trans hrest⟩

/-- Files that are set down for deletion come behind the ones so far. -/
@[simp] theorem perform_deleteLater (files : List Text) (w : World) :
    (deleteLater files).perform w = (.ok (), { w with toDelete := w.toDelete ++ files }) := rfl

/-- A question is answered by the disk at hand, which stays as it is. -/
theorem perform_ask (question : Disk → Except FileFault α) (w : World) :
    (ask question).perform w = ((question w.disk).mapError Failure.ofFile, w) := by
  unfold ask
  rw [perform_bind_of_ok (perform_get w)]
  cases question w.disk <;> rfl

/-- The answer to a question that could be answered. -/
theorem perform_ask_eq_ok {question : Disk → Except FileFault α} {w w₁ : World} {x : α} :
    (ask question).perform w = (.ok x, w₁) ↔ question w.disk = .ok x ∧ w = w₁ := by
  rw [perform_ask, Prod.mk.injEq]
  cases question w.disk <;> simp [Except.mapError]

/-- A change leaves its mark on the disk also when it fails. -/
theorem perform_change (c : Disk.Change α) (w : World) :
    (change c).perform w =
      ((StateT.run c.run w.disk).1.mapError Failure.ofFile,
        { w with disk := (StateT.run c.run w.disk).2 }) := by
  unfold change
  rw [perform_bind_of_ok (perform_get w)]
  rcases StateT.run c.run w.disk with ⟨_ | _, _⟩ <;> rfl

/-- A computation without effects hands over its result or its failure. -/
theorem perform_lift {ε : Type} (toFailure : ε → Failure) (e : Except ε α) (w : World) :
    (lift toFailure e).perform w = (e.mapError toFailure, w) := by
  cases e <;> rfl

/-- What a step gave that may fail for a reason of its own. -/
theorem perform_lift_eq_ok {ε : Type} {toFailure : ε → Failure} {e : Except ε α} {w w₁ : World}
    {x : α} : (lift toFailure e).perform w = (.ok x, w₁) ↔ e = .ok x ∧ w = w₁ := by
  rw [perform_lift, Prod.mk.injEq]
  cases e <;> simp [Except.mapError]

/-- A step that fails for a reason of its own, when that is a failure already. -/
theorem perform_lift_id (e : Except Failure α) (w : World) : (lift id e).perform w = (e, w) := by
  cases e <;> rfl

/-- A file is read with what is not well-formed replaced, and with one kind of line break. -/
theorem perform_readText (file : Text) (w : World) :
    (readText file).perform w =
      (((w.disk.readBytes file).map fun b => Text.unifyNewlines (Text.ofUtf8 b)).mapError
        Failure.ofFile, w) :=
  perform_ask _ w

/-- A file is written, unless the disk refuses it and stays as it is. -/
theorem perform_writeText (file content : Text) (w : World) :
    (writeText file content).perform w =
      match w.disk.writeBytes file (Text.toUtf8 content) with
      | .ok disk => (.ok (), { w with disk })
      | .error f => (.error (.ofFile f), w) := by
  unfold writeText
  rw [perform_change, Disk.run_single]
  cases w.disk.writeBytes file (Text.toUtf8 content) <;> rfl

/-- A temporary file is created under the next number, unless its path is refused. -/
theorem perform_temporaryFile (h : Host) (extension : Text) (w : World) :
    (temporaryFile h extension).perform w =
      match w.disk.createFile (temporaryPath h (w.temporaries + 1) extension) with
      | .ok disk =>
        (.ok (temporaryPath h (w.temporaries + 1) extension),
          { w with temporaries := w.temporaries + 1, disk })
      | .error f => (.error (.ofFile f), { w with temporaries := w.temporaries + 1 }) := by
  unfold temporaryFile
  rw [perform_bind_of_ok (perform_modify _ w), perform_bind_of_ok (perform_get _), perform_bind,
    perform_change, Disk.run_single]
  cases w.disk.createFile (temporaryPath h (w.temporaries + 1) extension) <;> rfl

/-- The next identifier is the next number, written with hexadecimal digits. -/
@[simp] theorem perform_identifier (w : World) :
    identifier.perform w = (.ok (Text.hex identifierLength (w.identifiers + 1)),
      { w with identifiers := w.identifiers + 1 }) := rfl

/-- Deleting never fails: what cannot be deleted is logged. -/
theorem perform_delete (file : Text) (w : World) :
    ∃ log, (delete file).perform w = (.ok (), { w with disk := w.disk.without file, log }) := by
  unfold delete Disk.without
  rw [perform_bind_of_ok (perform_get w)]
  cases w.disk.remove file with
  | ok d => exact ⟨w.log, rfl⟩
  | error f =>
    by_cases hf : f.isMissing = true
    · refine ⟨w.log, ?_⟩
      simp only [hf, if_true]
      rfl
    · refine ⟨⟨.warning, "Failed to delete temp file " ++ file⟩ :: w.log, ?_⟩
      simp only [hf]
      rfl

end Elementary

end Action

end JitInspect
