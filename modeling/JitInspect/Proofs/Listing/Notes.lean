import JitInspect.Proofs.Listing.Ownership
import JitInspect.Proofs.Text.Trim

/-!
# Notes in a listing

The loader writes its notes wherever the code generator happens to be in its output. The records of
a text depend on the lines that count alone, so it does not matter where notes and blank lines stand
or how lines end. When notes are put between the lines of a listing that has none, the condensed
listing stays as it was and the notes follow it in order (`condense_ignores_notes`).

Putting lines between others is a relation of three lists, `Listing.Inserted`. The lines with the
notes need not be the lines of the text that they make up, because the end of a note and an empty
line behind it may become one end of a line; `Text.AreLines.filterMap_lines` says that this does not
matter.
-/

namespace JitInspect

namespace Listing

variable {source : Source} {raw raw' : Text} {ls notes mixed : List Text.Line} {l : Text.Line}

/-! ### Lines put between others -/

section Inserted

/-- The lines with the notes between them, both in order. -/
inductive Inserted : (ls notes mixed : List Text.Line) → Prop where
  | nil : Inserted [] [] []
  | line {ls notes mixed : List Text.Line} (l : Text.Line) (h : Inserted ls notes mixed) :
      Inserted (l :: ls) notes (l :: mixed)
  | note {ls notes mixed : List Text.Line} (n : Text.Line) (h : Inserted ls notes mixed) :
      Inserted ls (n :: notes) (n :: mixed)

/-- Without the notes the lines are left. -/
theorem Inserted.filter_lines (h : Inserted ls notes mixed) {p : Text.Line → Bool}
    (hls : ∀ l ∈ ls, p l = true) (hnotes : ∀ n ∈ notes, p n = false) : mixed.filter p = ls := by
  induction h with
  | nil => rfl
  | line l _ ih =>
    obtain ⟨hl, hls⟩ := List.forall_mem_cons.1 hls
    rw [List.filter_cons_of_pos hl, ih hls hnotes]
  | note n _ ih =>
    obtain ⟨hn, hnotes⟩ := List.forall_mem_cons.1 hnotes
    rw [List.filter_cons_of_neg (Bool.eq_false_iff.1 hn), ih hls hnotes]

/-- The notes may as well be the lines between which the others are put. -/
theorem Inserted.symm (h : Inserted ls notes mixed) : Inserted notes ls mixed := by
  induction h with
  | nil => exact .nil
  | line l _ ih => exact .note l ih
  | note n _ ih => exact .line n ih

end Inserted

/-! ### Notes read back -/

section Reading

/-- What a line says as a note, if it is one. -/
def noteOf (l : Text.Line) : Option Text :=
  if isNote l then some (Text.trimEnd Text.isNewline l.full) else none

/-- What the lines of a text say as notes. -/
def notesOf (ls : List Text.Line) : List Text :=
  (ls.filter isNote).map fun l => Text.trimEnd Text.isNewline l.full

/-- The notes are found line by line. -/
theorem notesOf_eq (ls : List Text.Line) : notesOf ls = ls.filterMap noteOf := by
  induction ls with
  | nil => rfl
  | cons l ls ih =>
    unfold notesOf at ih ⊢
    cases hl : isNote l <;> simp [noteOf, hl, ih]

/-- A carriage return and a line feed behind a text are trimmed like the carriage return alone. -/
theorem trimEnd_pair (b : Text) :
    Text.trimEnd Text.isNewline (b ++ ['\r', '\n']) =
      Text.trimEnd Text.isNewline (b ++ ['\r']) := by
  have hreturn : ∀ c ∈ ['\r'], Text.isNewline c = true := List.forall_mem_singleton.2 rfl
  have hpair : ∀ c ∈ ['\r', '\n'], Text.isNewline c = true :=
    List.forall_mem_cons.2 ⟨rfl, List.forall_mem_singleton.2 rfl⟩
  rw [Text.trimEnd_append hpair, Text.trimEnd_append hreturn]

/-- Notes are known by the bodies of their lines, and their ends are trimmed. -/
theorem tellsSteadily_noteOf : Text.TellsSteadily noteOf where
  empty := rfl
  lineFeed := rfl
  pair b := by
    have hpair := Text.startsWith_append_terminator isBody_noteStart b .pair
    have hsingle := Text.startsWith_append_terminator isBody_noteStart b
      (.single (show Text.isLineEnd '\r' = true from rfl))
    have hsame : isNote ⟨b, ['\r', '\n']⟩ = isNote ⟨b, ['\r']⟩ := hpair.trans hsingle.symm
    have htrim : Text.trimEnd Text.isNewline (Text.Line.full ⟨b, ['\r', '\n']⟩) =
        Text.trimEnd Text.isNewline (Text.Line.full ⟨b, ['\r']⟩) := trimEnd_pair b
    rw [noteOf, noteOf, hsame, htrim]

/-- Lines that stand one behind the other have the same notes when they are read back. -/
theorem notes_splitNotes (h : Text.AreLines ls) :
    (splitNotes (ls.flatMap Text.Line.full)).2 = notesOf ls := by
  have hsplit : (splitNotes (ls.flatMap Text.Line.full)).2 =
      notesOf (Text.lines (ls.flatMap Text.Line.full)) := rfl
  rw [hsplit, notesOf_eq, h.filterMap_lines tellsSteadily_noteOf, notesOf_eq]

/-- The lines that count are the written lines that are no notes. -/
theorem countedLines_eq (raw : Text) :
    countedLines raw =
      (Text.writtenLines raw).filter fun l => !Text.startsWith l noteStart := by
  rw [Text.writtenLines, List.filter_filter, countedLines]
  exact List.filter_congr fun l _ => Bool.and_comm _ _

/-- Lines that stand one behind the other count or not as before when they are read back. -/
theorem countedLines_of_areLines (h : Text.AreLines ls) :
    countedLines (ls.flatMap Text.Line.full) = Text.written (ls.filter fun l => !isNote l) := by
  have hnote : ∀ l ∈ ls, (!isNote l) = !Text.startsWith l.body noteStart := fun l hl =>
    congrArg _ (h.startsWith_full isBody_noteStart l hl)
  rw [countedLines_eq, h.writtenLines_flatMap, List.filter_congr hnote, Text.written, Text.written,
    List.filter_map, List.filter_map, List.filter_map, List.filter_filter, List.filter_filter]
  refine congrArg _ (List.filter_congr fun l _ => Bool.and_comm _ _)

end Reading

/-! ### Condensing -/

section Condense

/-- A listing without notes is left as it is when its notes are lifted out. -/
theorem splitNotes_of_no_notes (h : ∀ l ∈ Text.lines raw, isNote l = false) :
    splitNotes raw = (raw, []) := by
  have hkept : (Text.lines raw).filter (fun l => !isNote l) = Text.lines raw :=
    List.filter_eq_self.2 fun l hl => by rw [h l hl]; rfl
  have hnone : (Text.lines raw).filter isNote = [] :=
    List.filter_eq_nil_iff.2 fun l hl => by rw [h l hl]; exact Bool.false_ne_true
  have htext : (Text.lines raw).flatMap Text.Line.full = raw := by
    rw [List.flatMap_def]
    exact Text.flatten_lines raw
  simp only [splitNotes, hkept, hnone, htext, List.map_nil]

/-- The records of a text depend on the lines that count alone. -/
theorem methods_splitNotes_congr (h : countedLines raw = countedLines raw') (source : Source) :
    methods source (splitNotes raw).1 = methods source (splitNotes raw').1 := by
  rw [methods, methods, scanBlocks_splitNotes, scanBlocks_splitNotes, h]

/-- A text that is condensed without a warning has records. -/
theorem methods_of_condense {c : Text} (h : condense true source raw = (c, [])) :
    ∃ rs, methods source (splitNotes raw).1 = .ok rs ∧
      c = renderMethods rs ++ renderNotes (splitNotes raw).2 := by
  cases hrs : methods source (splitNotes raw).1 with
  | error f =>
    simp only [condense, condense?, hrs, if_true, Except.map] at h
    cases h
  | ok rs =>
    simp only [condense, condense?, hrs, if_true, Except.map] at h
    exact ⟨rs, rfl, (Prod.mk.inj h).1.symm⟩

/-- A listing of which the records are read is rendered with the notes behind them. -/
theorem condense_of_methods {rs : List MethodRecord}
    (h : methods source (splitNotes raw).1 = .ok rs) :
    condense true source raw = (renderMethods rs ++ renderNotes (splitNotes raw).2, []) := by
  simp only [condense, condense?, h, if_true, Except.map]

/-- A text that cannot be read as a listing is left as it is, with a warning. -/
theorem condense_of_fault {f : Fault} (h : methods source (splitNotes raw).1 = .error f) :
    condense true source raw = (raw, [f.warning]) := by
  simp only [condense, condense?, h, if_true, Except.map]

/-- Two texts with the same lines that count have the same records, or the same fault. So notes may
be put between the lines of a listing that is condensed: they follow what the listing was condensed
to, in order, and change nothing else. -/
theorem condense_ignores_notes (source : Source) :
    (∀ raw raw' : Text, countedLines raw = countedLines raw' →
      methods source (splitNotes raw).1 = methods source (splitNotes raw').1) ∧
    ∀ (raw c : Text) (notes mixed : List Text.Line),
      (∀ l ∈ Text.lines raw, isNote l = false) → condense true source raw = (c, []) →
      (∀ n ∈ notes, isNote n = true) → Inserted (Text.lines raw) notes mixed →
      Text.AreLines mixed →
      condense true source (mixed.flatMap Text.Line.full) =
        (c ++ notes.flatMap (fun n => Text.trimEnd Text.isNewline n.full ++ ['\n']), []) := by
  refine ⟨fun raw raw' h => methods_splitNotes_congr h source, ?_⟩
  intro raw c notes mixed hraw hcondense hnotes hinserted hmixed
  have hlines : mixed.filter (fun l => !isNote l) = Text.lines raw :=
    hinserted.filter_lines (fun l hl => by rw [hraw l hl]; rfl)
      (fun n hn => by rw [hnotes n hn]; rfl)
  have hbetween : mixed.filter isNote = notes := hinserted.symm.filter_lines hnotes hraw
  have hnone : splitNotes raw = (raw, []) := splitNotes_of_no_notes hraw
  -- the text with the notes and the listing have the same lines that count
  have hcounted : countedLines (mixed.flatMap Text.Line.full) = countedLines raw := by
    rw [countedLines_of_areLines hmixed, hlines, Text.written_lines, ← writtenLines_splitNotes,
      hnone]
  obtain ⟨rs, hrs, rfl⟩ := methods_of_condense hcondense
  rw [← methods_splitNotes_congr hcounted source] at hrs
  have hsaid : renderNotes (splitNotes (mixed.flatMap Text.Line.full)).2 =
      notes.flatMap fun n => Text.trimEnd Text.isNewline n.full ++ ['\n'] := by
    rw [notes_splitNotes hmixed, notesOf, hbetween, renderNotes, List.flatMap_map]
  have hempty : renderNotes (splitNotes raw).2 = [] := by rw [hnone]; rfl
  rw [condense_of_methods hrs, hsaid, hempty, List.append_nil]

/-- The lines of a listing with an empty line in it. -/
def listedLines : List Text.Line :=
  [⟨"; Assembly listing for method A", ['\n']⟩, ⟨[], ['\n']⟩, ⟨" ret", ['\n']⟩,
    ⟨"; Total bytes of code 1", ['\n']⟩]

/-- A note that ends with a carriage return, so that the line feed of an empty line behind it
belongs to its own end. -/
def returnedNote : Text.Line := ⟨"; jitscope: B", ['\r']⟩

/-- The note is put in front of the empty line, which is lost, and of the last line. -/
theorem condense_ignores_notes_of_two :
    let raw := listedLines.flatMap Text.Line.full
    let mixed := listedLines.take 1 ++ returnedNote :: (listedLines.drop 1).take 2 ++
      returnedNote :: listedLines.drop 3
    countedLines raw = countedLines (mixed.flatMap Text.Line.full) ∧
      methods .generatorOnly (splitNotes raw).1 =
        methods .generatorOnly (splitNotes (mixed.flatMap Text.Line.full)).1 ∧
      Inserted (Text.lines raw) [returnedNote, returnedNote] mixed ∧ Text.AreLines mixed ∧
      condense true .generatorOnly (mixed.flatMap Text.Line.full) =
        ("; Method A\n ret\n; Total bytes of code: 1\n\n; jitscope: B\n; jitscope: B\n".toList,
          []) := by
  intro raw mixed
  have hcounted : countedLines raw = countedLines (mixed.flatMap Text.Line.full) := by
    decide +kernel
  have hinserted : Inserted (Text.lines raw) [returnedNote, returnedNote] mixed :=
    .line _ (.note _ (.line _ (.line _ (.note _ (.line _ .nil)))))
  have hbodies : ∀ l ∈ mixed, Text.IsBody l.body := by decide +kernel
  have hends : ∀ l ∈ mixed, l.terminator = ['\n'] ∨ l.terminator = ['\r'] := by decide +kernel
  have hmixed : Text.AreLines mixed := by
    refine .of_ended hbodies fun l hl => ?_
    rcases hends l hl with h | h <;> rw [h] <;> exact .single rfl
  obtain ⟨hrecords, hnotes⟩ := condense_ignores_notes .generatorOnly
  refine ⟨hcounted, hrecords _ _ hcounted, hinserted, hmixed, ?_⟩
  have hsaid : "; Method A\n ret\n; Total bytes of code: 1\n\n".toList ++
      [returnedNote, returnedNote].flatMap (fun n =>
        Text.trimEnd Text.isNewline n.full ++ ['\n']) =
        "; Method A\n ret\n; Total bytes of code: 1\n\n; jitscope: B\n; jitscope: B\n".toList := by
    decide +kernel
  rw [← hsaid]
  exact hnotes raw _ _ mixed (by decide +kernel) (by decide +kernel) (by decide +kernel) hinserted
    hmixed

end Condense

end Listing

end JitInspect
