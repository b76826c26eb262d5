import JitInspect.Proofs.Listing.Notes
import JitInspect.Proofs.Listing.Sections

/-!
# Condensing a listing again

What is written in a condensed listing are the lines of its sections and then the notes of the text
(`writtenLines_condensed`). Names and notes are copied into it with other words in front of them, and
code does not begin like a marker. So no line of it is a marker (`not_marker_condensed`). A text
without a marker is no listing and is left as it is (`condense_of_not_markers`), and it does not
matter how often a text is condensed (`condense_idempotent`).

A note keeps the character that ended its line, unless this is a carriage return or a line feed, and a
line feed follows in any case. Then an empty line stands behind the note.
-/

namespace JitInspect

namespace Listing

variable {source : Source} {raw t b l : Text} {ls : List Text.Line} {r : MethodRecord}
  {rs : List MethodRecord}

/-! ### Notes that are written out -/

section Notes

/-- Nothing that a line contains is trimmed. -/
theorem trimEnd_body (hb : Text.IsBody b) : Text.trimEnd Text.isNewline b = b := by
  refine Text.trimEnd_of_forall fun c hc => Bool.eq_false_iff.2 fun hnewline => ?_
  have hend : Text.isLineEnd c = true := by
    rcases Bool.or_eq_true_iff.1 hnewline with h | h <;> rw [of_decide_eq_true h] <;> rfl
  exact Bool.false_ne_true ((hb c hc).symm.trans hend)

/-- What is trimmed is all that ends the line. -/
theorem trimEnd_body_append (hb : Text.IsBody b) (ht : ∀ c ∈ t, Text.isNewline c = true) :
    Text.trimEnd Text.isNewline (b ++ t) = b := by
  rw [Text.trimEnd_append ht, trimEnd_body hb]

/-- A line is read back from its trimmed text and a line feed behind it. -/
theorem writtenLines_trimmed_append (hb : Text.IsBody b) (ht : t = [] ∨ Text.IsTerminator t)
    (rest : Text) :
    Text.writtenLines (Text.trimEnd Text.isNewline (b ++ t) ++ ['\n'] ++ rest) =
      Text.written [⟨b, t⟩] ++ Text.writtenLines rest := by
  have hfeed : Text.IsTerminator ['\n'] := .single rfl
  have hline : Text.writtenLines (b ++ ['\n'] ++ rest) =
      Text.written [⟨b, t⟩] ++ Text.writtenLines rest := Text.writtenLines_line_append hb hfeed rest
  rcases ht with rfl | ht
  · rw [trimEnd_body_append hb (List.forall_mem_nil _), hline]
  · cases ht with
    | pair =>
      have hreturn : ∀ c ∈ ['\r'], Text.isNewline c = true := List.forall_mem_singleton.2 rfl
      rw [trimEnd_pair, trimEnd_body_append hb hreturn, hline]
    | @single c hc =>
      by_cases hnewline : Text.isNewline c = true
      · rw [trimEnd_body_append hb (List.forall_mem_singleton.2 hnewline), hline]
      -- another end of a line is kept, and the line feed ends an empty line behind it
      · have hkept : Text.trimEnd Text.isNewline (b ++ [c]) = b ++ [c] :=
          List.rdropWhile_concat_neg _ _ _ hnewline
        have hempty : Text.writtenLines (['\n'] ++ rest) = Text.writtenLines rest :=
          Text.writtenLines_line_append Text.IsBody.nil hfeed rest
        rw [hkept, List.append_assoc, Text.writtenLines_line_append hb (.single hc), hempty]

/-- The same for lines one behind the other. -/
theorem writtenLines_trimmed (h : Text.AreLines ls) :
    Text.writtenLines (ls.flatMap fun l => Text.trimEnd Text.isNewline l.full ++ ['\n']) =
      Text.written ls := by
  induction h with
  | nil => rfl
  | @last b hb =>
    have hnil : Text.writtenLines [] = [] := rfl
    rw [List.flatMap_cons, Text.Line.full, List.flatMap_nil,
      writtenLines_trimmed_append hb (.inl rfl), hnil, List.append_nil]
  | @cons b t ls hb ht _ ih =>
    rw [List.flatMap_cons, Text.Line.full, writtenLines_trimmed_append hb (.inr ht), ih,
      ← Text.written_cons]

/-- The notes of a text are written behind its condensed listing as they stood in it. -/
theorem writtenLines_renderNotes (raw : Text) :
    Text.writtenLines (renderNotes (splitNotes raw).2) =
      (Text.writtenLines raw).filter fun l => Text.startsWith l noteStart := by
  have hnote : ∀ l ∈ Text.lines raw, isNote l = Text.startsWith l.body noteStart :=
    (Text.areLines_lines raw).startsWith_full isBody_noteStart
  have hrender : renderNotes (splitNotes raw).2 =
      ((Text.lines raw).filter isNote).flatMap fun l =>
        Text.trimEnd Text.isNewline l.full ++ ['\n'] := List.flatMap_map _ _ _
  rw [hrender, writtenLines_trimmed ((Text.areLines_lines raw).filter isNote),
    List.filter_congr hnote, Text.written, Text.writtenLines, Text.lineBodies, List.filter_map,
    List.filter_map, List.filter_map, List.filter_filter, List.filter_filter]
  exact congrArg _ (List.filter_congr fun l _ => Bool.and_comm _ _)

end Notes

/-! ### Texts without markers -/

section Markers

/-- What is written in a condensed listing: the lines of the sections, then the notes. -/
theorem writtenLines_condensed (hrs : ∀ r ∈ rs, r.IsListed) (raw : Text) :
    Text.writtenLines (renderMethods rs ++ renderNotes (splitNotes raw).2) =
      ((rs.flatMap MethodRecord.renderedLines).filter fun l => !Text.blank l) ++
        (Text.writtenLines raw).filter fun l => Text.startsWith l noteStart := by
  rw [Text.writtenLines, lineBodies_renderMethods_append hrs, List.filter_append,
    ← writtenLines_renderNotes, Text.writtenLines]

/-- No line of a section is a marker: another word stands in front of the name, and code begins with
no semicolon. -/
theorem MethodRecord.IsListed.not_marker (hr : r.IsListed) :
    ∀ l ∈ r.renderedLines, Text.startsWith l methodMarker = false := by
  have hheading : ∀ rest, Text.startsWith (r.heading ++ rest) methodMarker = false := fun _ => rfl
  have htrailer : Text.startsWith r.trailer methodMarker = false := rfl
  have hempty : Text.startsWith [] methodMarker = false := rfl
  unfold MethodRecord.renderedLines
  split
  · simp only [List.forall_mem_cons]
    exact ⟨hheading _, hempty, fun l hl => absurd hl List.not_mem_nil⟩
  · refine List.forall_mem_cons.2 ⟨?_, List.forall_mem_append.2 ⟨?_, ?_⟩⟩
    · have hname := hheading []
      rwa [List.append_nil] at hname
    · exact forall_mem_codeLines hempty fun b hb l hl =>
        startsWith_of_head?_ne rfl (hr.code b hb l hl).2
    · simp only [List.forall_mem_cons]
      exact ⟨htrailer, hempty, fun l hl => absurd hl List.not_mem_nil⟩

/-- No line of a condensed listing is a marker. -/
theorem not_marker_condensed (hrs : ∀ r ∈ rs, r.IsListed) (raw : Text) :
    ∀ l ∈ Text.lineBodies (renderMethods rs ++ renderNotes (splitNotes raw).2),
      Text.startsWith l methodMarker = false := by
  intro l hl
  refine Bool.eq_false_iff.2 fun hmarker => ?_
  have hblank : (!Text.blank l) = true := (Bool.and_eq_true_iff.1 (counts_of_marker hmarker)).1
  -- a marker is written, so it would be a line of a section or a note
  have hwritten : l ∈ Text.writtenLines (renderMethods rs ++ renderNotes (splitNotes raw).2) :=
    List.mem_filter.2 ⟨hl, hblank⟩
  rw [writtenLines_condensed hrs, List.mem_append] at hwritten
  rcases hwritten with hsection | hnote
  · obtain ⟨r, hr, hl⟩ := List.mem_flatMap.1 (List.mem_of_mem_filter hsection)
    exact Bool.false_ne_true (((hrs r hr).not_marker l hl).symm.trans hmarker)
  · obtain ⟨rest, rfl⟩ := Text.startsWith_iff.1 (List.mem_filter.1 hnote).2
    have hnot : Text.startsWith (noteStart ++ rest) methodMarker = false := rfl
    exact Bool.false_ne_true (hnot.symm.trans hmarker)

/-- A text without a marker is left as it is, with a warning. -/
theorem condense_of_not_markers
    (h : ∀ l ∈ Text.lineBodies t, Text.startsWith l methodMarker = false) (source : Source) :
    ∃ f : Fault, condense true source t = (t, [f.warning]) := by
  have hcounted : ∀ l ∈ countedLines t, Text.startsWith l methodMarker = false :=
    fun l hl => h l (List.mem_of_mem_filter hl)
  obtain ⟨-, hnearest⟩ := own_of_not_markers hcounted []
  cases hrs : methods source (splitNotes t).1 with
  | error f => exact ⟨f, condense_of_fault hrs⟩
  | ok rs =>
    rw [methods] at hrs
    cases hbs : scanBlocks source (splitNotes t).1 with
    | error f =>
      rw [hbs] at hrs
      cases hrs
    | ok bs =>
      -- a scan that comes to its end has seen a marker
      obtain ⟨es, hscan, -⟩ := scans_of_scanBlocks hbs
      have hempty : ([] : Text) = nearest [] [] := rfl
      exact absurd hnearest ((exists_scans_iff hempty).1 ⟨es, hscan⟩).1

end Markers

/-! ### Condensing twice -/

section Twice

/-- A text that was condensed is not condensed any further, however its lines are read the second time,
because no line of it is a marker. A text that was not condensed is still not condensed. -/
theorem condense_idempotent (source : Source) (raw : Text) :
    (condense true source (condense true source raw).1).1 = (condense true source raw).1 ∧
      ∀ t, condense true source raw = (t, []) →
        (∀ l ∈ Text.lineBodies t, Text.startsWith l methodMarker = false) ∧
          ∀ source' : Source, ∃ f : Fault, condense true source' t = (t, [f.warning]) := by
  have hmarker : ∀ t, condense true source raw = (t, []) →
      ∀ l ∈ Text.lineBodies t, Text.startsWith l methodMarker = false := by
    intro t ht
    obtain ⟨rs, hrs, rfl⟩ := methods_of_condense ht
    exact not_marker_condensed (isListed_of_methods hrs) raw
  refine ⟨?_, fun t ht => ⟨hmarker t ht, condense_of_not_markers (hmarker t ht)⟩⟩
  cases hrs : methods source (splitNotes raw).1 with
  | error f => rw [condense_of_fault hrs, condense_of_fault hrs]
  | ok rs =>
    have ht := condense_of_methods hrs
    obtain ⟨f, hagain⟩ := condense_of_not_markers (hmarker _ ht) source
    rw [ht, hagain]

/-- A method whose name looks like a marker, behind a note that ends with a form feed and is one, too. -/
def deceptiveListing : Text :=
  noteStart ++ methodMarker ++ "B\x0c" ++ methodMarker ++ methodMarker ++ "A\n ret\n" ++ sizeMarker ++
    "1\n"

/-- In the condensed text of a deceptive listing markers stand in a heading and in a note, but begin no
line. -/
theorem condense_idempotent_deceptive :
    let t : Text := "; Method " ++ methodMarker ++ "A\n ret\n; Total bytes of code: 1\n\n" ++
      noteStart ++ methodMarker ++ "B\x0c\n"
    condense true .generatorOnly deceptiveListing = (t, []) ∧
      (∀ l ∈ Text.lineBodies t, Text.startsWith l methodMarker = false) ∧
      ∃ f : Fault, condense true .withProgramOutput t = (t, [f.warning]) := by
  intro t
  have hcondensed : condense true .generatorOnly deceptiveListing = (t, []) := by decide +kernel
  obtain ⟨-, hagain⟩ := condense_idempotent .generatorOnly deceptiveListing
  obtain ⟨hmarker, hkept⟩ := hagain t hcondensed
  exact ⟨hcondensed, hmarker, hkept .withProgramOutput⟩

end Twice

end Listing

end JitInspect
