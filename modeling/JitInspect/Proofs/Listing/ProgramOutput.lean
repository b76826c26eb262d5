import JitInspect.Proofs.Listing.Seam

/-!
# Listings behind the output of a program

When the program itself runs, what it prints stands in front of the listing. Then the scan passes over
the lines in front of the first marker. It reads a listing that has no such lines as before
(`Scans.withProgramOutput`), and whatever the program has printed changes neither the blocks nor the
fault, unless a line of it looks like a marker (`scanBlocks_ignores_output`).
-/

namespace JitInspect

namespace Listing

variable {method l raw output : Text} {previous : Option BlockKind} {ls below : List Text}
  {es : List Entry}

/-! ### Lines in front of the first marker -/

section Passing

/-- What the scan reads without passing over any line, it reads in the same way when it may. -/
theorem Scans.withProgramOutput (h : Scans .generatorOnly method previous ls es) :
    Scans .withProgramOutput method previous ls es := by
  induction h with
  | nil hmethod => exact .nil hmethod
  | marker hl _ ih => exact .marker hl ih
  | passed _ hsource => cases hsource
  | entry hl hmethod _ ih => exact .entry hl hmethod ih

/-- A line in front of the first marker is passed over, blank or not. -/
theorem entries_of_not_marker (hl : Text.startsWith l methodMarker = false) :
    entries .withProgramOutput [] previous (l :: ls) =
      entries .withProgramOutput [] previous ls := by
  have hmarker : Text.after? methodMarker l = none := not_marker_iff.1 hl
  by_cases hblank : Text.blank l = true
  · exact entries_of_blank hblank
  · rw [entries.eq_def]
    simp only [if_neg hblank, hmarker, List.isEmpty_nil, if_true]

/-- So are any lines that are no markers. The scan goes on below them as if it began there: no method
is named yet, and no kind of a line is remembered. -/
theorem entries_of_not_markers (hls : ∀ l ∈ ls, Text.startsWith l methodMarker = false)
    (below : List Text) : entries .withProgramOutput [] previous (ls ++ below) =
      entries .withProgramOutput [] previous below := by
  induction ls with
  | nil => rfl
  | cons l ls ih =>
    obtain ⟨hl, hls⟩ := List.forall_mem_cons.1 hls
    rw [List.cons_append, entries_of_not_marker hl, ih hls]

end Passing

/-! ### The blocks of a listing with program output -/

section Blocks

/-- The output of a program may stand in front of a listing, also when the end of its last line and an
empty line of the listing become one end of a line. -/
theorem scanBlocks_output_append (hend : Text.IsEnded output)
    (houtput : ∀ l ∈ Text.lineBodies output, Text.startsWith l methodMarker = false) (raw : Text) :
    scanBlocks .withProgramOutput (output ++ raw) = scanBlocks .withProgramOutput raw := by
  have hwritten : ∀ l ∈ Text.writtenLines output, Text.startsWith l methodMarker = false :=
    fun l hl => houtput l (List.mem_of_mem_filter hl)
  have hlines := Text.writtenLines_append hend raw
  rw [scanBlocks_eq, hlines, entries_of_not_markers hwritten, ← scanBlocks_eq]

/-- A listing that is read as the generator alone has printed it has the same blocks when the program
may have printed, too. Then nothing that the program prints in front of any listing changes what is read
from it, unless a line of it is a marker. -/
theorem scanBlocks_ignores_output (raw : Text) :
    (∀ bs, scanBlocks .generatorOnly raw = .ok bs → scanBlocks .withProgramOutput raw = .ok bs) ∧
      ∀ output, Text.IsEnded output →
        (∀ l ∈ Text.lineBodies output, Text.startsWith l methodMarker = false) →
        scanBlocks .withProgramOutput (output ++ raw) = scanBlocks .withProgramOutput raw := by
  constructor
  · intro bs h
    obtain ⟨es, hes, rfl⟩ := scanBlocks_eq_ok_iff.1 h
    exact scanBlocks_eq_ok_iff.2 ⟨es, hes.withProgramOutput, rfl⟩
  · intro output hend houtput
    exact scanBlocks_output_append hend houtput raw

/-- What a program prints: a label, a comment, a marker behind a blank, and a carriage return at the
end, which ends one line together with the line feed of an empty line behind it. -/
def printedLines : Text :=
  "L1:\n; done\n\n ; Assembly listing for method A\n; Assembly listing of method A\r"

/-- Such an output in front of a listing, and in front of one that names no method. -/
theorem scanBlocks_ignores_output_of_two :
    let listing : Text := '\n' :: methodMarker ++ "A\n ret\n"
    let unnamed : Text := '\n' :: methodMarker
    scanBlocks .generatorOnly listing = .ok [⟨"A", .code, [" ret"]⟩] ∧
      scanBlocks .withProgramOutput listing = .ok [⟨"A", .code, [" ret"]⟩] ∧
      scanBlocks .withProgramOutput (printedLines ++ listing) = .ok [⟨"A", .code, [" ret"]⟩] ∧
      scanBlocks .withProgramOutput (printedLines ++ unnamed) = .error .noMarker := by
  intro listing unnamed
  have hstrict : scanBlocks .generatorOnly listing = .ok [⟨"A", .code, [" ret"]⟩] := by
    decide +kernel
  have hend : Text.IsEnded printedLines := by decide +kernel
  have hprinted : ∀ l ∈ Text.lineBodies printedLines, Text.startsWith l methodMarker = false := by
    decide +kernel
  obtain ⟨hsame, houtput⟩ := scanBlocks_ignores_output listing
  obtain ⟨-, hunnamed⟩ := scanBlocks_ignores_output unnamed
  have hfault : scanBlocks .withProgramOutput unnamed = .error .noMarker := by decide +kernel
  refine ⟨hstrict, hsame _ hstrict, ?_, ?_⟩
  · rw [houtput printedLines hend hprinted]
    exact hsame _ hstrict
  · rw [hunnamed printedLines hend hprinted]
    exact hfault

end Blocks

end Listing

end JitInspect
