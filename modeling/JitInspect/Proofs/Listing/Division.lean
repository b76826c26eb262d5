import JitInspect.Proofs.Listing.Seam
import Mathlib.Data.List.Chain
import Mathlib.Data.List.TakeWhile

/-!
# The division of a listing into blocks

Each written line of a listing stands below others (`Listing.PlacedLine`), and these alone tell what
becomes of it: the nearest marker among them names its method, and the lines behind that marker say
whether it opens a block (`Listing.PlacedLine.Opens`). The blocks of a listing, taken apart into their
lines, are the governed lines in order, each as its place tells (`Listing.scanBlocks_divides_lines`).
A listing has no blocks when its last marker names no method, or when the generator alone has printed
it and a line of it belongs to no method (`Listing.IsUnreadable`).
-/

namespace JitInspect

/-- The lines of a block as entries, of which the first one opens it. -/
def Block.entries (b : Block) : List Listing.Entry :=
  b.lines.zipIdx.map fun (l, i) => ⟨b.method, b.kind, i = 0, l⟩

namespace Listing

variable {source : Source} {method name : Text} {previous : Option BlockKind} {l raw : Text}
  {ls above : List Text} {e : Entry} {es run below : List Entry} {b : Block}

/-! ### Lines and the lines above them -/

section Places

/-- A written line of a text, with the written lines above it. -/
structure PlacedLine where
  above : List Text
  line : Text

/-- The written lines of a text, each with those above it. -/
def placedLines (raw : Text) : List PlacedLine :=
  (Text.writtenLines raw).zipIdx.map fun (l, i) => ⟨(Text.writtenLines raw).take i, l⟩

/-- The lines behind the last marker, the last line first. -/
def sinceMarker (above : List Text) : List Text :=
  above.reverse.takeWhile fun l => !Text.startsWith l methodMarker

/-- Whether a text starts with a word and a colon. -/
def StartsWithLabel (l : Text) : Prop :=
  ∃ word rest, word ≠ [] ∧ (∀ c ∈ word, Text.isWordChar c = true) ∧ l = word ++ ':' :: rest

namespace PlacedLine

/-- The method that the line belongs to: no name when there is no marker above. -/
def owner (p : PlacedLine) : Text := nearest [] p.above

/-- Whether the line is a marker. -/
def isMarker (p : PlacedLine) : Bool := Text.startsWith p.line methodMarker

/-- Whether the line is governed: it is no marker, and the nearest one above it names a method. -/
def isGoverned (p : PlacedLine) : Bool := !p.isMarker && !p.owner.isEmpty

/-- Whether the line opens a block: it is the first one behind its marker, or its kind is not that of
the line before it, or it is code and starts with a label. -/
def Opens (p : PlacedLine) : Prop :=
  sinceMarker p.above = [] ∨ (∃ before ∈ (sinceMarker p.above).head?, kindOf before ≠ kindOf p.line) ∨
    kindOf p.line = .code ∧ StartsWithLabel p.line

end PlacedLine

/-- Whether a text cannot be divided: no method is named, or the last marker names none, or a line
that only the generator can have printed belongs to no method. -/
def IsUnreadable (source : Source) (raw : Text) : Prop :=
  nearest [] (Text.writtenLines raw) = [] ∨
    source = .generatorOnly ∧ ∃ p ∈ placedLines raw, p.isMarker = false ∧ p.owner = []

/-- Lines that stand below others, each with all the lines above it. -/
def placedBelow (above ls : List Text) : List PlacedLine :=
  ls.zipIdx.map fun (l, i) => ⟨above ++ ls.take i, l⟩

theorem placedBelow_nil (raw : Text) : placedBelow [] (Text.writtenLines raw) = placedLines raw := rfl

/-- The first line stands below those above, and the others below it too. -/
theorem placedBelow_cons (above : List Text) (l : Text) (ls : List Text) :
    placedBelow above (l :: ls) = ⟨above, l⟩ :: placedBelow (above ++ [l]) ls := by
  unfold placedBelow
  rw [List.zipIdx_cons, List.map_cons, List.zipIdx_succ, List.map_map]
  simp only [List.take_zero, List.append_nil, Function.comp_def, List.take_succ_cons,
    List.append_assoc, List.singleton_append]

theorem sinceMarker_concat (above : List Text) (l : Text) :
    sinceMarker (above ++ [l]) =
      if Text.startsWith l methodMarker then [] else l :: sinceMarker above := by
  unfold sinceMarker
  rw [List.reverse_concat, List.takeWhile_cons]
  cases Text.startsWith l methodMarker <;> rfl

/-- A label is a word with a colon behind it, however far the word goes. -/
theorem isLabel_iff (l : Text) : isLabel l = true ↔ StartsWithLabel l := by
  unfold isLabel StartsWithLabel
  rw [Bool.and_eq_true, Bool.not_eq_true', List.isEmpty_eq_false_iff, decide_eq_true_eq]
  constructor
  · rintro ⟨hword, hcolon⟩
    obtain ⟨rest, hrest⟩ := List.head?_eq_some_iff.1 hcolon
    refine ⟨l.takeWhile Text.isWordChar, rest, hword, fun c hc => List.mem_takeWhile_imp hc, ?_⟩
    rw [← hrest, List.takeWhile_append_dropWhile]
  · rintro ⟨word, rest, hne, hword, rfl⟩
    have hcolon : Text.isWordChar ':' = false := by decide +kernel
    have htake : (word ++ ':' :: rest).takeWhile Text.isWordChar = word := by
      rw [List.takeWhile_append_of_pos hword, List.takeWhile_cons_of_neg (by simp [hcolon]),
        List.append_nil]
    have hdrop : (word ++ ':' :: rest).dropWhile Text.isWordChar = ':' :: rest := by
      rw [List.dropWhile_append_of_pos hword, List.dropWhile_cons_of_neg (by simp [hcolon])]
    rw [htake, hdrop]
    exact ⟨hne, rfl⟩

end Places

/-! ### The entries of a scan and the lines they stand for -/

section Describing

/-- What an entry says of a line is what the place of the line tells. -/
structure Entry.Describes (e : Entry) (p : PlacedLine) : Prop where
  line : e.line = p.line
  method : e.method = p.owner
  kind : e.kind = .comment ↔ p.line.head? = some ';'
  opens : e.opens = true ↔ p.Opens

/-- A comment begins with a semicolon. -/
theorem kindOf_eq_comment_iff (l : Text) : kindOf l = .comment ↔ l.head? = some ';' := by
  rw [← not_iff_not, ← ne_eq, ← ne_eq, ← kindOf_eq_code_iff]
  cases kindOf l <;> simp

/-- A line opens a block if its place says so, when the kind of the line before it is given. -/
theorem opensBlock_iff (p : PlacedLine) :
    opensBlock ((sinceMarker p.above).head?.map kindOf) p.line = true ↔ p.Opens := by
  unfold opensBlock PlacedLine.Opens
  rw [← isLabel_iff]
  cases sinceMarker p.above <;> simp

/-- The entries of a scan describe the governed lines, each in its turn. -/
theorem Scans.describes (h : Scans source method previous ls es) (hmethod : method = nearest [] above)
    (hprevious : method ≠ [] → previous = (sinceMarker above).head?.map kindOf) :
    List.Forall₂ Entry.Describes es ((placedBelow above ls).filter PlacedLine.isGoverned) := by
  induction h generalizing above with
  | nil => exact .nil
  | @marker _ name l _ _ _ hl _ ih =>
    have hmarker : Text.startsWith l methodMarker = true := startsWith_of_marker hl
    rw [placedBelow_cons, List.filter_cons_of_neg (by simp [PlacedLine.isGoverned,
      PlacedLine.isMarker, hmarker])]
    refine ih ?_ fun _ => ?_
    · rw [nearest_append, nearest_of_marker hl]
    · rw [sinceMarker_concat, if_pos hmarker]
      rfl
  | @passed l _ _ _ hl _ _ ih =>
    have hnone : (⟨above, l⟩ : PlacedLine).owner = [] := hmethod.symm
    rw [placedBelow_cons, List.filter_cons_of_neg (by simp [PlacedLine.isGoverned, hnone])]
    refine ih ?_ fun hne => absurd rfl hne
    rw [nearest_append, nearest_of_not_marker hl, ← hmethod]
  | @entry method l previous _ _ hl hnamed _ ih =>
    have hmarker : Text.startsWith l methodMarker = false := not_marker_iff.2 hl
    have hown : (⟨above, l⟩ : PlacedLine).owner = method := hmethod.symm
    rw [placedBelow_cons, List.filter_cons_of_pos (by simp [PlacedLine.isGoverned,
      PlacedLine.isMarker, hmarker, hown, hnamed])]
    refine .cons ⟨rfl, hmethod, kindOf_eq_comment_iff l, ?_⟩ (ih ?_ fun _ => ?_)
    · rw [hprevious hnamed]
      exact opensBlock_iff ⟨above, l⟩
    · rw [nearest_append, nearest_of_not_marker hl, ← hmethod]
    · rw [sinceMarker_concat, hmarker]
      rfl

theorem exists_scans_nil : (∃ es, Scans source method previous [] es) ↔ method ≠ [] :=
  ⟨fun ⟨_, .nil hnamed⟩ => hnamed, fun hnamed => ⟨[], .nil hnamed⟩⟩

/-- Below a marker, its name is what the scan goes on with. -/
theorem exists_scans_marker (hl : Text.after? methodMarker l = some name) :
    (∃ es, Scans source method previous (l :: ls) es) ↔ ∃ es, Scans source name none ls es := by
  constructor
  · rintro ⟨_, h⟩
    cases h with
    | marker hl₁ h =>
      rw [hl, Option.some.injEq] at hl₁
      exact ⟨_, hl₁ ▸ h⟩
    | passed hl₁ => rw [hl] at hl₁; cases hl₁
    | entry hl₁ => rw [hl] at hl₁; cases hl₁
  · rintro ⟨es, h⟩
    exact ⟨es, .marker hl h⟩

/-- A line that belongs to no method is in the way unless the program may have written it. -/
theorem exists_scans_unnamed (hl : Text.after? methodMarker l = none) :
    (∃ es, Scans source [] previous (l :: ls) es) ↔
      source = .withProgramOutput ∧ ∃ es, Scans source [] previous ls es := by
  constructor
  · rintro ⟨es, h⟩
    cases h with
    | marker hl₁ => rw [hl] at hl₁; cases hl₁
    | passed _ hsource h => exact ⟨hsource, es, h⟩
    | entry _ hnamed => exact absurd rfl hnamed
  · rintro ⟨hsource, es, h⟩
    exact ⟨es, .passed hl hsource h⟩

/-- A line of a method is never in the way. -/
theorem exists_scans_named (hl : Text.after? methodMarker l = none) (hnamed : method ≠ []) :
    (∃ es, Scans source method previous (l :: ls) es) ↔
      ∃ es, Scans source method (some (kindOf l)) ls es := by
  constructor
  · rintro ⟨_, h⟩
    cases h with
    | marker hl₁ => rw [hl] at hl₁; cases hl₁
    | passed => exact absurd rfl hnamed
    | entry _ _ h => exact ⟨_, h⟩
  · rintro ⟨_, h⟩
    exact ⟨_, .entry hl hnamed h⟩

/-- A scan comes to its end if the last marker names a method and no line is in its way. -/
theorem exists_scans_iff (hmethod : method = nearest [] above) :
    (∃ es, Scans source method previous ls es) ↔ nearest method ls ≠ [] ∧
      (source = .generatorOnly → ∀ p ∈ placedBelow above ls, p.isMarker = false → p.owner ≠ []) := by
  induction ls generalizing method previous above with
  | nil => simp [exists_scans_nil, placedBelow, nearest]
  | cons l ls ih =>
    have hbelow : nearest method [l] = nearest [] (above ++ [l]) := by
      rw [nearest_append, hmethod]
    rw [nearest_cons, placedBelow_cons]
    cases hl : Text.after? methodMarker l with
    | some name =>
      have hmarker : (⟨above, l⟩ : PlacedLine).isMarker = true := by
        simp [PlacedLine.isMarker, Text.startsWith, hl]
      rw [nearest_of_marker hl] at hbelow ⊢
      rw [exists_scans_marker hl, ih hbelow]
      simp only [List.forall_mem_cons, hmarker, Bool.true_eq_false, false_implies, true_and]
    | none =>
      have hmarker : (⟨above, l⟩ : PlacedLine).isMarker = false := not_marker_iff.2 hl
      have hown : (⟨above, l⟩ : PlacedLine).owner = method := hmethod.symm
      rw [nearest_of_not_marker hl] at hbelow ⊢
      simp only [List.forall_mem_cons, hmarker, hown, true_implies]
      by_cases hnamed : method = []
      · subst hnamed
        rw [exists_scans_unnamed hl, ih hbelow]
        cases source <;> simp
      · rw [exists_scans_named hl hnamed, ih hbelow]
        simp [hnamed]

end Describing

/-! ### Blocks taken apart -/

section Apart

/-- A block that begins with an entry is taken apart into it and the run behind it. -/
theorem Entry.Begins.entries (h : e.Begins b run below) (hopens : e.opens = true)
    (hrun : ∀ r ∈ run, r.method = e.method ∧ r.kind = e.kind) : b.entries = e :: run := by
  obtain ⟨hmethod, hkind, hlines, hclosed, -⟩ := h
  unfold Block.entries
  rw [hlines, List.zipIdx_cons, List.map_cons, hmethod, hkind]
  refine congrArg₂ _ ?_ ?_
  · change (⟨e.method, e.kind, true, e.line⟩ : Entry) = e
    rw [← hopens]
  · rw [List.zipIdx_map, List.map_map]
    refine List.ext_getElem (by simp) fun i hi₁ hi₂ => ?_
    obtain ⟨hsame, hsameKind⟩ := hrun run[i] (List.getElem_mem hi₂)
    have hnot := hclosed run[i] (List.getElem_mem hi₂)
    simp [← hsame, ← hsameKind, ← hnot]

/-- The entries of a run that opens no block share the method and the kind of the one before. -/
theorem same_of_run (h : (e :: (run ++ below)).IsChain Entry.Continues)
    (hrun : ∀ r ∈ run, r.opens = false) : ∀ r ∈ run, r.method = e.method ∧ r.kind = e.kind := by
  induction run generalizing e with
  | nil => exact fun _ hr => absurd hr List.not_mem_nil
  | cons r run ih =>
    obtain ⟨hr, hrun⟩ := List.forall_mem_cons.1 hrun
    obtain ⟨hnext, h⟩ := List.isChain_cons_cons.1 h
    obtain ⟨hmethod, hkind⟩ := hnext hr
    refine List.forall_mem_cons.2 ⟨⟨hmethod, hkind⟩, fun r' hr' => ?_⟩
    obtain ⟨hmethod', hkind'⟩ := ih h hrun r' hr'
    exact ⟨hmethod'.trans hmethod, hkind'.trans hkind⟩

/-- Taken apart again, the blocks are the entries that were grouped. -/
theorem flatMap_entries_groupEntries (h : es.IsChain Entry.Continues)
    (hopens : ∀ e ∈ es.head?, e.opens = true) : (groupEntries es).flatMap Block.entries = es := by
  generalize hbs : groupEntries es = bs
  induction bs generalizing es with
  | nil =>
    cases es with
    | nil => rfl
    | cons e es => exact absurd hbs (groupEntries_ne_nil e es)
  | cons b bs ih =>
    cases es with
    | nil => cases hbs
    | cons e es =>
      obtain ⟨run, below, rfl, hbelow, hbegins⟩ := groupEntries_first hbs
      have hblock := hbegins.entries (hopens e rfl) (same_of_run h hbegins.run)
      have hchain : ((e :: run) ++ below).IsChain Entry.Continues := h
      have hrest : bs.flatMap Block.entries = below :=
        ih hchain.right_of_append hbegins.below hbelow
      rw [List.flatMap_cons, hblock, hrest, List.cons_append]

end Apart

/-! ### The blocks of a listing -/

section Division

/-- Every listing is divided into blocks of its governed lines, or it is unreadable. -/
theorem scanBlocks_divides_lines (source : Source) (raw : Text) :
    match scanBlocks source raw with
    | .ok bs => ¬ IsUnreadable source raw ∧ (∀ b ∈ bs, b.lines ≠ []) ∧
        List.Forall₂ Entry.Describes (bs.flatMap Block.entries)
          ((placedLines raw).filter PlacedLine.isGoverned)
    | .error _ => IsUnreadable source raw := by
  have hreadable : (∃ es, Scans source [] none (Text.writtenLines raw) es) ↔
      ¬ IsUnreadable source raw := by
    have hempty : ([] : Text) = nearest [] [] := rfl
    refine (exists_scans_iff hempty).trans ?_
    rw [placedBelow_nil, IsUnreadable]
    push Not
    rfl
  cases hscan : scanBlocks source raw with
  | ok bs =>
    obtain ⟨es, h, rfl⟩ := scanBlocks_eq_ok_iff.1 hscan
    have hopens : ∀ e ∈ es.head?, e.opens = true := by
      intro e he
      obtain ⟨rest, rfl⟩ := List.head?_eq_some_iff.1 he
      exact h.opens_of_first rfl
    refine ⟨hreadable.1 ⟨es, h⟩, fun b hb => lines_ne_nil hb, ?_⟩
    rw [flatMap_entries_groupEntries h.isChain hopens, ← placedBelow_nil]
    exact h.describes rfl fun hne => absurd rfl hne
  | error f =>
    by_contra hnot
    obtain ⟨es, h⟩ := hreadable.2 hnot
    rw [scanBlocks_eq_ok_iff.2 ⟨es, h, rfl⟩] at hscan
    cases hscan

/-- A label opens a block, and so does a comment behind code; a blank line does not. -/
example : scanBlocks .generatorOnly
      "; Assembly listing for method A\n nop\n\n nop\nL1:\n ret\n; B\n" =
    .ok [⟨"A", .code, [" nop", " nop"]⟩, ⟨"A", .code, ["L1:", " ret"]⟩, ⟨"A", .comment, ["; B"]⟩] := by
  decide +kernel

end Division

end Listing

end JitInspect
