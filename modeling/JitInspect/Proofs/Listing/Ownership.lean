import JitInspect.Listing.Condense
import JitInspect.Proofs.Text.Lines
import Mathlib.Data.List.Basic

/-!
# Which method a line belongs to

A line of a text belongs to the method on the nearest marker above it (`Listing.ownedLines`). Lines
that are blank and notes of the loader count for nothing, and the other ones are the lines that the
scan of a listing goes over, also after the notes were lifted out (`scanBlocks_splitNotes`).

`Listing.Scans` says what the scan makes of these lines. Its entries are the lines that belong to a
named method and are no markers (`Scans.map_owned`). An entry that opens no block stands right behind
the one before it (`Scans.continues_of_first`).
-/

namespace JitInspect

namespace Listing

variable {source : Source} {method name : Text} {previous : Option BlockKind} {l : Text}
  {raw : Text} {ls above below : List Text} {e : Entry} {es es₁ es₂ run : List Entry}

/-! ### Owned lines -/

section Owned

/-- A line of a text, with the method that it belongs to. -/
structure OwnedLine where
  method : Text
  line : Text
  deriving DecidableEq, Repr

/-- The name on the nearest marker above a line. Without a marker it is the given one. -/
def nearest (method : Text) (above : List Text) : Text :=
  ((above.filterMap (Text.after? methodMarker)).getLast?).getD method

/-- The lines of a text, each with the method on the nearest marker above it. Lines without such a
marker belong to no method. -/
def ownedLines (raw : Text) : List OwnedLine :=
  (Text.lineBodies raw).zipIdx.map fun (l, i) => ⟨nearest [] ((Text.lineBodies raw).take i), l⟩

/-- Whether a line counts: it is neither blank nor a note of the loader. -/
def counts (l : Text) : Bool := !Text.blank l && !Text.startsWith l noteStart

/-- Whether a line is a comment of the method that it belongs to. -/
def IsComment (l : Text) : Prop := kindOf l = .comment ∧ Text.startsWith l methodMarker = false

/-- The lines with the methods that they belong to, when the first one belongs to the given one. -/
def own : (method : Text) → List Text → List OwnedLine
  | _, [] => []
  | method, l :: ls => ⟨method, l⟩ :: own (nearest method [l]) ls

theorem nearest_append (method : Text) (above below : List Text) :
    nearest method (above ++ below) = nearest (nearest method above) below := by
  unfold nearest
  rw [List.filterMap_append, List.getLast?_append]
  cases (below.filterMap (Text.after? methodMarker)).getLast? <;> rfl

theorem nearest_cons (method l : Text) (ls : List Text) :
    nearest method (l :: ls) = nearest (nearest method [l]) ls :=
  nearest_append method [l] ls

/-- A marker is the nearest one to itself. -/
theorem nearest_of_marker (h : Text.after? methodMarker l = some name) :
    nearest method [l] = name := by
  rw [nearest, List.filterMap_cons_some h]
  rfl

/-- Another line does not change which marker is nearest. -/
theorem nearest_of_not_marker (h : Text.after? methodMarker l = none) :
    nearest method [l] = method := by
  rw [nearest, List.filterMap_cons_none h]
  rfl

/-- A line is no marker when nothing stands behind one in it. -/
theorem not_marker_iff : Text.startsWith l methodMarker = false ↔
    Text.after? methodMarker l = none := by
  rw [Text.startsWith, Option.isSome_eq_false_iff, Option.isNone_iff_eq_none]

/-- A marker begins as one. -/
theorem startsWith_of_marker (h : Text.after? methodMarker l = some name) :
    Text.startsWith l methodMarker = true := by
  rw [Text.startsWith, h]
  rfl

/-- Each line is owned by the method on the nearest marker above it. -/
theorem own_eq (method : Text) (ls : List Text) :
    own method ls = ls.zipIdx.map fun (l, i) => ⟨nearest method (ls.take i), l⟩ := by
  induction ls generalizing method with
  | nil => rfl
  | cons l ls ih =>
    rw [own, ih, List.zipIdx_cons, List.map_cons, List.zipIdx_succ, List.map_map]
    refine congrArg _ (List.map_congr_left fun p _ => ?_)
    simp only [Function.comp_apply, List.take_succ_cons]
    rw [nearest_cons method l (ls.take p.2)]

/-- The owned lines of a text are those of its lines, of which the first ones belong to no method. -/
theorem ownedLines_eq (raw : Text) : ownedLines raw = own [] (Text.lineBodies raw) :=
  (own_eq [] _).symm

/-- The owned lines of two parts, of which the second one goes on with the nearest marker. -/
theorem own_append (method : Text) (ls₁ ls₂ : List Text) :
    own method (ls₁ ++ ls₂) = own method ls₁ ++ own (nearest method ls₁) ls₂ := by
  induction ls₁ generalizing method with
  | nil => rfl
  | cons l ls₁ ih => rw [List.cons_append, own, own, ih, nearest_cons method l ls₁, List.cons_append]

/-- Behind each other the owned lines are the lines. -/
theorem map_line_own (method : Text) (ls : List Text) : (own method ls).map OwnedLine.line = ls := by
  induction ls generalizing method with
  | nil => rfl
  | cons l ls ih => rw [own, List.map_cons, ih]

/-- Lines that are no markers belong to the method that the first one belongs to. -/
theorem own_of_not_markers (h : ∀ l ∈ ls, Text.startsWith l methodMarker = false) (method : Text) :
    own method ls = ls.map (OwnedLine.mk method) ∧ nearest method ls = method := by
  induction ls with
  | nil => exact ⟨rfl, rfl⟩
  | cons l ls ih =>
    obtain ⟨hl, hls⟩ := List.forall_mem_cons.1 h
    obtain ⟨hown, hnearest⟩ := ih hls
    rw [own, nearest_cons method l ls, nearest_of_not_marker (not_marker_iff.1 hl), hown, hnearest]
    exact ⟨rfl, rfl⟩

/-- Leaving out lines that are no markers does not change what the others belong to. -/
theorem filter_own (p : Text → Bool) (hp : ∀ l, Text.startsWith l methodMarker = true → p l = true)
    (method : Text) (ls : List Text) :
    (own method ls).filter (fun o => p o.line) = own method (ls.filter p) := by
  induction ls generalizing method with
  | nil => rfl
  | cons l ls ih =>
    by_cases hl : p l = true
    · rw [own, List.filter_cons_of_pos (by exact hl), List.filter_cons_of_pos hl, own, ih]
    · have hnone : Text.after? methodMarker l = none :=
        not_marker_iff.1 (Bool.eq_false_iff.2 fun h => hl (hp l h))
      rw [own, List.filter_cons_of_neg (by exact hl), List.filter_cons_of_neg hl, ih,
        nearest_of_not_marker hnone]

/-- Markers count. -/
theorem counts_of_marker (h : Text.startsWith l methodMarker = true) : counts l = true := by
  obtain ⟨rest, rfl⟩ := Text.startsWith_iff.1 h
  rfl

end Owned

/-! ### The scan of a listing -/

section Scan

/-- The lines that count. -/
def countedLines (raw : Text) : List Text := (Text.lineBodies raw).filter counts

/-- A counted line is not blank. -/
theorem written_of_mem (hl : l ∈ countedLines raw) : Text.blank l = false := by
  obtain ⟨-, hcounts⟩ := List.mem_filter.1 hl
  have hnot := (Bool.and_eq_true_iff.1 hcounts).1
  rwa [Bool.not_eq_true'] at hnot

/-- A blank line is passed over. -/
theorem entries_of_blank (hl : Text.blank l = true) :
    entries source method previous (l :: ls) = entries source method previous ls := by
  cases source <;> rw [entries, if_pos hl]

/-- The scan passes over all blank lines. -/
theorem entries_filter_blank (source : Source) (method : Text) (previous : Option BlockKind)
    (ls : List Text) :
    entries source method previous (ls.filter fun l => !Text.blank l) =
      entries source method previous ls := by
  induction ls generalizing method previous with
  | nil => rfl
  | cons l ls ih =>
    by_cases hl : Text.blank l = true
    · rw [List.filter_cons_of_neg (by simp [hl]), ih, entries_of_blank hl]
    · rw [List.filter_cons_of_pos (by simp [hl]), entries.eq_def,
        entries.eq_def source method previous (l :: ls)]
      simp only [ih]

/-- No line ends within the beginning of a note. -/
theorem isBody_noteStart : Text.IsBody noteStart := by decide +kernel

/-- After the notes were lifted out, the scan goes over the lines that count. -/
theorem writtenLines_splitNotes (raw : Text) :
    Text.writtenLines (splitNotes raw).1 = countedLines raw := by
  have hnote : ∀ l ∈ Text.lines raw, (!isNote l) = !Text.startsWith l.body noteStart := fun l hl =>
    congrArg _ ((Text.areLines_lines raw).startsWith_full isBody_noteStart l hl)
  have hsplit : (splitNotes raw).1 =
      ((Text.lines raw).filter fun l => !isNote l).flatMap Text.Line.full := rfl
  rw [hsplit, Text.writtenLines_flatMap, Text.written, List.filter_congr hnote, countedLines,
    Text.lineBodies, List.filter_map, List.filter_map, List.filter_filter]
  rfl

/-- The scan goes over the written lines. -/
theorem scanBlocks_eq (source : Source) (raw : Text) :
    scanBlocks source raw =
      (entries source [] none (Text.writtenLines raw)).map groupEntries := by
  rw [scanBlocks, ← entries_filter_blank]
  rfl

/-- The scan of the listing without the notes goes over the lines that count. -/
theorem scanBlocks_splitNotes (source : Source) (raw : Text) :
    scanBlocks source (splitNotes raw).1 =
      (entries source [] none (countedLines raw)).map groupEntries := by
  rw [scanBlocks_eq, writtenLines_splitNotes]

/-- The scan gives the entries of lines that are not blank. A line is a marker, or it belongs to no
method and is passed over, or it becomes an entry. -/
inductive Scans (source : Source) :
    (method : Text) → (previous : Option BlockKind) → List Text → List Entry → Prop where
  | nil {method : Text} {previous : Option BlockKind} (hmethod : method ≠ []) :
      Scans source method previous [] []
  | marker {method name l : Text} {previous : Option BlockKind} {ls : List Text} {es : List Entry}
      (hl : Text.after? methodMarker l = some name) (h : Scans source name none ls es) :
      Scans source method previous (l :: ls) es
  | passed {l : Text} {previous : Option BlockKind} {ls : List Text} {es : List Entry}
      (hl : Text.after? methodMarker l = none) (hsource : source = .withProgramOutput)
      (h : Scans source [] previous ls es) : Scans source [] previous (l :: ls) es
  | entry {method l : Text} {previous : Option BlockKind} {ls : List Text} {es : List Entry}
      (hl : Text.after? methodMarker l = none) (hmethod : method ≠ [])
      (h : Scans source method (some (kindOf l)) ls es) :
      Scans source method previous (l :: ls) (⟨method, kindOf l, opensBlock previous l, l⟩ :: es)

/-- The entries come from a scan. -/
theorem scans_of_entries (hwritten : ∀ l ∈ ls, Text.blank l = false)
    (h : entries source method previous ls = .ok es) : Scans source method previous ls es := by
  induction ls generalizing method previous es with
  | nil =>
    rw [entries] at h
    cases method with
    | nil => cases h
    | cons c cs =>
      cases h
      exact .nil (List.cons_ne_nil c cs)
  | cons l ls ih =>
    obtain ⟨hl, hls⟩ := List.forall_mem_cons.1 hwritten
    rw [entries.eq_def] at h
    simp only [hl, Bool.false_eq_true, if_false] at h
    cases hmarker : Text.after? methodMarker l with
    | some name =>
      simp only [hmarker] at h
      exact .marker hmarker (ih hls h)
    | none =>
      simp only [hmarker] at h
      cases method with
      | nil =>
        cases source with
        | generatorOnly => cases h
        | withProgramOutput => exact .passed hmarker rfl (ih hls h)
      | cons c cs =>
        cases hrest : entries source (c :: cs) (some (kindOf l)) ls with
        | error f =>
          rw [hrest] at h
          cases h
        | ok es' =>
          rw [hrest] at h
          cases h
          exact .entry hmarker (List.cons_ne_nil c cs) (ih hls hrest)

/-- The scan gives these entries. -/
theorem Scans.entries_eq (h : Scans source method previous ls es)
    (hwritten : ∀ l ∈ ls, Text.blank l = false) : entries source method previous ls = .ok es := by
  induction h with
  | nil hmethod => rw [entries, if_neg (by simpa using hmethod)]
  | marker hl _ ih =>
    obtain ⟨hblank, hls⟩ := List.forall_mem_cons.1 hwritten
    rw [entries.eq_def]
    simp only [hblank, Bool.false_eq_true, if_false, hl, ih hls]
  | passed hl hsource _ ih =>
    obtain ⟨hblank, hls⟩ := List.forall_mem_cons.1 hwritten
    have hrest := ih hls
    subst hsource
    rw [entries.eq_def]
    simp only [hblank, Bool.false_eq_true, if_false, hl, List.isEmpty_nil, if_true, hrest]
  | @entry method l _ ls es hl hmethod _ ih =>
    obtain ⟨hblank, hls⟩ := List.forall_mem_cons.1 hwritten
    have hnamed : method.isEmpty = false := List.isEmpty_eq_false_iff.2 hmethod
    rw [entries.eq_def]
    simp only [hblank, Bool.false_eq_true, if_false, hl, hnamed, ih hls]
    rfl

/-- The scan of the listing without the notes goes over the lines that count. -/
theorem scans_of_scanBlocks {bs : List Block} (h : scanBlocks source (splitNotes raw).1 = .ok bs) :
    ∃ es, Scans source [] none (countedLines raw) es ∧ bs = groupEntries es := by
  rw [scanBlocks_splitNotes] at h
  cases hes : entries source [] none (countedLines raw) with
  | error f =>
    rw [hes] at h
    cases h
  | ok es =>
    rw [hes] at h
    cases h
    exact ⟨es, scans_of_entries (fun l hl => written_of_mem hl) hes, rfl⟩

end Scan

/-! ### Entries and the lines they stand for -/

section Entries

/-- The line of an entry, with the method that it belongs to. -/
def Entry.owned (e : Entry) : OwnedLine := ⟨e.method, e.line⟩

/-- Whether a line becomes an entry, when it counts: it belongs to a method and is no marker. -/
def OwnedLine.isEntry (o : OwnedLine) : Bool :=
  !o.method.isEmpty && !Text.startsWith o.line methodMarker

/-- Whether an entry may stand in the block of the one before it. -/
def Entry.Continues (e e' : Entry) : Prop :=
  e'.opens = false → e'.method = e.method ∧ e'.kind = e.kind

namespace Scans

/-- The entries are the lines of named methods that are no markers, in order. -/
theorem map_owned (h : Scans source method previous ls es) :
    es.map Entry.owned = (own method ls).filter OwnedLine.isEntry := by
  induction h with
  | nil => rfl
  | marker hl _ ih =>
    rw [ih, own, nearest_of_marker hl, List.filter_cons_of_neg]
    simp [OwnedLine.isEntry, Text.startsWith, hl]
  | passed hl _ _ ih =>
    rw [ih, own, nearest_of_not_marker hl, List.filter_cons_of_neg]
    simp [OwnedLine.isEntry]
  | entry hl hmethod _ ih =>
    rw [List.map_cons, ih, own, nearest_of_not_marker hl, List.filter_cons_of_pos]
    · rfl
    · simp [OwnedLine.isEntry, Text.startsWith, hl, hmethod]

/-- The kind of an entry is the kind of its line. -/
theorem kind_eq (h : Scans source method previous ls es) : ∀ e ∈ es, e.kind = kindOf e.line := by
  induction h with
  | nil => exact fun _ he => absurd he List.not_mem_nil
  | marker _ _ ih => exact ih
  | passed _ _ _ ih => exact ih
  | entry _ _ _ ih => exact List.forall_mem_cons.2 ⟨rfl, ih⟩

/-- The first entry behind a marker opens a block. -/
theorem opens_of_first (h : Scans source method previous ls (e :: es)) (hprevious : previous = none) :
    e.opens = true := by
  generalize hes : e :: es = entries at h
  induction h with
  | nil => cases hes
  | marker _ _ ih => exact ih rfl hes
  | passed _ _ _ ih => exact ih hprevious hes
  | entry =>
    cases hes
    subst hprevious
    rfl

/-- An entry that opens no block comes from the line behind the one before it, which has the same
kind and belongs to the same method. -/
theorem continues_of_first {k : BlockKind} (hmethod : method ≠ [])
    (h : Scans source method (some k) ls (e :: es)) (hopens : e.opens = false) :
    e.method = method ∧ e.kind = k ∧ Text.startsWith e.line methodMarker = false ∧
      ∃ below, ls = e.line :: below ∧ Scans source method (some k) below es := by
  cases h with
  | marker _ h =>
    rw [h.opens_of_first rfl] at hopens
    cases hopens
  | passed => exact absurd rfl hmethod
  | @entry _ l _ ls _ hl _ h =>
    have hkind : kindOf l = k := by
      simp only [opensBlock, Bool.or_eq_false_iff, decide_eq_false_iff_not, not_not] at hopens
      exact (Option.some.inj hopens.1).symm
    exact ⟨rfl, hkind, not_marker_iff.2 hl, ls, rfl, hkind ▸ h⟩

/-- Each entry may follow the one before it. -/
theorem isChain (h : Scans source method previous ls es) : es.IsChain Entry.Continues := by
  induction h with
  | nil => exact .nil
  | marker _ _ ih => exact ih
  | passed _ _ _ ih => exact ih
  | @entry _ _ _ _ es _ hmethod h ih =>
    cases es with
    | nil => exact .singleton _
    | cons e es =>
      refine .cons_cons (fun hopens => ?_) ih
      obtain ⟨hsame, hkind, -⟩ := h.continues_of_first hmethod hopens
      exact ⟨hsame, hkind⟩

end Scans

end Entries

end Listing

end JitInspect
