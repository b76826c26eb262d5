import JitInspect.Supervision.Stream
import Mathlib.Data.List.Infix

/-!
# The lines of a stream

However the bytes of a stream are cut into pieces, reading them piece by piece gives the lines that
the bytes have as a whole. `Supervision.linesOf` says which lines these are, without pieces and
without a line that is still unfinished.

A stream that has been read so far is described by what is still to come: `Stream.Follows` says
that, whatever comes next, the lines of all bytes are those that were given and then those of the
unfinished line with what comes next. Reading a piece keeps this (`Stream.Follows.feed`), unless a
line is longer than allowed, and at the end it leaves no line out (`Stream.Follows.close`).
-/

namespace JitInspect

namespace Supervision

variable {bs l piece : Bytes} {ls : List Bytes}

/-! ### Lines of bytes -/

section Lines

/-- Adds a byte in front of the first line. -/
def addFirst (b : UInt8) : List Bytes → List Bytes
  | [] => [[b]]
  | l :: ls => (b :: l) :: ls

/-- The lines of the bytes of a stream, each without the line feed that ends it. What stands behind
the last line feed is a line, too, unless it is nothing. -/
def linesOf : Bytes → List Bytes
  | [] => []
  | b :: bs => if b = lineFeed then [] :: linesOf bs else addFirst b (linesOf bs)

/-- A line feed ends a line. -/
theorem linesOf_append_lineFeed (hl : lineFeed ∉ l) (bs : Bytes) :
    linesOf (l ++ lineFeed :: bs) = l :: linesOf bs := by
  induction l with
  | nil => rw [List.nil_append, linesOf, if_pos rfl]
  | cons b l ih =>
    obtain ⟨hb, hl⟩ := not_or.1 (List.mem_cons.not.1 hl)
    rw [List.cons_append, linesOf, if_neg (Ne.symm hb), ih hl]
    rfl

/-- Bytes without a line feed are at most one line. -/
theorem linesOf_of_not_mem (hl : lineFeed ∉ l) : linesOf l = if l.isEmpty then [] else [l] := by
  induction l with
  | nil => rfl
  | cons b l ih =>
    obtain ⟨hb, hl⟩ := not_or.1 (List.mem_cons.not.1 hl)
    rw [linesOf, if_neg (Ne.symm hb), ih hl]
    cases l <;> rfl

/-- A line that is going on is the beginning of the first line of all that comes. -/
theorem exists_linesOf_append (hl : lineFeed ∉ l) (hne : l ≠ []) (bs : Bytes) :
    ∃ l' ls, linesOf (l ++ bs) = l' :: ls ∧ l <+: l' := by
  induction l with
  | nil => exact absurd rfl hne
  | cons b l ih =>
    obtain ⟨hb, hl⟩ := not_or.1 (List.mem_cons.not.1 hl)
    rw [List.cons_append, linesOf, if_neg (Ne.symm hb)]
    rcases List.eq_nil_or_concat l with rfl | ⟨l', b', rfl⟩
    · cases linesOf ([] ++ bs) with
      | nil => exact ⟨[b], [], rfl, List.prefix_rfl⟩
      | cons l' ls => exact ⟨b :: l', ls, rfl, List.prefix_append [b] l'⟩
    · obtain ⟨l', ls, hlines, hfront⟩ := ih hl (by simp)
      rw [hlines]
      exact ⟨b :: l', ls, rfl, List.cons_prefix_cons.2 ⟨rfl, hfront⟩⟩

end Lines

/-! ### A piece byte by byte -/

section Splitting

/-- What is known of a piece that is being split when all of the given bytes have been read. -/
structure Splitting.Reads (r : Splitting) (bs : Bytes) : Prop where
  /-- The lines so far are lines of the stream, whatever comes next. -/
  begins : ∀ rest, r.lines.reverse <+: linesOf (bs ++ rest)
  /-- Without a fault the other lines are those of the unfinished line with what comes next. -/
  follows : r.fault = none → ∀ rest,
    linesOf (bs ++ rest) = r.lines.reverse ++ linesOf (r.unfinished.reverse ++ rest)
  unfinished : r.fault = none → lineFeed ∉ r.unfinished ∧ r.length = r.unfinished.length
  /-- A fault comes from a line that is too long. -/
  tooLong : r.fault ≠ none → ∀ rest, ∃ l ∈ linesOf (bs ++ rest), maxLineBytes < l.length

/-- The next byte is read. -/
theorem Splitting.Reads.next {r : Splitting} (h : r.Reads bs) (b : UInt8) :
    (r.next b).Reads (bs ++ [b]) := by
  unfold Splitting.next
  by_cases hfault : r.fault.isSome = true
  · have hne : r.fault ≠ none := Option.isSome_iff_ne_none.1 hfault
    rw [if_pos hfault]
    refine ⟨fun rest => ?_, fun hnone => absurd hnone hne, fun hnone => absurd hnone hne,
      fun _ rest => ?_⟩
    · rw [List.append_assoc]
      exact h.begins _
    · rw [List.append_assoc]
      exact h.tooLong hne _
  have hnone : r.fault = none := by simpa using hfault
  obtain ⟨hfeed, hlength⟩ := h.unfinished hnone
  have hfeed' : lineFeed ∉ r.unfinished.reverse := fun hmem => hfeed (List.mem_reverse.1 hmem)
  rw [if_neg hfault]
  by_cases hb : b = lineFeed
  · subst hb
    -- the line feed ends the unfinished line, which is then a line of the stream
    have hended : ∀ rest, linesOf (bs ++ [lineFeed] ++ rest) =
        (r.unfinished.reverse :: r.lines).reverse ++ linesOf rest := by
      intro rest
      rw [List.append_assoc, h.follows hnone, List.singleton_append,
        linesOf_append_lineFeed hfeed', List.reverse_cons, List.append_assoc]
      rfl
    rw [if_pos rfl]
    split
    · next hlong =>
      refine ⟨fun rest => ?_, fun hsome => absurd hsome (by simp), fun hsome =>
        absurd hsome (by simp), fun _ rest => ⟨r.unfinished.reverse, ?_, ?_⟩⟩
      · rw [List.append_assoc]
        exact h.begins _
      · rw [hended]
        simp
      · rw [List.length_reverse, ← hlength]
        exact hlong
    · refine ⟨fun rest => ?_, fun _ rest => ?_, fun _ => ⟨List.not_mem_nil, rfl⟩,
        fun hsome => absurd hnone hsome⟩
      · rw [hended]
        exact List.prefix_append _ _
      · rw [hended]
        rfl
  · rw [if_neg hb]
    have hgoes : ∀ rest, linesOf (bs ++ [b] ++ rest) =
        r.lines.reverse ++ linesOf ((b :: r.unfinished).reverse ++ rest) := by
      intro rest
      rw [List.append_assoc, h.follows hnone, List.reverse_cons, List.append_assoc]
    refine ⟨fun rest => ?_, fun _ => hgoes, fun _ => ⟨?_, ?_⟩, fun hsome => absurd hnone hsome⟩
    · rw [hgoes]
      exact List.prefix_append _ _
    · exact List.mem_cons.not.2 (not_or.2 ⟨Ne.symm hb, hfeed⟩)
    · rw [List.length_cons, hlength]

/-- What is split reads a piece byte by byte. -/
theorem Splitting.Reads.foldl {r : Splitting} (h : r.Reads bs) (piece : Bytes) :
    (piece.foldl Splitting.next r).Reads (bs ++ piece) := by
  induction piece generalizing r bs with
  | nil => rwa [List.append_nil]
  | cons b piece ih =>
    rw [List.foldl_cons, ← List.singleton_append, ← List.append_assoc]
    exact ih (h.next b)

end Splitting

/-! ### Pieces of a stream -/

namespace Stream

variable {s : Stream}

/-- The stream has given the lines `ls` of the bytes `bs`, and a line of them may be unfinished. -/
structure Follows (s : Stream) (bs : Bytes) (ls : List Bytes) : Prop where
  lines : ∀ rest, linesOf (bs ++ rest) = ls ++ linesOf (s.unfinished.reverse ++ rest)
  noFeed : lineFeed ∉ s.unfinished
  length : s.length = s.unfinished.length

/-- The lines that were given are lines of the bytes. -/
theorem Follows.begins (h : s.Follows bs ls) (rest : Bytes) : ls <+: linesOf (bs ++ rest) := by
  rw [h.lines]
  exact List.prefix_append _ _

/-- A stream of which nothing was read. -/
theorem follows_nil (reading : Reading) : Follows { reading } [] [] :=
  ⟨fun _ => rfl, List.not_mem_nil, rfl⟩

/-- Reading a piece does not change how far the reading has come. -/
theorem reading_feed (s : Stream) (piece : Bytes) : (s.feed piece).1.reading = s.reading := rfl

/-- What reading a piece gives are lines of the stream. Without a fault the stream goes on. A fault
comes from a line that is too long. -/
theorem Follows.feed (h : s.Follows bs ls) (piece : Bytes) :
    (∀ rest, ls ++ (s.feed piece).2.1 <+: linesOf (bs ++ piece ++ rest)) ∧
      ((s.feed piece).2.2 = none →
        (s.feed piece).1.Follows (bs ++ piece) (ls ++ (s.feed piece).2.1)) ∧
      ((s.feed piece).2.2 ≠ none →
        ∀ rest, ∃ l ∈ linesOf (bs ++ piece ++ rest), maxLineBytes < l.length) := by
  have hstart : Splitting.Reads { unfinished := s.unfinished, length := s.length }
      s.unfinished.reverse :=
    ⟨fun _ => List.nil_prefix, fun _ _ => rfl, fun _ => ⟨h.noFeed, h.length⟩,
      fun hsome => absurd rfl hsome⟩
  have hreads := hstart.foldl piece
  have hall : ∀ rest, linesOf (bs ++ piece ++ rest) =
      ls ++ linesOf (s.unfinished.reverse ++ piece ++ rest) := by
    intro rest
    rw [List.append_assoc, h.lines, List.append_assoc]
  unfold Stream.feed
  generalize piece.foldl Splitting.next { unfinished := s.unfinished, length := s.length } = r
    at hreads
  refine ⟨fun rest => ?_, fun hnone => ?_, fun hsome rest => ?_⟩
  · rw [hall]
    exact List.prefix_append_right_inj _ |>.2 (hreads.begins rest)
  · have hfault : r.fault = none := by
      by_contra hsome
      obtain ⟨f, hf⟩ := Option.ne_none_iff_exists'.1 hsome
      simp [hf] at hnone
    obtain ⟨hfeed, hlength⟩ := hreads.unfinished hfault
    refine ⟨fun rest => ?_, hfeed, hlength⟩
    rw [hall, hreads.follows hfault, List.append_assoc]
  · rw [hall]
    by_cases hfault : r.fault = none
    · -- the unfinished line is too long, and it only grows
      have hlong : maxLineBytes < r.length := by
        by_contra hshort
        simp [hfault, hshort] at hsome
      obtain ⟨hfeed, hlength⟩ := hreads.unfinished hfault
      have hne : r.unfinished.reverse ≠ [] := by
        intro hnil
        rw [List.reverse_eq_nil_iff.1 hnil] at hlength
        rw [hlength] at hlong
        exact absurd hlong (Nat.not_lt_zero _)
      obtain ⟨l, rest', hlines, hl⟩ :=
        exists_linesOf_append (fun hmem => hfeed (List.mem_reverse.1 hmem)) hne rest
      refine ⟨l, ?_, ?_⟩
      · rw [hreads.follows hfault, hlines]
        simp
      · have hle := hl.length_le
        rw [List.length_reverse, ← hlength] at hle
        exact Nat.lt_of_lt_of_le hlong hle
    · obtain ⟨l, hl, hlong⟩ := hreads.tooLong hfault rest
      exact ⟨l, List.mem_append_right _ hl, hlong⟩

/-- The end of a stream leaves no line out. -/
theorem Follows.close (h : s.Follows bs ls) : linesOf bs = ls ++ s.close.2 := by
  have hfeed : lineFeed ∉ s.unfinished.reverse := fun hmem => h.noFeed (List.mem_reverse.1 hmem)
  have hlines := h.lines []
  rw [List.append_nil, List.append_nil, linesOf_of_not_mem hfeed, List.isEmpty_reverse] at hlines
  exact hlines

end Stream

end Supervision

end JitInspect
