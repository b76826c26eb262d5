import JitInspect.Proofs.Text.Pattern
import Mathlib.Data.List.DropRight

/-!
# Texts in pieces

Cutting a text at one character is what the library's `List.splitOn` does (`splitOn_singleton`), and
pieces without the character are read back when they were joined with it (`splitOn_join`). Replacing one
character by another changes the text character by character (`replace_singleton`). Behind its last
occurrence there stands what `List.rtakeWhile` takes (`rtakeWhile_append_cons`). What `List.takeWhile`
takes is told by where the text can be cut (`takeWhile_eq_iff`).
-/

namespace JitInspect

namespace Text

/-! ### Cutting at a character -/

section Cutting

variable {s : Char}

/-- Cutting at a pattern of one character is cutting at that character. -/
theorem splitOn_singleton (s : Char) (t : Text) : splitOn [s] t = List.splitOn s t := by
  unfold splitOn
  induction t with
  | nil => rfl
  | cons c cs ih =>
    rw [List.splitOn_cons_eq_if_modifyHead, splitOnFrom]
    by_cases hc : c = s
    · subst hc
      have hstart : startsWith (c :: cs) [c] = true := startsWith_iff.2 ⟨cs, rfl⟩
      rw [if_pos hstart, if_pos (by simp)]
      exact congrArg _ ih
    · have hnot : ¬ startsWith (c :: cs) [s] = true := by
        rw [startsWith_iff]
        rintro ⟨rest, hrest⟩
        exact hc (List.cons.inj hrest).1
      rw [if_neg hnot, if_neg (by simpa using hc), ih]
      cases hcs : List.splitOn s cs with
      | nil => exact absurd hcs (List.splitOn_ne_nil s cs)
      | cons p ps => rfl

/-- Joining with one character. -/
theorem join_singleton (s : Char) (ps : List Text) : join [s] ps = [s].intercalate ps := by
  induction ps with
  | nil => rfl
  | cons p ps ih =>
    cases ps with
    | nil => simp [join, List.intercalate]
    | cons q qs =>
      rw [join_cons [s] p (List.cons_ne_nil q qs), ih]
      simp [List.intercalate]

/-- What was joined ends with the last piece. -/
theorem suffix_join {sep p : Text} {ps : List Text} (h : ps.getLast? = some p) : p <:+ join sep ps := by
  obtain ⟨qs, rfl⟩ := List.getLast?_eq_some_iff.1 h
  by_cases hqs : qs = []
  · rw [hqs]
    exact List.suffix_rfl
  · rw [join_append hqs (List.cons_ne_nil p [])]
    exact List.suffix_append _ _

/-- The pieces that were joined are read back, if none of them holds the character. -/
theorem splitOn_join {ps : List Text} (h : ∀ p ∈ ps, s ∉ p) (hne : ps ≠ []) :
    splitOn [s] (join [s] ps) = ps := by
  rw [splitOn_singleton, join_singleton, List.splitOn_intercalate s h hne]

/-- A text without the separator is one piece. -/
theorem splitOn_of_not_mem {t : Text} (h : s ∉ t) : splitOn [s] t = [t] := by
  rw [splitOn_singleton, List.splitOn_eq_singleton h]

/-- The pieces on both sides of an occurrence of the character. -/
theorem splitOn_append_cons (a b : Text) :
    splitOn [s] (a ++ s :: b) = splitOn [s] a ++ splitOn [s] b := by
  rw [splitOn_singleton, splitOn_singleton, splitOn_singleton, List.splitOn_append_cons_self]

/-- No piece holds the character. -/
theorem not_mem_of_mem_splitOn {t p : Text} (hp : p ∈ splitOn [s] t) : s ∉ p := by
  rw [splitOn_singleton] at hp
  induction t generalizing p with
  | nil =>
    rw [List.splitOn_nil, List.mem_singleton] at hp
    subst hp
    exact List.not_mem_nil
  | cons c cs ih =>
    rw [List.splitOn_cons_eq_if_modifyHead] at hp
    by_cases hc : c = s
    · rw [if_pos (by simpa using hc)] at hp
      rcases List.mem_cons.1 hp with rfl | hp
      · exact List.not_mem_nil
      · exact ih hp
    · rw [if_neg (by simpa using hc)] at hp
      cases hcs : List.splitOn s cs with
      | nil => exact absurd hcs (List.splitOn_ne_nil s cs)
      | cons q qs =>
        rw [hcs] at hp ih
        rcases List.mem_cons.1 hp with rfl | hp
        · have hq : s ∉ q := ih List.mem_cons_self
          simp [hq, Ne.symm hc]
        · exact ih (List.mem_cons_of_mem _ hp)

end Cutting

/-! ### One character for another -/

section Exchanging

/-- Replacing one character by another. -/
theorem replace_singleton (a b : Char) (t : Text) :
    replace [a] [b] t = t.map fun c => if c = a then b else c := by
  induction t with
  | nil => rfl
  | cons c t ih =>
    rw [List.map_cons]
    by_cases hc : c = a
    · subst hc
      rw [if_pos rfl]
      exact (replace_pattern (List.cons_ne_nil _ _) _ t).trans (congrArg _ ih)
    · have hstart : ¬[a] <+: c :: t := fun h => hc (List.cons_prefix_cons.1 h).1.symm
      rw [if_neg hc, replace_cons hstart, ih]

/-- The pieces and what stands between them are changed alike. -/
theorem map_join (f : Char → Char) (sep : Text) (ps : List Text) :
    (join sep ps).map f = join (sep.map f) (ps.map (List.map f)) := by
  induction ps with
  | nil => rfl
  | cons p ps ih =>
    by_cases hps : ps = []
    · rw [hps]
      rfl
    · rw [List.map_cons, join_cons _ _ hps, join_cons _ _ (by simpa using hps), ← ih,
        List.map_append, List.map_append]

end Exchanging

/-! ### The last occurrence of a character -/

section Last

variable {s : Char}

theorem rtakeWhile_append_cons {b : Text} (hb : s ∉ b) (a : Text) :
    (a ++ s :: b).rtakeWhile (· ≠ s) = b := by
  have hall : ∀ c ∈ b.reverse, decide (c ≠ s) = true := by
    intro c hc
    rw [decide_eq_true_eq]
    rintro rfl
    exact hb (List.mem_reverse.1 hc)
  rw [List.rtakeWhile, List.reverse_append, List.reverse_cons, List.append_assoc,
    List.takeWhile_append_of_pos hall]
  simp

/-- Without a separator it is the whole text. -/
theorem rtakeWhile_of_not_mem {t : Text} (h : s ∉ t) : t.rtakeWhile (· ≠ s) = t := by
  rw [List.rtakeWhile_eq_self_iff]
  intro c hc
  rw [decide_eq_true_eq]
  rintro rfl
  exact h hc

/-- Either the character does not occur, or the text is cut at its last occurrence. -/
theorem eq_append_last_cases (s : Char) (t : Text) : s ∉ t ∨ ∃ a b, t = a ++ s :: b ∧ s ∉ b := by
  by_cases hs : s ∈ t
  · obtain ⟨b, a, hsplit, hb⟩ := List.eq_append_cons_of_mem (List.mem_reverse.2 hs)
    refine Or.inr ⟨a.reverse, b.reverse, ?_, fun h => hb (List.mem_reverse.1 h)⟩
    rw [← List.reverse_reverse t, hsplit]
    simp
  · exact Or.inl hs

end Last

/-! ### The characters of a class at the start -/

section Start

variable {cls : Char → Bool} {t start : Text}

/-- The text is cut in front of the first character that is not of the class. -/
theorem takeWhile_eq_iff : t.takeWhile cls = start ↔
    ∃ rest, t = start ++ rest ∧ (∀ c ∈ start, cls c = true) ∧ ∀ c ∈ rest.head?, cls c = false := by
  constructor
  · rintro rfl
    refine ⟨t.dropWhile cls, List.takeWhile_append_dropWhile.symm, ?_, ?_⟩
    · intro c hc
      exact List.mem_takeWhile_imp hc
    · intro c hc
      have hstop := List.head?_dropWhile_not cls t
      rwa [Option.mem_def.1 hc] at hstop
  · rintro ⟨rest, rfl, hstart, hrest⟩
    have hstop : rest.takeWhile cls = [] := by
      cases rest with
      | nil => rfl
      | cons c rest =>
        have hc : cls c = false := hrest c rfl
        rw [List.takeWhile_cons, hc]
        rfl
    rw [List.takeWhile_append_of_pos hstart, hstop, List.append_nil]

end Start

end Text

end JitInspect
