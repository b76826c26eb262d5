import JitInspect.Text.Basic
import Mathlib.Data.List.DropRight

/-!
# Trimmed texts

What is left of a text when the characters of a class are trimmed. `Text.trimEnd` is
`List.rdropWhile`, whose lemmas are used here.
-/

namespace JitInspect

namespace Text

variable {cls : Char → Bool} {t p sep : Text} {ps : List Text} {c : Char}

/-- Trimming the start stops before the first character that is not of the class. -/
theorem trimStart_append (hc : cls c = false) (a b : Text) :
    trimStart cls (a ++ c :: b) = trimStart cls a ++ c :: b := by
  have hstop : (c :: b).dropWhile cls = c :: b :=
    List.dropWhile_cons_of_neg (by rw [hc]; exact Bool.false_ne_true)
  unfold trimStart
  rw [List.dropWhile_append, hstop]
  split
  · next hnil => rw [List.isEmpty_iff.1 hnil, List.nil_append]
  · rfl

/-- Trimming the end stops before the last character that is not of the class. -/
theorem prefix_trimEnd (cls : Char → Bool) (hc : cls c = false) (p t : Text) :
    p ++ [c] <+: trimEnd cls (p ++ [c] ++ t) := by
  have hstop : (p ++ [c]).reverse.dropWhile cls = (p ++ [c]).reverse := by
    rw [List.reverse_concat', List.dropWhile_cons_of_neg (by rw [hc]; exact Bool.false_ne_true)]
  unfold trimEnd
  rw [List.reverse_append, List.dropWhile_append, hstop]
  split
  · simp
  · rw [List.reverse_append, List.reverse_reverse]
    exact List.prefix_append _ _

/-- Characters of the class are trimmed one by one from the end. -/
theorem trimEnd_append (ht : ∀ c ∈ t, cls c = true) (a : Text) :
    trimEnd cls (a ++ t) = trimEnd cls a := by
  have hall : ∀ c ∈ t.reverse, cls c = true := fun c hc => ht c (List.mem_reverse.1 hc)
  rw [trimEnd, List.reverse_append, List.dropWhile_append_of_pos hall, trimEnd]

/-- A text with no character of the class stays as it is. -/
theorem trimEnd_of_forall (ht : ∀ c ∈ t, cls c = false) : trimEnd cls t = t := by
  refine List.rdropWhile_eq_self_iff.2 fun hne => ?_
  rw [ht _ (List.getLast_mem hne)]
  exact Bool.false_ne_true

/-- What stands at the ends is trimmed if it is of the class, and nothing else. -/
theorem trim_append {front back : Text} (hfront : ∀ c ∈ front, cls c = true)
    (ht : ∀ c ∈ t, cls c = false) (hback : ∀ c ∈ back, cls c = true) :
    trim cls (front ++ (t ++ back)) = t := by
  have hstart : trimStart cls (front ++ (t ++ back)) = trimStart cls (t ++ back) :=
    List.dropWhile_append_of_pos hfront
  rw [trim, hstart]
  cases t with
  | nil =>
    have hnil : trimStart cls back = [] := List.dropWhile_eq_nil_iff.2 hback
    rw [List.nil_append, hnil]
    rfl
  | cons c t =>
    have hstop : trimStart cls (c :: (t ++ back)) = c :: (t ++ back) :=
      trimStart_append (ht c List.mem_cons_self) [] (t ++ back)
    rw [List.cons_append, hstop, ← List.cons_append, trimEnd_append hback, trimEnd_of_forall ht]

/-- A text with nothing to trim stays as it is. -/
theorem trim_of_forall (ht : ∀ c ∈ t, cls c = false) : trim cls t = t := by
  have htrim := trim_append (List.forall_mem_nil _) ht (List.forall_mem_nil _)
  rwa [List.nil_append, List.append_nil] at htrim

/-- A text is what is left of it between characters of the class. -/
theorem exists_trim (cls : Char → Bool) (t : Text) : ∃ front back,
    t = front ++ (trim cls t ++ back) ∧ (∀ c ∈ front, cls c = true) ∧ ∀ c ∈ back, cls c = true := by
  have hend : trim cls t ++ (trimStart cls t).rtakeWhile cls = trimStart cls t :=
    List.rdropWhile_append_rtakeWhile
  refine ⟨t.takeWhile cls, (trimStart cls t).rtakeWhile cls, ?_, ?_, ?_⟩
  · rw [hend]
    exact List.takeWhile_append_dropWhile.symm
  · exact fun c hc => List.mem_takeWhile_imp hc
  · exact fun c hc => List.mem_rtakeWhile_imp hc

/-- Nothing is left of a text of which all characters are of the class. -/
theorem trim_eq_nil_iff : trim cls t = [] ↔ ∀ c ∈ t, cls c = true := by
  have hend : trim cls t = [] ↔ ∀ c ∈ trimStart cls t, cls c = true := List.rdropWhile_eq_nil_iff
  rw [hend]
  constructor
  · intro h c hc
    rw [← List.takeWhile_append_dropWhile (p := cls) (l := t), List.mem_append] at hc
    rcases hc with hstart | hrest
    · exact List.mem_takeWhile_imp hstart
    · exact h c hrest
  · intro h c hc
    exact h c ((List.dropWhile_suffix cls).subset hc)

/-- What is left when the end is trimmed is nothing, or has a character that is not of the
class. -/
theorem trimEnd_eq_nil_iff : trimEnd cls t = [] ↔ ∀ c ∈ trimEnd cls t, cls c = true := by
  have hnil : trimEnd cls (trimEnd cls t) = [] ↔ ∀ c ∈ trimEnd cls t, cls c = true :=
    List.rdropWhile_eq_nil_iff
  rw [← hnil]
  exact Eq.congr_left (List.rdropWhile_idempotent cls t).symm

/-- The characters of texts that are joined by characters of a class. -/
theorem forall_mem_join (hsep : ∀ c ∈ sep, cls c = true) :
    (∀ c ∈ join sep ps, cls c = true) ↔ ∀ p ∈ ps, ∀ c ∈ p, cls c = true := by
  induction ps with
  | nil => simp [join]
  | cons p ps ih =>
    cases ps with
    | nil => simp [join]
    | cons q ps =>
      rw [join_cons sep p (List.cons_ne_nil q ps), List.forall_mem_append, List.forall_mem_append,
        ih, List.forall_mem_cons (a := p)]
      exact ⟨fun h => ⟨h.1.1, h.2⟩, fun h => ⟨⟨h.1, hsep⟩, h.2⟩⟩

end Text

end JitInspect
