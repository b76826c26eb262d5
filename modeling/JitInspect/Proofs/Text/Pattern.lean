import JitInspect.Text.Basic
import Mathlib.Data.List.Infix

/-!
# Occurrences of a pattern

A text is searched for a pattern from the left or from the right, and cut at each of its occurrences.
The searches find the pattern if and only if it occurs (`splitFirst_eq_none_iff`,
`splitLast_eq_none_iff`).

When two texts are put together, the pattern may occur where they meet. It does not if the second text
begins with the first character of the pattern and that does not come again in it
(`Text.LeadsOnce`). So a text is searched and cut in front of an occurrence of such a pattern as if
nothing stood behind (`firstAt_append`, `splitOn_append`, `replace_append`).
-/

namespace JitInspect

namespace Text

variable {pat a b t before rest : Text} {p c : Char} {ps : Text}

/-! ### Where a pattern occurs -/

section Occurrences

/-- The text after the pattern is there if and only if the text starts with it. -/
theorem after?_eq_none_iff : after? pat t = none ↔ ¬ pat <+: t := by
  constructor
  · rintro h ⟨rest, rfl⟩
    rw [after?_append] at h
    cases h
  · intro h
    cases hafter : after? pat t with
    | none => rfl
    | some rest => exact absurd ⟨rest, (eq_append_of_after? hafter).symm⟩ h

/-- A text starts with what is ahead of it. -/
theorem startsWith_eq_true_iff : startsWith t pat = true ↔ pat <+: t := by
  rw [startsWith_iff]
  exact exists_congr fun _ => eq_comm

/-- The search from the left finds the pattern unless it does not occur. -/
theorem splitFirst_eq_none_iff : splitFirst pat t = none ↔ ¬ pat <:+: t := by
  induction t with
  | nil => rw [splitFirst, Option.map_eq_none_iff, after?_eq_none_iff, List.infix_nil, List.prefix_nil]
  | cons c cs ih =>
    rw [List.infix_cons_iff, not_or, ← ih, ← after?_eq_none_iff, splitFirst]
    cases after? pat (c :: cs) <;> simp

/-- The first occurrence of the pattern in the text stands between the two parts. -/
structure FirstAt (pat t before rest : Text) : Prop where
  eq : t = before ++ (pat ++ rest)
  first : ∀ b r, t = b ++ (pat ++ r) → before.length ≤ b.length

/-- What the search from the left finds is an occurrence, and the first one. -/
theorem firstAt_of_splitFirst (h : splitFirst pat t = some (before, rest)) :
    FirstAt pat t before rest := by
  refine ⟨(eq_append_of_splitFirst h).trans (List.append_assoc _ _ _), ?_⟩
  induction t generalizing before with
  | nil =>
    have hparts := (eq_append_of_splitFirst h).symm
    rw [List.append_eq_nil_iff, List.append_eq_nil_iff] at hparts
    intro b r _
    rw [hparts.1.1]
    exact Nat.zero_le _
  | cons c cs ih =>
    intro b r hother
    rw [splitFirst] at h
    split at h
    · cases h
      exact Nat.zero_le _
    · next hnone =>
      obtain ⟨⟨before, rest⟩, hcs, heq⟩ := Option.map_eq_some_iff.1 h
      cases heq
      cases b with
      | nil => exact absurd ⟨r, hother.symm⟩ (after?_eq_none_iff.1 hnone)
      | cons x b => exact Nat.succ_le_succ (ih hcs b r (List.cons.inj hother).2)

/-- There is one first occurrence, and the search from the left finds it. -/
theorem splitFirst_eq_some_iff :
    splitFirst pat t = some (before, rest) ↔ FirstAt pat t before rest := by
  refine ⟨firstAt_of_splitFirst, fun h => ?_⟩
  cases hfound : splitFirst pat t with
  | none =>
    exact absurd ⟨before, rest, (List.append_assoc _ _ _).trans h.eq.symm⟩
      (splitFirst_eq_none_iff.1 hfound)
  | some parts =>
    obtain ⟨before₁, rest₁⟩ := parts
    have h₁ := firstAt_of_splitFirst hfound
    have hlength : before₁.length = before.length :=
      Nat.le_antisymm (h₁.first _ _ h.eq) (h.first _ _ h₁.eq)
    obtain ⟨rfl, hrest⟩ := List.append_inj (h₁.eq.symm.trans h.eq) hlength
    rw [List.append_cancel_left hrest]

/-- The search from the right finds the pattern unless it does not occur. -/
theorem splitLast_eq_none_iff : splitLast pat t = none ↔ ¬ pat <:+: t := by
  induction t with
  | nil => rw [splitLast, Option.map_eq_none_iff, after?_eq_none_iff, List.infix_nil, List.prefix_nil]
  | cons c cs ih =>
    rw [List.infix_cons_iff, not_or, ← ih, ← after?_eq_none_iff, splitLast]
    cases splitLast pat cs <;> simp

/-- What the search from the right finds is an occurrence. -/
theorem eq_append_of_splitLast (h : splitLast pat t = some (before, rest)) :
    t = before ++ (pat ++ rest) := by
  induction t generalizing before with
  | nil =>
    obtain ⟨r, hr, heq⟩ := Option.map_eq_some_iff.1 h
    cases heq
    exact (eq_append_of_after? hr).trans (List.nil_append _).symm
  | cons c cs ih =>
    rw [splitLast] at h
    split at h
    · next before₁ rest₁ hcs =>
      cases h
      rw [List.cons_append, ← ih hcs]
    · obtain ⟨r, hr, heq⟩ := Option.map_eq_some_iff.1 h
      cases heq
      exact (eq_append_of_after? hr).trans (List.nil_append _).symm

/-- The last occurrence in a text is the last one also when more stands in front of it. -/
theorem splitLast_append (h : splitLast pat t = some (before, rest)) (a : Text) :
    splitLast pat (a ++ t) = some (a ++ before, rest) := by
  induction a with
  | nil => exact h
  | cons c cs ih => rw [List.cons_append, splitLast, ih]; rfl

/-- The occurrence at the start is the last one if there is none behind its first character. -/
theorem splitLast_pattern (h : ¬ p :: ps <:+: ps ++ rest) :
    splitLast (p :: ps) (p :: ps ++ rest) = some ([], rest) := by
  rw [List.cons_append, splitLast, splitLast_eq_none_iff.2 h, ← List.cons_append, after?_append]
  rfl

/-- The search from the right stops at an occurrence whose first character does not come again. -/
theorem splitLast_append_pattern (h : p ∉ ps ++ rest) (a : Text) :
    splitLast (p :: ps) (a ++ (p :: ps ++ rest)) = some (a, rest) := by
  have honce : ¬ p :: ps <:+: ps ++ rest := fun hoccurs => h (hoccurs.subset List.mem_cons_self)
  have hsplit := splitLast_append (splitLast_pattern honce) a
  rwa [List.append_nil] at hsplit

/-- A text without the pattern is one piece. -/
theorem splitOn_of_not_infix (h : ¬ pat <:+: t) : splitOn pat t = [t] := by
  unfold splitOn
  induction t with
  | nil => rfl
  | cons c cs ih =>
    rw [List.infix_cons_iff, not_or, ← startsWith_eq_true_iff] at h
    rw [splitOnFrom, if_neg h.1, ih h.2, consFirst]

end Occurrences

/-! ### Where two texts meet -/

section Meeting

/-- An occurrence does not begin where its first character does not stand. -/
theorem infix_append_of_not_mem (h : p ∉ a) : p :: ps <:+: a ++ b ↔ p :: ps <:+: b := by
  refine ⟨fun hoccurs => ?_, fun hb => hb.trans (List.suffix_append a b).isInfix⟩
  induction a with
  | nil => exact hoccurs
  | cons c cs ih =>
    rw [List.mem_cons, not_or] at h
    rw [List.cons_append, List.infix_cons_iff] at hoccurs
    rcases hoccurs with hfirst | hrest
    · exact absurd (List.cons_prefix_cons.1 hfirst).1 h.1
    · exact ih h.2 hrest

/-- An occurrence does not go on over a character that the pattern does not have. -/
theorem infix_append_cons_of_not_mem (h : c ∉ pat) :
    pat <:+: a ++ c :: b ↔ pat <:+: a ∨ pat <:+: b := by
  constructor
  · rw [List.infix_append_iff, List.infix_cons_iff]
    rintro (ha | (hfirst | hb) | ⟨l₁, l₂, rfl, hl₁, hl₂⟩)
    · exact Or.inl ha
    · rcases List.prefix_cons_iff.1 hfirst with rfl | ⟨ps, rfl, -⟩
      · exact Or.inl (List.nil_infix)
      · exact absurd List.mem_cons_self h
    · exact Or.inr hb
    · rcases List.prefix_cons_iff.1 hl₂ with rfl | ⟨ps, rfl, -⟩
      · rw [List.append_nil]
        exact Or.inl hl₁.isInfix
      · exact absurd (List.mem_append_right l₁ List.mem_cons_self) h
  · rintro (ha | hb)
    · exact ha.trans (List.prefix_append a _).isInfix
    · exact hb.trans ((List.suffix_cons c b).isInfix.trans (List.suffix_append a _).isInfix)

/-- A text starts with a pattern or not whatever stands behind it, if that begins with a character that
the pattern does not have. -/
theorem after?_append_cons (h : p ∉ pat) (a b : Text) :
    after? pat (a ++ p :: b) = (after? pat a).map (· ++ p :: b) := by
  induction pat generalizing a with
  | nil => rfl
  | cons q qs ih =>
    rw [List.mem_cons, not_or] at h
    cases a with
    | nil =>
      have hnone : after? (q :: qs) (p :: b) = none := if_neg (Ne.symm h.1)
      rw [List.nil_append, hnone]
      rfl
    | cons c cs =>
      rw [List.cons_append, after?, after?]
      split
      · exact ih h.2 cs
      · rfl

/-- A pattern is looked for on both sides of a character that it does not have, first on the left. -/
theorem splitFirst_append_cons (hp : p ∉ pat) (hpat : pat ≠ []) (a b : Text) :
    splitFirst pat (a ++ p :: b) =
      match splitFirst pat a with
      | some (before, rest) => some (before, rest ++ p :: b)
      | none => (splitFirst pat b).map fun (before, rest) => (a ++ p :: before, rest) := by
  have hnil : after? pat [] = none := by
    rw [after?_eq_none_iff, List.prefix_nil]
    exact hpat
  induction a with
  | nil =>
    have hcons : after? pat (p :: b) = none := by
      have hmeet := after?_append_cons hp [] b
      rwa [hnil] at hmeet
    have hleft : splitFirst pat [] = none := by rw [splitFirst, hnil, Option.map_none]
    rw [hleft, List.nil_append, splitFirst, hcons]
    rfl
  | cons c cs ih =>
    have hmeet : after? pat (c :: (cs ++ p :: b)) = (after? pat (c :: cs)).map (· ++ p :: b) :=
      after?_append_cons hp (c :: cs) b
    rw [List.cons_append, splitFirst, splitFirst, hmeet, ih]
    cases after? pat (c :: cs) with
    | some rest => rfl
    | none =>
      cases splitFirst pat cs with
      | some parts => rfl
      | none => exact Option.map_map _ _ _

/-- The same for a pattern whose first character does not come again in it, if the text is not empty. -/
theorem startsWith_append_cons (h : p ∉ ps) (c : Char) (a b : Text) :
    startsWith (c :: (a ++ p :: b)) (p :: ps) = startsWith (c :: a) (p :: ps) := by
  rw [startsWith, startsWith, after?, after?]
  split
  · rw [after?_append_cons h, Option.isSome_map]
  · rfl

/-- The pattern is not empty, and its first character does not come again in it. -/
def LeadsOnce : Text → Prop
  | [] => False
  | p :: ps => p ∉ ps

instance : DecidablePred LeadsOnce
  | [] => inferInstanceAs (Decidable False)
  | p :: ps => inferInstanceAs (Decidable (p ∉ ps))

/-- An occurrence is the first one if there is none in front of it. -/
theorem firstAt_append (h : pat.LeadsOnce) (ha : ¬ pat <:+: a) (b : Text) :
    FirstAt pat (a ++ (pat ++ b)) a b := by
  refine splitFirst_eq_some_iff.1 ?_
  cases pat with
  | nil => exact h.elim
  | cons p ps =>
    induction a with
    | nil => rw [List.nil_append, List.cons_append, splitFirst, ← List.cons_append, after?_append]
    | cons c cs ih =>
      rw [List.infix_cons_iff, not_or, ← startsWith_eq_true_iff] at ha
      have hnone : after? (p :: ps) (c :: (cs ++ (p :: ps ++ b))) = none := by
        rw [after?_eq_none_iff, ← startsWith_eq_true_iff, List.cons_append, startsWith_append_cons h]
        exact ha.1
      rw [List.cons_append, splitFirst, hnone, ih ha.2]
      rfl

theorem splitOnFrom_append (h : p ∉ ps) {skip : ℕ} (ha : skip ≤ a.length) (b : Text) :
    splitOnFrom (p :: ps) skip (a ++ (p :: ps ++ b)) =
      splitOnFrom (p :: ps) skip a ++ splitOnFrom (p :: ps) 0 b := by
  induction a generalizing skip with
  | nil =>
    obtain rfl : skip = 0 := Nat.le_zero.1 ha
    have hstart : startsWith (p :: (ps ++ b)) (p :: ps) = true := startsWith_iff.2 ⟨b, rfl⟩
    have hcut : splitOnFrom (p :: ps) 0 (p :: (ps ++ b)) =
        [] :: splitOnFrom (p :: ps) ps.length (ps ++ b) := if_pos hstart
    rw [List.nil_append, List.cons_append, hcut, splitOnFrom_drop, List.drop_left]
    rfl
  | cons c cs ih =>
    cases skip with
    | succ k => exact ih (Nat.le_of_succ_le_succ ha)
    | zero =>
      have hsame : startsWith (c :: (cs ++ (p :: ps ++ b))) (p :: ps) =
          startsWith (c :: cs) (p :: ps) := startsWith_append_cons h c cs (ps ++ b)
      rw [List.cons_append, splitOnFrom, splitOnFrom, hsame]
      split
      · next hstart =>
        -- the rest of the occurrence, which is passed over, stands in the first text
        have hlength := (startsWith_eq_true_iff.1 hstart).length_le
        simp only [List.length_cons] at hlength
        rw [ih (by simp only [List.length_cons]; omega), List.cons_append]
      · rw [ih (Nat.zero_le _)]
        obtain ⟨q, qs, hq⟩ := List.exists_cons_of_ne_nil (splitOnFrom_ne_nil (p :: ps) 0 cs)
        rw [hq]
        rfl

/-- A text is cut on both sides of an occurrence as if the other side were not there. -/
theorem splitOn_append (h : pat.LeadsOnce) (a b : Text) :
    splitOn pat (a ++ (pat ++ b)) = splitOn pat a ++ splitOn pat b := by
  cases pat with
  | nil => exact h.elim
  | cons p ps => exact splitOnFrom_append h (Nat.zero_le _) b

theorem join_append {sep : Text} {ps qs : List Text} (hp : ps ≠ []) (hq : qs ≠ []) :
    join sep (ps ++ qs) = join sep ps ++ sep ++ join sep qs := by
  induction ps with
  | nil => exact absurd rfl hp
  | cons p ps ih =>
    cases ps with
    | nil => exact join_cons sep p hq
    | cons r rs =>
      rw [List.cons_append, join_cons sep p (by simp), ih (List.cons_ne_nil r rs),
        join_cons sep p (List.cons_ne_nil r rs)]
      simp

/-- Occurrences are replaced on both sides of one as if the other side were not there. -/
theorem replace_append (h : pat.LeadsOnce) (new a b : Text) :
    replace pat new (a ++ (pat ++ b)) = replace pat new a ++ new ++ replace pat new b := by
  unfold replace
  rw [splitOn_append h]
  exact join_append (splitOnFrom_ne_nil pat 0 a) (splitOnFrom_ne_nil pat 0 b)

/-- What does not occur is not replaced. -/
theorem replace_of_not_infix (h : ¬ pat <:+: t) (new : Text) : replace pat new t = t := by
  rw [replace, splitOn_of_not_infix h, join]

/-- A pattern at the beginning is replaced. -/
theorem replace_pattern (hpat : pat ≠ []) (new t : Text) :
    replace pat new (pat ++ t) = new ++ replace pat new t := by
  obtain ⟨p, ps, rfl⟩ := List.exists_cons_of_ne_nil hpat
  have hstart : startsWith (p :: (ps ++ t)) (p :: ps) = true := startsWith_iff.2 ⟨t, rfl⟩
  have hcut : splitOn (p :: ps) (p :: ps ++ t) = [] :: splitOn (p :: ps) t := by
    rw [splitOn, List.cons_append, splitOnFrom, if_pos hstart, splitOnFrom_drop]
    simp [splitOn]
  have hrest : splitOn (p :: ps) t ≠ [] := splitOnFrom_ne_nil _ _ _
  rw [replace, hcut, join_cons _ _ hrest]
  rfl

theorem replace_cons (h : ¬ pat <+: c :: t) (new : Text) :
    replace pat new (c :: t) = c :: replace pat new t := by
  rw [← startsWith_eq_true_iff] at h
  have hcut : splitOn pat (c :: t) = consFirst c (splitOn pat t) := by
    rw [splitOn, splitOnFrom, if_neg h, splitOn]
  have hrest : splitOn pat t ≠ [] := splitOnFrom_ne_nil _ _ _
  rw [replace, hcut, join_consFirst _ _ hrest, replace]

end Meeting

end Text

end JitInspect
