import JitInspect.Proofs.Text.Decimal
import Mathlib.Data.Char
import Mathlib.Data.List.Lex

/-!
# The order of texts

Texts are ordered as in a dictionary. Where two texts go on behind a character that is below all those in
front of it, the parts in front count first (`Text.append_cons_lt_iff`). Numbers that are written with as
many digits are in the order of what is written (`Text.ofNat_lt_iff`); otherwise they need not be.
-/

namespace JitInspect

namespace Text

variable {s : Char} {a b ds es : Text} {i j n m : ℕ}

/-- Of texts with a low character in them the parts in front of it count first. -/
theorem append_cons_lt_iff (ha : ∀ c ∈ a, s < c) (hb : ∀ c ∈ b, s < c) (x y : Text) :
    a ++ s :: x < b ++ s :: y ↔ a < b ∨ a = b ∧ x < y := by
  induction a generalizing b with
  | nil =>
    cases b with
    | nil => simp
    | cons d b =>
      have hd : s < d := hb d List.mem_cons_self
      simp [List.cons_lt_cons_iff, hd]
  | cons c a ih =>
    have hc : s < c := ha c List.mem_cons_self
    cases b with
    | nil => simp [List.cons_lt_cons_iff, hc.ne', hc.le]
    | cons d b =>
      have hback := ih (fun c hc => ha c (List.mem_cons_of_mem _ hc))
        (fun c hc => hb c (List.mem_cons_of_mem _ hc))
      rw [List.cons_append, List.cons_append, List.cons_lt_cons_iff, List.cons_lt_cons_iff, hback,
        List.cons.injEq]
      grind

/-- Characters are ordered by their numbers. -/
theorem lt_iff_toNat_lt {c d : Char} : c < d ↔ c.toNat < d.toNat := by
  rw [Char.lt_def, UInt32.lt_iff_toNat_lt]
  exact Iff.rfl

/-- Digits that are read behind two numbers do not change which one is the lower, and tell it when the two
are the same. -/
theorem ofDigitChars_lt_iff (hlength : ds.length = es.length) (hds : ∀ c ∈ ds, c.isDigit = true)
    (hes : ∀ c ∈ es, c.isDigit = true) :
    Nat.ofDigitChars 10 ds i < Nat.ofDigitChars 10 es j ↔ i < j ∨ i = j ∧ ds < es := by
  induction ds generalizing es i j with
  | nil =>
    obtain rfl := List.eq_nil_of_length_eq_zero hlength.symm
    simp
  | cons c ds ih =>
    obtain ⟨e, es, rfl⟩ := List.exists_cons_of_length_eq_add_one hlength.symm
    have hback := ih (i := 10 * i + (c.toNat - '0'.toNat)) (j := 10 * j + (e.toNat - '0'.toNat))
      (Nat.succ.inj hlength) (fun c hc => hds c (List.mem_cons_of_mem _ hc))
      (fun c hc => hes c (List.mem_cons_of_mem _ hc))
    have hc := isDigit_iff.1 (hds c List.mem_cons_self)
    have he := isDigit_iff.1 (hes e List.mem_cons_self)
    have hzero : '0'.toNat = 48 := rfl
    rw [Nat.ofDigitChars_cons, Nat.ofDigitChars_cons, hback, List.cons_lt_cons_iff, lt_iff_toNat_lt,
      ← Char.toNat_inj, hzero]
    by_cases hlow : ds < es
    · simp only [hlow, and_true]
      omega
    · simp only [hlow, and_false, or_false]
      omega

/-- Numbers with as many digits are in the order in which they are written. -/
theorem ofNat_lt_iff (h : (ofNat n).length = (ofNat m).length) : ofNat n < ofNat m ↔ n < m := by
  have hread := ofDigitChars_lt_iff (i := 0) (j := 0) h (fun c hc => isDigit_of_mem_ofNat hc)
    (fun c hc => isDigit_of_mem_ofNat hc)
  have hn : Nat.ofDigitChars 10 (ofNat n) 0 = n := Nat.ofDigitChars_ten_toDigits
  have hm : Nat.ofDigitChars 10 (ofNat m) 0 = m := Nat.ofDigitChars_ten_toDigits
  rw [hn, hm] at hread
  simpa using hread.symm

end Text

end JitInspect
