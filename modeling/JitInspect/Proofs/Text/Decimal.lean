import JitInspect.Text.Basic
import JitInspect.Proofs.Text.Lines

/-!
# Numbers in decimal digits

A number is told by its digits (`Text.ofNat_injective`), and an integer by its digits and the minus sign
in front of them (`Text.ofInt_injective`). All of these stand on one line.
-/

namespace JitInspect

namespace Text

variable {n m : ℕ} {i j : Int} {c : Char}

/-- The number of a digit. -/
theorem isDigit_iff {c : Char} : c.isDigit = true ↔ 48 ≤ c.toNat ∧ c.toNat ≤ 57 := by
  simp only [Char.isDigit, Bool.and_eq_true, decide_eq_true_eq, UInt32.le_iff_toNat_le]
  exact Iff.rfl

/-- A number is written with digits. -/
theorem isDigit_of_mem_ofNat (hc : c ∈ ofNat n) : c.isDigit = true :=
  Nat.isDigit_of_mem_toDigits (by decide) (by decide) hc

theorem ofNat_injective (h : ofNat n = ofNat m) : n = m := by
  calc
    n = Nat.ofDigitChars 10 (ofNat n) 0 := Nat.ofDigitChars_ten_toDigits.symm
    _ = Nat.ofDigitChars 10 (ofNat m) 0 := by rw [h]
    _ = m := Nat.ofDigitChars_ten_toDigits

/-- No digit is a minus sign. -/
theorem minus_not_mem_ofNat (n : ℕ) : '-' ∉ ofNat n := by
  intro hminus
  have hdigit := isDigit_of_mem_ofNat hminus
  exact absurd hdigit (by decide)

theorem ofInt_injective (h : ofInt i = ofInt j) : i = j := by
  cases i with
  | ofNat n =>
    cases j with
    | ofNat m => exact congrArg Int.ofNat (ofNat_injective h)
    | negSucc m =>
      have hminus : '-' ∈ ofNat n := by
        rw [show ofNat n = '-' :: ofNat (m + 1) from h]
        exact List.mem_cons_self
      exact absurd hminus (minus_not_mem_ofNat n)
  | negSucc n =>
    cases j with
    | ofNat m =>
      have hminus : '-' ∈ ofNat m := by
        rw [← show '-' :: ofNat (n + 1) = ofNat m from h]
        exact List.mem_cons_self
      exact absurd hminus (minus_not_mem_ofNat m)
    | negSucc m =>
      obtain ⟨-, hdigits⟩ := List.cons.inj h
      exact congrArg Int.negSucc (Nat.succ.inj (ofNat_injective hdigits))

/-- An integer is written with digits and a minus sign. -/
theorem eq_minus_or_isDigit (hc : c ∈ ofInt i) : c = '-' ∨ c.isDigit = true := by
  cases i with
  | ofNat n => exact .inr (isDigit_of_mem_ofNat hc)
  | negSucc n =>
    rcases List.mem_cons.1 hc with hminus | hdigit
    · exact .inl hminus
    · exact .inr (isDigit_of_mem_ofNat hdigit)

/-- None of these ends a line. -/
theorem isBody_ofInt (i : Int) : IsBody (ofInt i) := by
  intro c hc
  rcases eq_minus_or_isDigit hc with rfl | hdigit
  · rfl
  · have hrange := isDigit_iff.1 hdigit
    simp only [isLineEnd, Bool.or_eq_false_iff, Bool.and_eq_false_iff, decide_eq_false_iff_not]
    omega

end Text

end JitInspect
