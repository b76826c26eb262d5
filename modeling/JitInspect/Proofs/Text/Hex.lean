import JitInspect.Proofs.FileTree.Written
import JitInspect.Text.Quoted
import Mathlib.Data.Nat.Digits.Defs

/-!
# Numbers in hexadecimal digits

The digits of a number tell the number (`Text.hexValue_hex`), so that no two numbers are written with
the same digits. Three digits or more are the name of something in a directory, and not of the directory
above it.
-/

namespace JitInspect

namespace Text

variable {n m width : ℕ}

/-- The digits in the order of their values. -/
def hexDigits : Text := "0123456789abcdef"

/-- The number that the digits tell. -/
def hexValue (t : Text) : ℕ := t.foldl (fun value c => 16 * value + hexDigits.idxOf c) 0

/-- A number below sixteen has one digit. -/
theorem idxOf_digitChar (h : n < 16) : hexDigits.idxOf n.digitChar = n :=
  (by decide +kernel : ∀ n < 16, hexDigits.idxOf n.digitChar = n) n h

/-- The digits of a number are read back. -/
theorem hexValue_toDigits (n : ℕ) : hexValue (Nat.toDigits 16 n) = n := by
  induction n using Nat.strong_induction_on with
  | _ n ih =>
    by_cases hn : n < 16
    · rw [Nat.toDigits_of_lt_base hn]
      exact (Nat.zero_add _).trans (idxOf_digitChar hn)
    · have hquotient : hexValue (Nat.toDigits 16 (n / 16)) = n / 16 := ih _ (by omega)
      unfold hexValue at hquotient ⊢
      rw [Nat.toDigits_of_base_le (by decide) (Nat.le_of_not_lt hn), List.foldl_append, hquotient]
      simp only [List.foldl_cons, List.foldl_nil]
      rw [idxOf_digitChar (Nat.mod_lt n (by decide)), Nat.div_add_mod]

theorem mem_hexDigits_of_mem_toDigits {c : Char} (hc : c ∈ Nat.toDigits 16 n) : c ∈ hexDigits := by
  induction n using Nat.strong_induction_on with
  | _ n ih =>
    have hdigit : ∀ k < 16, Nat.digitChar k ∈ hexDigits := by decide +kernel
    by_cases hn : n < 16
    · rw [Nat.toDigits_of_lt_base hn, List.mem_singleton] at hc
      exact hc ▸ hdigit n hn
    · rw [Nat.toDigits_of_base_le (by decide) (Nat.le_of_not_lt hn)] at hc
      rcases List.mem_append.1 hc with hc | hc
      · exact ih (n / 16) (by omega) hc
      · exact List.mem_singleton.1 hc ▸ hdigit _ (Nat.mod_lt n (by decide))

/-- A number is read back from its digits; the zeros in front do not count. -/
theorem hexValue_hex (width n : ℕ) : hexValue (hex width n) = n := by
  have hzeros : ∀ (k : ℕ) (t : Text), hexValue (List.replicate k '0' ++ t) = hexValue t := by
    intro k t
    induction k with
    | zero => rfl
    | succ k ih => exact ih
  exact (hzeros _ _).trans (hexValue_toDigits n)

theorem hex_injective (h : hex width n = hex width m) : n = m := by
  rw [← hexValue_hex width n, h, hexValue_hex]

/-- A written number has digits only. -/
theorem mem_hexDigits_of_mem_hex {c : Char} (hc : c ∈ hex width n) : c ∈ hexDigits := by
  rcases List.mem_append.1 hc with hc | hc
  · rw [List.eq_of_mem_replicate hc]
    decide
  · exact mem_hexDigits_of_mem_toDigits hc

theorem le_length_hex (width n : ℕ) : width ≤ (hex width n).length := by
  unfold hex
  rw [List.length_append, List.length_replicate]
  omega

/-- So many digits are a name, -/
theorem isName_hex (hwidth : 2 < width) : Path.IsName (hex width n) := by
  have hlength := le_length_hex width n
  refine ⟨?_, ?_, fun hslash => absurd (mem_hexDigits_of_mem_hex hslash) (by decide)⟩
  · intro hnil
    rw [hnil, List.length_nil] at hlength
    omega
  · intro hdot
    rw [hdot, List.length_singleton] at hlength
    omega

/-- and not the two dots. -/
theorem hex_ne_dots (hwidth : 2 < width) : hex width n ≠ ['.', '.'] := by
  intro hdots
  have hlength := le_length_hex width n
  rw [hdots, List.length_cons, List.length_singleton] at hlength
  omega

end Text

end JitInspect
