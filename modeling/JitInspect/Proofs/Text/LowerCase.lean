import JitInspect.Text.LowerCase
import Mathlib.Data.List.Basic

/-!
# Signs in a lower-case text

The capitals above ASCII become lower-case letters, none of which is a sign of ASCII. So a text in lower
case has an equals sign only where it had one (`not_mem_lower`).
-/

namespace JitInspect

namespace Text

variable {n : ℕ} {c : Char} {t : Text}

/-- The equals sign has one number. -/
theorem ofNat_ne (h : n ≠ 0x3D) : Char.ofNat n ≠ '=' := by
  intro heq
  by_cases hvalid : n.isValidChar
  · have hcode : (Char.ofNat n).toNat = n := by
      unfold Char.ofNat
      rw [dif_pos hvalid]
      rfl
    rw [heq] at hcode
    exact h hcode.symm
  · unfold Char.ofNat at heq
    rw [dif_neg hvalid] at heq
    exact absurd heq (by decide)

/-- No other character becomes an equals sign. -/
theorem toLower_ne (h : c ≠ '=') : c.toLower ≠ '=' := by
  intro heq
  unfold Char.toLower at heq
  split at heq
  · next hcapital =>
    have hfirst : 65 ≤ c.val.toNat := hcapital.1
    have hlast : c.val.toNat ≤ 90 := hcapital.2
    have hsum : (c.val + 32).toNat = 61 := congrArg Char.toNat heq
    rw [UInt32.toNat_add] at hsum
    have hshift : (32 : UInt32).toNat = 32 := rfl
    omega
  · exact h heq

/-- Every capital above ASCII becomes a character behind the equals sign. -/
theorem lt_lowerIn {rs : List CaseRun} (hrs : ∀ r ∈ rs, 0x3D < (r.first : Int) + r.shift)
    (hn : 0x3D < n) : 0x3D < lowerIn rs n := by
  induction rs with
  | nil => exact hn
  | cons r rs ih =>
    obtain ⟨hr, hrs⟩ := List.forall_mem_cons.1 hrs
    rw [lowerIn]
    split
    · next hrun =>
      simp only [Bool.and_eq_true, decide_eq_true_eq] at hrun
      omega
    · exact ih hrs

theorem not_mem_lowerChar (h : c ≠ '=') : '=' ∉ lowerChar c := by
  have hruns : ∀ r ∈ caseRuns, 0x3D < (r.first : Int) + r.shift := by decide +kernel
  unfold lowerChar
  split
  · rw [List.mem_singleton]
    exact (toLower_ne h).symm
  split
  · decide
  split
  · decide
  · next hascii _ _ =>
    have hlower : 0x3D < lowerIn caseRuns c.toNat := lt_lowerIn hruns (by omega)
    rw [List.mem_singleton]
    exact (ofNat_ne (Nat.ne_of_gt hlower)).symm

theorem not_mem_lower (h : '=' ∉ t) : '=' ∉ lower t := by
  have hrest : ∀ passed, '=' ∉ lowerAfter passed t := by
    induction t with
    | nil => exact fun _ => List.not_mem_nil
    | cons c cs ih =>
      intro passed hmem
      rw [List.mem_cons, not_or] at h
      rcases List.mem_append.1 hmem with hfirst | hrest
      · split at hfirst
        · exact absurd hfirst (by decide)
        · exact not_mem_lowerChar (Ne.symm h.1) hfirst
      · exact ih h.2 _ hrest
  exact hrest []

end Text

end JitInspect
