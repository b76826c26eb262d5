import JitInspect.Proofs.Text.Decimal
import JitInspect.Proofs.Text.Trim
import JitInspect.Text.Numeral
import Mathlib.Data.Nat.Digits.Defs

/-!
# What is read as an integer

A numeral is whitespace, at most one sign, at most 4300 digits of any script with single underscores
between them, and whitespace again (`Text.Numeral`). These texts and no others are read as integers, and
each as the integer that its digits make by their places (`numeral?_eq_some_iff`). The digits of a
natural number that is not too long are a numeral for it (`Numeral.ofNat`).
-/

namespace JitInspect

namespace Text

/-! ### Digits and underscores -/

section Digits

/-- The text holds digits, and underscores only between two of them, one at most. -/
inductive AreDigits : Text → Prop
  | last {c : Char} {d : ℕ} (hc : decimalDigit? c = some d) : AreDigits [c]
  | next {c : Char} {d : ℕ} {t : Text} (hc : decimalDigit? c = some d) (ht : AreDigits t) :
      AreDigits (c :: t)
  | apart {c : Char} {d : ℕ} {t : Text} (hc : decimalDigit? c = some d) (ht : AreDigits t) :
      AreDigits (c :: '_' :: t)

/-- The values of the digits in a text, in order. -/
def valuesIn (t : Text) : List ℕ := t.filterMap decimalDigit?

variable {t : Text} {ds : List ℕ} {c : Char} {d n : ℕ} {behind : Bool}

theorem valuesIn_cons (hc : decimalDigit? c = some d) (t : Text) : valuesIn (c :: t) = d :: valuesIn t :=
  List.filterMap_cons_some hc

/-- A digit stands as many places behind the zero of its script as its value says. -/
theorem exists_zero_of_digitIn {zs : List ℕ} (h : digitIn zs n = some d) :
    ∃ z ∈ zs, d < 10 ∧ n = z + d := by
  induction zs with
  | nil => cases h
  | cons z zs ih =>
    rw [digitIn] at h
    split at h
    · next hrange =>
      cases h
      rw [Bool.and_eq_true, decide_eq_true_eq, decide_eq_true_eq] at hrange
      exact ⟨z, List.mem_cons_self, by omega, by omega⟩
    · obtain ⟨z, hz, hd⟩ := ih h
      exact ⟨z, List.mem_cons_of_mem _ hz, hd⟩

/-- A digit is not a blank. -/
theorem not_blank_of_decimalDigit? (h : decimalDigit? c = some d) : isNumeralBlank c = false := by
  obtain ⟨z, hz, hd, hc⟩ := exists_zero_of_digitIn h
  have hall : ∀ z ∈ digitZeros, ∀ d < 10, isNumeralBlank (Char.ofNat (z + d)) = false := by
    decide +kernel
  have hplace := hall z hz d hd
  rwa [← hc, Char.ofNat_toNat] at hplace

theorem AreDigits.not_blank (h : AreDigits t) : ∀ c ∈ t, isNumeralBlank c = false := by
  induction h with
  | last hc => exact List.forall_mem_singleton.2 (not_blank_of_decimalDigit? hc)
  | next hc _ ih => exact List.forall_mem_cons.2 ⟨not_blank_of_decimalDigit? hc, ih⟩
  | apart hc _ ih =>
    exact List.forall_mem_cons.2
      ⟨not_blank_of_decimalDigit? hc, List.forall_mem_cons.2 ⟨rfl, ih⟩⟩

theorem AreDigits.exists_eq_cons (h : AreDigits t) :
    ∃ c rest d, t = c :: rest ∧ decimalDigit? c = some d := by
  cases h with
  | last hc => exact ⟨_, _, _, rfl, hc⟩
  | next hc => exact ⟨_, _, _, rfl, hc⟩
  | apart hc => exact ⟨_, _, _, rfl, hc⟩

/-- A digit is read whatever stands in front of it. -/
theorem digitValues_cons (hc : decimalDigit? c = some d) (behind : Bool) (t : Text) :
    digitValues behind (c :: t) = (digitValues true t).map (d :: ·) := by
  have hunderscore : c ≠ '_' := by
    rintro rfl
    cases hc
  rw [digitValues, if_neg hunderscore, hc]

/-- The values of digits are read. -/
theorem AreDigits.digitValues_eq (h : AreDigits t) (behind : Bool) :
    digitValues behind t = some (valuesIn t) := by
  induction h generalizing behind with
  | last hc =>
    rw [digitValues_cons hc, valuesIn_cons hc]
    rfl
  | next hc _ ih =>
    rw [digitValues_cons hc, valuesIn_cons hc, ih]
    rfl
  | apart hc _ ih =>
    rw [digitValues_cons hc, valuesIn_cons hc, digitValues, if_pos rfl, if_pos rfl, ih]
    rfl

/-- What is read are digits. Behind a digit, nothing is read as well, and digits behind an
underscore. -/
theorem areDigits_of_digitValues (h : digitValues behind t = some ds) :
    AreDigits t ∨ behind = true ∧ (t = [] ∨ ∃ rest, t = '_' :: rest ∧ AreDigits rest) := by
  -- a digit turns the flag on and an underscore turns it off, so both are needed at once
  fun_induction digitValues behind t generalizing ds with
  | case1 => exact .inr ⟨rfl, .inl rfl⟩
  | case2 => cases h
  | case3 rest ih =>
    obtain hrest | ⟨hfalse, -⟩ := ih h
    · exact .inr ⟨rfl, .inr ⟨rest, rfl, hrest⟩⟩
    · cases hfalse
  | case4 => cases h
  | case5 behind c rest hne d hc ih =>
    obtain ⟨values, hvalues, -⟩ := Option.map_eq_some_iff.1 h
    obtain hrest | ⟨-, rfl | ⟨rest, rfl, hrest⟩⟩ := ih hvalues
    · exact .inl (.next hc hrest)
    · exact .inl (.last hc)
    · exact .inl (.apart hc hrest)
  | case6 => cases h

theorem digitValues_eq_some_iff : digitValues false t = some ds ↔ AreDigits t ∧ valuesIn t = ds := by
  constructor
  · intro h
    obtain hdigits | ⟨hfalse, -⟩ := areDigits_of_digitValues h
    · exact ⟨hdigits, Option.some.inj ((hdigits.digitValues_eq false).symm.trans h)⟩
    · cases hfalse
  · rintro ⟨hdigits, rfl⟩
    exact hdigits.digitValues_eq false

end Digits

/-! ### Numbers without a sign -/

section Unsigned

variable {t : Text} {c : Char} {n : ℕ}

/-- The digits count by their places, the last one as it is. -/
theorem ofDigitValues_eq (ds : List ℕ) : ofDigitValues ds = Nat.ofDigits 10 ds.reverse := by
  rw [Nat.ofDigits_eq_foldr, List.foldr_reverse, ofDigitValues]
  simp only [Nat.cast_id, Nat.add_comm]

/-- A number without a sign is digits, not too many of them. -/
theorem unsignedNumeral?_eq_some_iff : unsignedNumeral? t = some n ↔
    AreDigits t ∧ (valuesIn t).length ≤ 4300 ∧ Nat.ofDigits 10 (valuesIn t).reverse = n := by
  rw [← ofDigitValues_eq, unsignedNumeral?]
  constructor
  · intro h
    split at h
    · next ds hds =>
      obtain ⟨hdigits, rfl⟩ := digitValues_eq_some_iff.1 hds
      obtain ⟨hlength, hn⟩ := Option.ite_none_right_eq_some.1 h
      exact ⟨hdigits, hlength, Option.some.inj hn⟩
    · cases h
  · rintro ⟨hdigits, hlength, rfl⟩
    rw [hdigits.digitValues_eq]
    exact if_pos hlength

/-- An ASCII digit is read as its distance from zero. -/
theorem decimalDigit?_of_isDigit (hc : c.isDigit = true) :
    decimalDigit? c = some (c.toNat - '0'.toNat) := by
  have hfirst : (decide (0x30 ≤ c.toNat) && decide (c.toNat ≤ 0x30 + 9)) = true := by
    simpa using isDigit_iff.1 hc
  rw [decimalDigit?, digitZeros, digitIn, if_pos hfirst]
  rfl

/-- Digits without underscores. -/
theorem areDigits_of_isDigit (hne : t ≠ []) (h : ∀ c ∈ t, c.isDigit = true) : AreDigits t := by
  induction t with
  | nil => exact absurd rfl hne
  | cons c t ih =>
    have hc := decimalDigit?_of_isDigit (h c List.mem_cons_self)
    cases t with
    | nil => exact .last hc
    | cons next t =>
      exact .next hc (ih (List.cons_ne_nil _ _) fun c hmem => h c (List.mem_cons_of_mem _ hmem))

/-- A number is written with digits. -/
theorem areDigits_ofNat (n : ℕ) : AreDigits (ofNat n) := by
  have hne : ofNat n ≠ [] := Nat.toDigits_ne_nil
  exact areDigits_of_isDigit hne fun c hc => isDigit_of_mem_ofNat hc

/-- A number below a power of ten has no more digits than the exponent says. -/
theorem length_valuesIn_ofNat_le {k : ℕ} (hk : 0 < k) (hn : n < 10 ^ k) :
    (valuesIn (ofNat n)).length ≤ k := by
  have hlength : (ofNat n).length ≤ k := (Nat.length_toDigits_le_iff (by decide) hk).2 hn
  exact (List.length_filterMap_le _ _).trans hlength

/-- The decimal digits of a number make it by their places. -/
theorem ofDigits_valuesIn_ofNat (n : ℕ) : Nat.ofDigits 10 (valuesIn (ofNat n)).reverse = n := by
  have hvalues : valuesIn (ofNat n) = (ofNat n).map fun c => c.toNat - '0'.toNat := by
    rw [← List.filterMap_eq_map]
    exact List.filterMap_congr fun c hc => decimalDigit?_of_isDigit (isDigit_of_mem_ofNat hc)
  rw [← ofDigitValues_eq, hvalues, ofDigitValues, List.foldl_map]
  exact Nat.ofDigitChars_ten_toDigits

end Unsigned

/-! ### Numerals -/

section Numerals

/-- The sign in front of the digits, if there is one. -/
inductive Sign where
  | absent
  | plus
  | minus
  deriving DecidableEq, Repr

namespace Sign

/-- The sign as it is written. -/
def text : Sign → Text
  | absent => []
  | plus => ['+']
  | minus => ['-']

/-- The number with the sign. -/
def apply : Sign → ℕ → ℤ
  | absent, n => n
  | plus, n => n
  | minus, n => -n

/-- A sign is not a blank. -/
theorem not_blank : ∀ s : Sign, ∀ c ∈ s.text, isNumeralBlank c = false
  | absent => fun _ hc => absurd hc List.not_mem_nil
  | plus => List.forall_mem_singleton.2 rfl
  | minus => List.forall_mem_singleton.2 rfl

end Sign

/-- A text that stands for an integer: whitespace around a sign, if there is one, and digits. -/
structure Numeral where
  front : Text
  sign : Sign
  digits : Text
  back : Text
  isBlank_front : ∀ c ∈ front, isNumeralBlank c = true
  areDigits : AreDigits digits
  length_le : (valuesIn digits).length ≤ 4300
  isBlank_back : ∀ c ∈ back, isNumeralBlank c = true

namespace Numeral

/-- The numeral as it is written. -/
def text (w : Numeral) : Text := w.front ++ (w.sign.text ++ w.digits ++ w.back)

/-- The integer that it stands for. -/
def value (w : Numeral) : ℤ := w.sign.apply (Nat.ofDigits 10 (valuesIn w.digits).reverse)

/-- Without the blanks around it a numeral is its sign and its digits. -/
theorem trim_text (w : Numeral) : trim isNumeralBlank w.text = w.sign.text ++ w.digits := by
  have hbody : ∀ c ∈ w.sign.text ++ w.digits, isNumeralBlank c = false :=
    List.forall_mem_append.2 ⟨w.sign.not_blank, w.areDigits.not_blank⟩
  exact trim_append w.isBlank_front hbody w.isBlank_back

/-- The decimal digits of a natural number, which stand for it. -/
def ofNat (n : ℕ) (hn : n < 10 ^ 4300) : Numeral where
  front := []
  sign := .absent
  digits := Text.ofNat n
  back := []
  isBlank_front := fun _ hc => absurd hc List.not_mem_nil
  areDigits := areDigits_ofNat n
  length_le := length_valuesIn_ofNat_le (by decide) hn
  isBlank_back := fun _ hc => absurd hc List.not_mem_nil

/-- The numeral of a number is the number as it is written. -/
theorem text_ofNat (n : ℕ) (hn : n < 10 ^ 4300) : (ofNat n hn).text = Text.ofNat n :=
  List.append_nil _

theorem value_ofNat (n : ℕ) (hn : n < 10 ^ 4300) : (ofNat n hn).value = n :=
  congrArg Int.ofNat (ofDigits_valuesIn_ofNat n)

end Numeral

variable {t : Text} {n : ℤ}

/-- A sign in front of digits is read as one. -/
theorem numeral?_of_trim {s : Sign} {digits : Text} (hdigits : AreDigits digits)
    (h : trim isNumeralBlank t = s.text ++ digits) :
    numeral? t = (unsignedNumeral? digits).map s.apply := by
  rw [numeral?, h]
  cases s with
  | plus => rfl
  | minus =>
    change Option.map _ (unsignedNumeral? digits >>= _) = _
    cases unsignedNumeral? digits <;> rfl
  | absent =>
    -- the first character is a digit, so no sign is seen
    obtain ⟨c, rest, d, rfl, hc⟩ := hdigits.exists_eq_cons
    split
    · next hminus =>
      cases hminus
      cases hc
    · next hplus =>
      cases hplus
      cases hc
    · rfl

/-- What is left when the whitespace is trimmed is a sign, if there is one, and what is read as a number
without a sign. -/
theorem exists_sign (t : Text) : ∃ (s : Sign) (digits : Text),
    trim isNumeralBlank t = s.text ++ digits ∧
      numeral? t = (unsignedNumeral? digits).map s.apply := by
  unfold numeral?
  split
  · next digits h =>
    refine ⟨.minus, digits, h, ?_⟩
    cases unsignedNumeral? digits <;> rfl
  · next digits h => exact ⟨.plus, digits, h, rfl⟩
  · exact ⟨.absent, _, rfl, rfl⟩

/-- The numerals and no other texts are read, each as the integer that it stands for. -/
theorem numeral?_eq_some_iff : numeral? t = some n ↔ ∃ w : Numeral, w.text = t ∧ w.value = n := by
  constructor
  · intro h
    obtain ⟨s, digits, htrim, hread⟩ := exists_sign t
    obtain ⟨m, hm, rfl⟩ := Option.map_eq_some_iff.1 (hread.symm.trans h)
    obtain ⟨hdigits, hlength, rfl⟩ := unsignedNumeral?_eq_some_iff.1 hm
    obtain ⟨front, back, ht, hfront, hback⟩ := exists_trim isNumeralBlank t
    rw [htrim] at ht
    exact ⟨⟨front, s, digits, back, hfront, hdigits, hlength, hback⟩, ht.symm, rfl⟩
  · rintro ⟨w, rfl, rfl⟩
    rw [numeral?_of_trim w.areDigits w.trim_text,
      unsignedNumeral?_eq_some_iff.2 ⟨w.areDigits, w.length_le, rfl⟩]
    rfl

example : numeral? "\t-1_٢" = some (-12) := by decide +kernel

/-- A text is refused if and only if it is no numeral. -/
theorem numeral?_eq_none_iff : numeral? t = none ↔ ∀ w : Numeral, w.text ≠ t := by
  rw [Option.eq_none_iff_forall_ne_some]
  constructor
  · exact fun h w hw => h w.value (numeral?_eq_some_iff.2 ⟨w, hw, rfl⟩)
  · intro h n hn
    obtain ⟨w, hw, -⟩ := numeral?_eq_some_iff.1 hn
    exact h w hw

end Numerals

end Text

end JitInspect
