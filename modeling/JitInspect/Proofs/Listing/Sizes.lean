import JitInspect.Listing.Method
import JitInspect.Proofs.Text.Numeral
import JitInspect.Proofs.Text.Pieces

/-!
# The size in a text

What stands for the size of a text is the part of it behind the first size marker, up to the next comma,
line feed or end of the text (`Listing.IsSizePart`). If the part is a numeral, the size is what the numeral
stands for (`readSize_eq_ok_iff`). All other texts are refused: those without a size marker and those whose
part is no numeral (`readSize_eq_error_iff`). So a size that is written in decimal digits is read back,
whatever stands around it (`readSize_reads_numerals`).
-/

namespace JitInspect

namespace Listing

variable {t part : Text} {f : Fault} {n : ℤ} {c : Char}

/-! ### The part that stands for the size -/

section Parts

/-- The characters in front of which a size ends. -/
def EndsSize (c : Char) : Prop := c = ',' ∨ c = '\n'

instance : DecidablePred EndsSize := fun c => inferInstanceAs (Decidable (c = ',' ∨ c = '\n'))

/-- The part of the text that stands for its size. -/
def IsSizePart (t part : Text) : Prop :=
  ∃ before behind, Text.FirstAt sizeMarker t before (part ++ behind) ∧
    (∀ c ∈ part, ¬EndsSize c) ∧ ∀ c ∈ behind.head?, EndsSize c

/-- The part goes on over all other characters. -/
theorem goesOn_eq_true_iff : (c ≠ '\n' && c ≠ ',') = true ↔ ¬EndsSize c := by
  rw [Bool.and_eq_true, decide_eq_true_eq, decide_eq_true_eq, EndsSize, not_or]
  exact and_comm

/-- A size ends at a comma or a line feed. -/
theorem goesOn_eq_false_iff : (c ≠ '\n' && c ≠ ',') = false ↔ EndsSize c := by
  rw [← Bool.not_eq_true, goesOn_eq_true_iff, not_not]

/-- The part that is taken goes up to there. -/
theorem takeWhile_goesOn_iff : t.takeWhile (fun c => c ≠ '\n' && c ≠ ',') = part ↔
    ∃ behind, t = part ++ behind ∧ (∀ c ∈ part, ¬EndsSize c) ∧ ∀ c ∈ behind.head?, EndsSize c := by
  rw [Text.takeWhile_eq_iff]
  simp only [goesOn_eq_true_iff, goesOn_eq_false_iff]

/-- A text with the marker has a part for the size. -/
theorem exists_sizePart (h : sizeMarker <:+: t) : ∃ part, IsSizePart t part := by
  cases hsplit : Text.splitFirst sizeMarker t with
  | none => exact absurd h (Text.splitFirst_eq_none_iff.1 hsplit)
  | some parts =>
    obtain ⟨before, rest⟩ := parts
    have hfirst := Text.firstAt_of_splitFirst hsplit
    obtain ⟨behind, hrest, hpart, hbehind⟩ := takeWhile_goesOn_iff.1 (Eq.refl (rest.takeWhile _))
    rw [hrest] at hfirst
    exact ⟨_, before, behind, hfirst, hpart, hbehind⟩

/-- A text has no size marker, or a numeral in the place of the size, or something else there. -/
theorem sizePart_cases (t : Text) : ¬sizeMarker <:+: t ∨
    (∃ w : Text.Numeral, IsSizePart t w.text) ∨
      ∃ part, IsSizePart t part ∧ ∀ w : Text.Numeral, w.text ≠ part := by
  by_cases hmarker : sizeMarker <:+: t
  · obtain ⟨part, hpart⟩ := exists_sizePart hmarker
    by_cases hnumeral : ∃ w : Text.Numeral, w.text = part
    · obtain ⟨w, rfl⟩ := hnumeral
      exact .inr (.inl ⟨w, hpart⟩)
    · exact .inr (.inr ⟨part, hpart, fun w hw => hnumeral ⟨w, hw⟩⟩)
  · exact .inl hmarker

/-- The first character of a size marker does not come again in it, so that none begins in front of another
and goes on into it. -/
theorem isSizePart_append {before behind : Text} (hbefore : ¬sizeMarker <:+: before)
    (hpart : ∀ c ∈ part, ¬EndsSize c) (hbehind : ∀ c ∈ behind.head?, EndsSize c) :
    IsSizePart (before ++ sizeMarker ++ part ++ behind) part := by
  refine ⟨before, behind, ?_, hpart, hbehind⟩
  rw [List.append_assoc, List.append_assoc]
  exact Text.firstAt_append (by decide) hbefore _

end Parts

/-! ### What is read -/

section Reading

/-- Without the marker there is no size. -/
theorem readSize_of_no_marker (h : ¬sizeMarker <:+: t) : readSize t = .error .noSize := by
  rw [readSize, Text.splitFirst_eq_none_iff.2 h]

theorem readSize_of_part (h : IsSizePart t part) :
    readSize t = (Text.numeral? part).elim (.error (.unreadableSize part)) .ok := by
  obtain ⟨before, behind, hfirst, hpart⟩ := h
  have hwritten : (part ++ behind).takeWhile (fun c => c ≠ '\n' && c ≠ ',') = part :=
    takeWhile_goesOn_iff.2 ⟨behind, rfl, hpart⟩
  rw [readSize, Text.splitFirst_eq_some_iff.2 hfirst]
  dsimp only
  rw [hwritten]
  cases Text.numeral? part with
  | none => rfl
  | some n => rfl

theorem readSize_of_numeral {w : Text.Numeral} (h : IsSizePart t w.text) :
    readSize t = .ok w.value := by
  rw [readSize_of_part h, Text.numeral?_eq_some_iff.2 ⟨w, rfl, rfl⟩]
  rfl

theorem readSize_of_not_numeral (h : IsSizePart t part) (hrefused : ∀ w : Text.Numeral, w.text ≠ part) :
    readSize t = .error (.unreadableSize part) := by
  rw [readSize_of_part h, Text.numeral?_eq_none_iff.2 hrefused]
  rfl

/-- The size is what the numeral in its place stands for. -/
theorem readSize_eq_ok_iff :
    readSize t = .ok n ↔ ∃ w : Text.Numeral, IsSizePart t w.text ∧ w.value = n := by
  constructor
  · intro h
    obtain hnone | ⟨w, hw⟩ | ⟨part, hpart, hrefused⟩ := sizePart_cases t
    · rw [readSize_of_no_marker hnone] at h
      cases h
    · rw [readSize_of_numeral hw] at h
      exact ⟨w, hw, Except.ok.inj h⟩
    · rw [readSize_of_not_numeral hpart hrefused] at h
      cases h
  · rintro ⟨w, hw, rfl⟩
    exact readSize_of_numeral hw

/-- A text is refused for having no size marker, or for what it has in the place of the size. -/
theorem readSize_eq_error_iff : readSize t = .error f ↔
    ¬sizeMarker <:+: t ∧ f = .noSize ∨
      ∃ part, IsSizePart t part ∧ (∀ w : Text.Numeral, w.text ≠ part) ∧ f = .unreadableSize part := by
  constructor
  · intro h
    obtain hnone | ⟨w, hw⟩ | ⟨part, hpart, hrefused⟩ := sizePart_cases t
    · rw [readSize_of_no_marker hnone] at h
      exact .inl ⟨hnone, (Except.error.inj h).symm⟩
    · rw [readSize_of_numeral hw] at h
      cases h
    · rw [readSize_of_not_numeral hpart hrefused] at h
      exact .inr ⟨part, hpart, hrefused, (Except.error.inj h).symm⟩
  · rintro (⟨hnone, rfl⟩ | ⟨part, hpart, hrefused, rfl⟩)
    · exact readSize_of_no_marker hnone
    · exact readSize_of_not_numeral hpart hrefused

/-- A number that is written behind the first size marker and in front of a comma, a line feed or the end of
the text is read as it is. Of any text the numeral in the place of the size is read. A text is refused if
and only if it has no size marker or something else in that place, and the fault says which. -/
theorem readSize_reads_numerals :
    (∀ (before rest : Text) (n : ℕ), ¬sizeMarker <:+: before → n < 10 ^ 4300 →
      (∀ c ∈ rest.head?, EndsSize c) →
        readSize (before ++ sizeMarker ++ Text.ofNat n ++ rest) = .ok n) ∧
    ∀ t, (∀ n, readSize t = .ok n ↔ ∃ w : Text.Numeral, IsSizePart t w.text ∧ w.value = n) ∧
      ∀ f, readSize t = .error f ↔
        ¬sizeMarker <:+: t ∧ f = .noSize ∨
          ∃ part, IsSizePart t part ∧ (∀ w : Text.Numeral, w.text ≠ part) ∧
            f = .unreadableSize part := by
  refine ⟨?_, fun t => ⟨fun n => readSize_eq_ok_iff, fun f => readSize_eq_error_iff⟩⟩
  intro before rest n hbefore hn hrest
  have hdigits : ∀ c ∈ Text.ofNat n, ¬EndsSize c := by
    intro c hc hends
    have hdigit := Text.isDigit_of_mem_ofNat hc
    rcases hends with rfl | rfl <;> exact absurd hdigit (by decide)
  have hpart := isSizePart_append hbefore hdigits hrest
  rw [← Text.Numeral.text_ofNat n hn] at hpart ⊢
  rw [readSize_of_numeral hpart, Text.Numeral.value_ofNat]

/-- A size marker begins in front of the first one, and a second one comes behind it. A number with as many
digits as there may be is read, and one with two underscores in a row is refused. -/
theorem readSize_reads_numerals_longest :
    let before : Text := "; optimized\n; Total bytes of code"
    let rest : Text := ",\n; Total bytes of code 1"
    ¬sizeMarker <:+: before ∧ 10 ^ 4299 < 10 ^ 4300 ∧ (∀ c ∈ rest.head?, EndsSize c) ∧
      readSize (before ++ sizeMarker ++ Text.ofNat (10 ^ 4299) ++ rest) = .ok (10 ^ 4299 : ℕ) ∧
      readSize (before ++ sizeMarker ++ "1__0" ++ rest) = .error (.unreadableSize "1__0") := by
  intro before rest
  have hbefore : ¬sizeMarker <:+: before := Text.splitFirst_eq_none_iff.1 (by decide +kernel)
  have hlong : 10 ^ 4299 < 10 ^ 4300 := by
    apply Nat.pow_lt_pow_right
    · decide
    · decide
  have hrest : ∀ c ∈ rest.head?, EndsSize c := by
    intro c hc
    exact .inl (Option.some.inj hc).symm
  have hpart : ∀ c ∈ "1__0".toList, ¬EndsSize c := by
    simp [EndsSize]
  have hrefused : ∀ w : Text.Numeral, w.text ≠ "1__0".toList :=
    Text.numeral?_eq_none_iff.1 (by decide +kernel)
  obtain ⟨hwritten, hread⟩ := readSize_reads_numerals
  obtain ⟨-, hfault⟩ := hread (before ++ sizeMarker ++ "1__0" ++ rest)
  exact ⟨hbefore, hlong, hrest, hwritten before rest _ hbefore hlong hrest,
    (hfault _).2 (.inr ⟨_, isSizePart_append hbefore hpart hrest, hrefused, rfl⟩)⟩

end Reading

end Listing

end JitInspect
