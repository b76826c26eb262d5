import JitInspect.Project.Framework
import JitInspect.Proofs.Sequences
import Mathlib.Data.Prod.Lex

/-!
# Versions of frameworks

Versions are ordered by their two numbers, the major one first: `Version.atLeast` is the lexicographic
order of the pairs (`atLeast_iff`), and so it is total, and two versions of which each is at least the
other are equal.

A moniker holds the digits of two numbers, or none (`Version.digits?`). It can be read when neither of
them has more digits than a numeral may have, and in no other case (`exists_ofMoniker_iff`); what is
read is ranked, a moniker without a version below all others (`rank_eq_ok_iff`).
-/

namespace JitInspect

namespace Version

variable {a b c v : Version} {t : Text} {e : TooLong}

/-! ### The order of versions -/

section Order

/-- The two numbers, of which the major one counts first. -/
def pair (v : Version) : ℤ ×ₗ ℤ := toLex (v.major, v.minor)

theorem pair_injective (h : a.pair = b.pair) : a = b := by
  cases a
  cases b
  simpa [pair] using h

theorem atLeast_iff : a.atLeast b = true ↔ b.pair ≤ a.pair := by
  unfold atLeast pair
  rw [Prod.Lex.toLex_le_toLex]
  simp only [Bool.or_eq_true, Bool.and_eq_true, decide_eq_true_eq]
  exact or_congr_right (and_congr_left' eq_comm)

theorem atLeast_refl (a : Version) : a.atLeast a = true := atLeast_iff.2 le_rfl

theorem atLeast_trans (hab : a.atLeast b = true) (hbc : b.atLeast c = true) : a.atLeast c = true := by
  rw [atLeast_iff] at hab hbc ⊢
  exact hbc.trans hab

theorem atLeast_total (a b : Version) : (a.atLeast b || b.atLeast a) = true := by
  rw [Bool.or_eq_true, atLeast_iff, atLeast_iff]
  exact le_total _ _

theorem atLeast_antisymm (hab : a.atLeast b = true) (hba : b.atLeast a = true) : a = b := by
  rw [atLeast_iff] at hab hba
  exact pair_injective (hba.antisymm hab)

end Order

/-! ### What a moniker holds -/

section Digits

/-- The digits of the two numbers in a moniker. -/
def digits? (written : Text) : Option (Text × Text) :=
  ((afterFamily? (Text.strip written)).bind dotted?) <|>
    ((afterWord? "net" (Text.strip written)).bind packed?)

/-- Neither of the numbers in the moniker has more digits than a numeral may have. -/
def Readable (written : Text) : Prop :=
  ∀ ds ∈ digits? written, ds.1.length ≤ Text.maxNumeralDigits ∧ ds.2.length ≤ Text.maxNumeralDigits

instance : Decidable (Readable t) := inferInstanceAs (Decidable (∀ ds ∈ digits? t, _))

/-- The version of a moniker is that of its digits. -/
theorem ofMoniker_eq : ofMoniker t = match digits? t with
    | some (major, minor) => ofDigits major minor
    | Option.none => .ok Option.none := by
  unfold digits? ofMoniker
  dsimp only
  cases (afterFamily? (Text.strip t)).bind dotted? with
  | some ds => rfl
  | none => rfl

/-- A number is refused only for its digits being too many. -/
theorem exists_numberOf_iff {ds : Text} :
    (∃ n, numberOf ds = .ok n) ↔ ds.length ≤ Text.maxNumeralDigits := by
  unfold numberOf
  split
  case isTrue h => exact ⟨fun _ => h, fun _ => ⟨_, rfl⟩⟩
  case isFalse h =>
    constructor
    · rintro ⟨n, hn⟩
      cases hn
    · exact fun hlength => absurd hlength h

/-- Digits are a version unless they are too many. -/
theorem exists_ofDigits_iff {major minor : Text} : (∃ v, ofDigits major minor = .ok v) ↔
    major.length ≤ Text.maxNumeralDigits ∧ minor.length ≤ Text.maxNumeralDigits := by
  rw [← exists_numberOf_iff, ← exists_numberOf_iff]
  constructor
  · rintro ⟨v, hv⟩
    obtain ⟨a, ha, hv⟩ := bind_eq_ok.1 hv
    obtain ⟨b, hb, -⟩ := bind_eq_ok.1 hv
    exact ⟨⟨a, ha⟩, b, hb⟩
  · rintro ⟨⟨a, ha⟩, b, hb⟩
    exact ⟨_, bind_eq_ok.2 ⟨a, ha, bind_eq_ok.2 ⟨b, hb, rfl⟩⟩⟩

/-- What a moniker says is read, with a version or without, unless a number in it is too long. -/
theorem exists_ofMoniker_iff : (∃ v, ofMoniker t = .ok v) ↔ Readable t := by
  rw [ofMoniker_eq]
  unfold Readable
  cases digits? t with
  | none => simp
  | some ds => simpa using exists_ofDigits_iff

/-- A moniker is ranked by its version, one without a version below all versions. -/
theorem rank_eq_ok_iff {moniker : Option Text} : rank moniker = .ok v ↔
    ∃ found, ofMoniker (moniker.getD []) = .ok found ∧ v = found.getD ⟨-1, -1⟩ := by
  rw [rank, map_eq_ok]
  exact exists_congr fun found => and_congr_right' eq_comm

end Digits

end Version

end JitInspect
