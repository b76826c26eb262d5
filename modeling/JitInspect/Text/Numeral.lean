import JitInspect.Text.Blank
import JitInspect.Text.Digit

/-!
# Reading numerals

An integer may be written with whitespace around it, one sign, the decimal digits of any script, and
single underscores between digits. A numeral has at most 4300 digits.
-/

namespace JitInspect

namespace Text

/-- The largest number of digits, leading zeros included, that a numeral may have. -/
def maxNumeralDigits : Nat := 4300

/-- Whitespace around a numeral; unlike elsewhere the information separators do not count. -/
def isNumeralBlank (c : Char) : Bool := isBlank c && !(0x1C ≤ c.toNat && c.toNat ≤ 0x1F)

/-- The values of digits with single underscores between them. The flag says whether an underscore
may stand here, which it may only behind a digit. -/
def digitValues (afterDigit : Bool) : Text → Option (List Nat)
  | [] => if afterDigit then some [] else none
  | c :: cs =>
    if c = '_' then (if afterDigit then digitValues false cs else none)
    else
      match decimalDigit? c with
      | some d => (digitValues true cs).map (d :: ·)
      | none => none

/-- The number that the digits stand for. -/
def ofDigitValues (ds : List Nat) : Nat := ds.foldl (fun n d => 10 * n + d) 0

/-- The natural number that an unsigned numeral stands for. -/
def unsignedNumeral? (t : Text) : Option Nat :=
  match digitValues false t with
  | some ds => if ds.length ≤ maxNumeralDigits then some (ofDigitValues ds) else none
  | none => none

/-- The integer that a numeral stands for. -/
def numeral? (t : Text) : Option Int :=
  match trim isNumeralBlank t with
  | '-' :: ds => (unsignedNumeral? ds).map fun n => -(n : Int)
  | '+' :: ds => (unsignedNumeral? ds).map Int.ofNat
  | ds => (unsignedNumeral? ds).map Int.ofNat

end Text

end JitInspect
