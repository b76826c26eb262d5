import JitInspect.Text.Blank
import JitInspect.Text.Numeral

/-!
# Target frameworks

The moniker of a target framework holds its version: after the family's name as two numbers with a
dot between them, or, for the old frameworks, as a first digit and the digits behind it.
-/

namespace JitInspect

/-- A version of a framework. -/
structure Version where
  major : Int
  minor : Int
  deriving DecidableEq, Repr

namespace Version

/-- Versions are ordered by their major numbers, equal ones by their minor numbers. -/
def atLeast (a b : Version) : Bool := b.major < a.major || (a.major = b.major && b.minor ≤ a.minor)

/-- The place of a moniker without a version: below all versions. -/
def none : Version := ⟨-1, -1⟩

/-- A number of the version has more digits than a numeral may have. -/
structure TooLong where
  digits : Nat
  deriving DecidableEq, Repr

/-- What is said of a number that is too long. -/
def TooLong.message (e : TooLong) : Text :=
  "Exceeds the limit (" ++ Text.ofNat Text.maxNumeralDigits ++
    " digits) for integer string conversion: value has " ++ Text.ofNat e.digits ++
    " digits; use sys.set_int_max_str_digits() to increase the limit"

/-- The letter without its case. The long s counts as an s. -/
def foldLetter (c : Char) : Char := if c.toNat = 0x17F then 's' else c.toLower

/-- The text behind the word, which may be written in any case. -/
def afterWord? : (word : Text) → Text → Option Text
  | [], t => some t
  | _ :: _, [] => Option.none
  | w :: ws, c :: cs => if w = foldLetter c then afterWord? ws cs else Option.none

/-- The number that decimal digits of any script stand for. -/
def numberOf (digits : Text) : Except TooLong Int :=
  if digits.length ≤ Text.maxNumeralDigits then
    .ok (Text.ofDigitValues (digits.filterMap Text.decimalDigit?))
  else .error ⟨digits.length⟩

/-- The version that two texts of digits stand for. -/
def ofDigits (major minor : Text) : Except TooLong (Option Version) := do
  let a ← numberOf major
  let b ← numberOf minor
  pure (some ⟨a, b⟩)

/-- The two texts of digits at the beginning that have a dot between them. -/
def dotted? (t : Text) : Option (Text × Text) :=
  let major := t.takeWhile Text.isDecimalDigit
  match t.dropWhile Text.isDecimalDigit with
  | '.' :: rest =>
    let minor := rest.takeWhile Text.isDecimalDigit
    if major.isEmpty || minor.isEmpty then Option.none else some (major, minor)
  | _ => Option.none

/-- The first digit and those behind it, when there is nothing else. -/
def packed? : Text → Option (Text × Text)
  | d :: ds =>
    if Text.isDecimalDigit d && !ds.isEmpty && ds.all Text.isDecimalDigit then some ([d], ds)
    else Option.none
  | [] => Option.none

/-- What stands behind the family's name. -/
def afterFamily? (moniker : Text) : Option Text :=
  (afterWord? "net" moniker).map fun rest =>
    ((afterWord? "coreapp" rest) <|> (afterWord? "standard" rest)).getD rest

/-- The version in a moniker, if it has one. -/
def ofMoniker (written : Text) : Except TooLong (Option Version) :=
  let moniker := Text.strip written
  match (afterFamily? moniker).bind dotted? with
  | some (major, minor) => ofDigits major minor
  | Option.none =>
    match (afterWord? "net" moniker).bind packed? with
    | some (major, minor) => ofDigits major minor
    | Option.none => .ok Option.none

/-- The version by which a moniker, or none, is ranked. -/
def rank (moniker : Option Text) : Except TooLong Version :=
  (ofMoniker (moniker.getD [])).map fun v => v.getD none

end Version

end JitInspect
