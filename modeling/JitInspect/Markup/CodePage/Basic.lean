import JitInspect.Text.Basic

/-!
# Code pages

A code page has one byte for each character. Those that can be read agree with ASCII in the lower
half, so that a code page is given by the characters of its upper half. It has several names, which
are compared without regard to case and to the signs between their parts.
-/

namespace JitInspect

namespace Markup

/-- The names of an encoding. In the further names an underscore may also be written as a dot. -/
structure EncodingNames where
  proper : List String
  further : List String := []

namespace EncodingNames

/-- A name in lower case and with an underscore for each run of other signs between its parts. -/
def normalize (t : Text) : Text :=
  t.foldr (fun c out =>
    if c.isAlphanum || c = '.' then c.toLower :: out
    else
      match out with
      | [] => []
      | '_' :: _ => out
      | _ => '_' :: out) []

/-- Whether a name in its normal form is one of the names. -/
def includes (e : EncodingNames) (normal : Text) : Bool :=
  e.proper.contains (String.ofList normal) || e.further.contains (String.ofList normal) ||
    e.further.contains (String.ofList (normal.map fun c => if c = '.' then '_' else c))

end EncodingNames

/-- A code page with its names. The replacement character stands where a byte has no character. -/
structure NamedPage where
  names : EncodingNames
  upper : String

/-- A code page: the characters of the upper half, and what it lacks of the lower half. -/
structure CodePage where
  upper : Text
  lacking : Text := []

namespace CodePage

/-- The control characters that many code pages have in the first quarter of the upper half. -/
def controls : String := String.ofList ((List.range 32).map fun n => Char.ofNat (128 + n))

/-- The page that has the first 256 characters in their order. -/
def latin : CodePage := ⟨(List.range 128).map fun n => Char.ofNat (128 + n), []⟩

/-- The page that has nothing in the upper half. -/
def ascii : CodePage := ⟨[], []⟩

/-- The character of a byte, if the page has one. -/
def char? (p : CodePage) (b : UInt8) : Option Char :=
  if b < 128 then (some (Char.ofNat b.toNat)).filter fun c => !p.lacking.contains c
  else p.upper[b.toNat - 128]?.filter (· ≠ Char.ofNat 0xFFFD)

end CodePage

end Markup

end JitInspect
