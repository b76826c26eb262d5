import JitInspect.Text.Basic

/-!
# Blank characters

The characters that count as whitespace when a line is tested for being blank and when a text is
stripped: the whitespace controls, the information separators, and the separators of Unicode 14.
Zero-width characters do not count.
-/

namespace JitInspect

namespace Text

/-- Whether the character is whitespace. -/
def isBlank (c : Char) : Bool :=
  let n := c.toNat
  (0x9 ≤ n && n ≤ 0xD) || (0x1C ≤ n && n ≤ 0x20) || n = 0x85 || n = 0xA0 || n = 0x1680 ||
    (0x2000 ≤ n && n ≤ 0x200A) || n = 0x2028 || n = 0x2029 || n = 0x202F || n = 0x205F ||
    n = 0x3000

/-- The text without whitespace at its ends. -/
def strip (t : Text) : Text := trim isBlank t

/-- Whether the text is empty or whitespace only. -/
def blank (t : Text) : Bool := t.all isBlank

end Text

end JitInspect
