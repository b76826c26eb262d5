import JitInspect.Text.Printable

/-!
# Quoted texts

A text inside a message is quoted so that its ends and its invisible characters show: between single
quotes, or between double quotes when it holds a single quote and no double quote, with escapes for
the backslash, the quote, the common controls and everything unprintable.
-/

namespace JitInspect

namespace Text

/-- The hexadecimal digits of a number, in lower case and at least `width` of them. -/
def hex (width n : Nat) : Text :=
  let digits := Nat.toDigits 16 n
  List.replicate (width - digits.length) '0' ++ digits

/-- A character inside a text quoted with `quote`. -/
def quotedChar (quote c : Char) : Text :=
  if c = quote || c = '\\' then ['\\', c]
  else if c = '\n' then "\\n"
  else if c = '\r' then "\\r"
  else if c = '\t' then "\\t"
  else if isPrintable c then [c]
  else if c.toNat ≤ 0xFF then "\\x" ++ hex 2 c.toNat
  else if c.toNat ≤ 0xFFFF then "\\u" ++ hex 4 c.toNat
  else "\\U" ++ hex 8 c.toNat

/-- The quote of a text: double when the text holds a single quote and no double one. -/
def quoteFor (t : Text) : Char := if t.contains '\'' && !t.contains '"' then '"' else '\''

/-- The text in quotes. -/
def quoted (t : Text) : Text :=
  let q := quoteFor t
  q :: (t.flatMap (quotedChar q) ++ [q])

end Text

end JitInspect
