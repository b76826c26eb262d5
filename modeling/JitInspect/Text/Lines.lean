import JitInspect.Text.Basic

/-!
# Lines

A text is a sequence of lines, each with the terminator that ends it. Ten characters end a line, and
a carriage return with a line feed after it ends one line, not two. A text that ends with a
terminator has no empty line behind it.

The main statement is `flatten_lines`: the lines with their terminators, one after the other, are
the text.
-/

namespace JitInspect

namespace Text

/-- A line and the terminator behind it, which is empty only at the end of a text. -/
structure Line where
  body : Text
  terminator : Text
  deriving DecidableEq, Repr

/-- The line as it stands in the text. -/
def Line.full (l : Line) : Text := l.body ++ l.terminator

/-- Whether the character ends a line. -/
def isLineEnd (c : Char) : Bool :=
  let n := c.toNat
  (0xA ≤ n && n ≤ 0xD) || (0x1C ≤ n && n ≤ 0x1E) || n = 0x85 || n = 0x2028 || n = 0x2029

/-- Adds a character in front of the first line. -/
def Line.consFirst (c : Char) : List Line → List Line
  | [] => [⟨[c], []⟩]
  | l :: ls => ⟨c :: l.body, l.terminator⟩ :: ls

/-- The lines of the text with their terminators. -/
def lines : Text → List Line
  | [] => []
  | '\r' :: '\n' :: cs => ⟨[], ['\r', '\n']⟩ :: lines cs
  | c :: cs => if isLineEnd c then ⟨[], [c]⟩ :: lines cs else Line.consFirst c (lines cs)

/-- The lines of the text without their terminators. -/
def lineBodies (t : Text) : List Text := (lines t).map Line.body

/-- Each carriage return, alone or before a line feed, becomes a line feed: this is how the
content of a text file is read. -/
def unifyNewlines : Text → Text
  | [] => []
  | '\r' :: '\n' :: cs => '\n' :: unifyNewlines cs
  | c :: cs => (if c = '\r' then '\n' else c) :: unifyNewlines cs

theorem flatten_consFirst (c : Char) (ls : List Line) :
    ((Line.consFirst c ls).map Line.full).flatten = c :: (ls.map Line.full).flatten := by
  cases ls <;> simp [Line.consFirst, Line.full]

/-- The lines with their terminators make up the text. -/
theorem flatten_lines (t : Text) : ((lines t).map Line.full).flatten = t := by
  fun_induction lines t with
  | case1 => rfl
  | case2 cs ih => simp [Line.full, ih]
  | case3 c cs _ h ih => simp [Line.full, ih]
  | case4 c cs _ h ih => rw [flatten_consFirst, ih]

end Text

end JitInspect
