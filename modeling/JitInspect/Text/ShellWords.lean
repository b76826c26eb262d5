import JitInspect.Text.Basic

/-!
# Shell words

Arguments that a user types are split into words as a shell splits them: at whitespace outside
quotes. With POSIX rules quotes and backslashes are taken away; with the rules of a Windows prompt a
quoted part is a word of its own that keeps its quotes, and a backslash is an ordinary character.
-/

namespace JitInspect

namespace ShellWords

/-- Why a text cannot be split. -/
inductive Fault where
  | openQuote
  | danglingEscape
  deriving DecidableEq, Repr

/-- What is said of the fault. -/
def Fault.message : Fault → Text
  | openQuote => "No closing quotation"
  | danglingEscape => "No escaped character"

/-- The rules of a prompt. -/
inductive Rules where
  | posix
  | windows
  deriving DecidableEq, Repr

/-- Whether the character separates words. -/
def isSeparator (c : Char) : Bool := c = ' ' || c = '\t' || c = '\r' || c = '\n'

/-- Whether the character is a quote. -/
def isQuote (c : Char) : Bool := c = '\'' || c = '"'

/-- Where a splitter stands: between words, in a word, in quotes, or behind a backslash in one of
these two. -/
inductive Mode where
  | between
  | bare
  | quoted (quote : Char)
  | escapedBare
  | escapedQuoted (quote : Char)
  deriving DecidableEq, Repr

/-- The words of the rest of a text by POSIX rules. `word` holds the word begun, last character
first. -/
def posixFrom : Mode → (word : Text) → Text → Except Fault (List Text)
  | .between, _, [] => .ok []
  | .bare, word, [] => .ok [word.reverse]
  | .quoted _, _, [] => .error .openQuote
  | .escapedBare, _, [] => .error .danglingEscape
  | .escapedQuoted _, _, [] => .error .danglingEscape
  | .between, _, c :: cs =>
    if isSeparator c then posixFrom .between [] cs
    else if c = '\\' then posixFrom .escapedBare [] cs
    else if isQuote c then posixFrom (.quoted c) [] cs
    else posixFrom .bare [c] cs
  | .bare, word, c :: cs =>
    if isSeparator c then (posixFrom .between [] cs).map (word.reverse :: ·)
    else if c = '\\' then posixFrom .escapedBare word cs
    else if isQuote c then posixFrom (.quoted c) word cs
    else posixFrom .bare (c :: word) cs
  | .quoted q, word, c :: cs =>
    if c = q then posixFrom .bare word cs
    else if c = '\\' && q = '"' then posixFrom (.escapedQuoted q) word cs
    else posixFrom (.quoted q) (c :: word) cs
  | .escapedBare, word, c :: cs => posixFrom .bare (c :: word) cs
  | .escapedQuoted q, word, c :: cs =>
    if c = q || c = '\\' then posixFrom (.quoted q) (c :: word) cs
    else posixFrom (.quoted q) (c :: '\\' :: word) cs

/-- The words of the rest of a text by the rules of a Windows prompt. -/
def windowsFrom : Mode → (word : Text) → Text → Except Fault (List Text)
  | .bare, word, [] => .ok [word.reverse]
  | .quoted _, _, [] => .error .openQuote
  | _, _, [] => .ok []
  | .bare, word, c :: cs =>
    if isSeparator c then (windowsFrom .between [] cs).map (word.reverse :: ·)
    else windowsFrom .bare (c :: word) cs
  | .quoted q, word, c :: cs =>
    if c = q then (windowsFrom .between [] cs).map ((c :: word).reverse :: ·)
    else windowsFrom (.quoted q) (c :: word) cs
  | _, _, c :: cs =>
    if isSeparator c then windowsFrom .between [] cs
    else if isQuote c then windowsFrom (.quoted c) [c] cs
    else windowsFrom .bare [c] cs

/-- The words of a text. -/
def split (rules : Rules) (t : Text) : Except Fault (List Text) :=
  match rules with
  | .posix => posixFrom .between [] t
  | .windows => windowsFrom .between [] t

end ShellWords

end JitInspect
