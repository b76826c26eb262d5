import JitInspect.Markup.Token

/-!
# Words of a declaration

A declaration is a sequence of words with white space between them: names, texts in quotation marks,
brackets and signs. A word has to be followed by white space or by a sign that may stand behind it;
where none of these follows, the declaration cannot be read.
-/

namespace JitInspect

namespace Markup

/-- A word of a declaration. -/
inductive Word where
  | name (t : Text)
  /-- Two names with a colon between them, of which the second may start with any character. -/
  | qualified (t : Text)
  /-- Characters of names that are neither a name nor a qualified one. -/
  | fragment (t : Text)
  /-- A name or a qualified one with a sign of repetition behind it. -/
  | repeated (t : Text) (sign : Char)
  /-- A name behind a number sign. -/
  | keyword (t : Text)
  | quotation (t : Text)
  | percent
  | comma
  | bar
  | opening
  /-- A closing bracket, with the sign of repetition behind it. -/
  | closing (sign : Option Char)
  deriving DecidableEq, Repr

namespace Word

/-- Whether the text goes on with white space or with one of the signs. -/
def endsBefore (signs : List Char) : Text → Bool
  | [] => false
  | c :: _ => isSpace c || signs.contains c

/-- Whether the character is a sign of repetition. -/
def isRepetition (c : Char) : Bool := c = '?' || c = '*' || c = '+'

/-- The word that characters of names and colons make up. -/
def ofCharacters (a : Alphabet) (t : Text) : Word :=
  if !(t.head?.any a.isStart) then fragment t
  else
    match Text.splitOn [':'] t with
    | [_] => name t
    | [_, _ :: _] => qualified t
    | _ => fragment t

/-- The word at the start of the text when it begins with a character of a name, and the rest. -/
def named? (a : Alphabet) (t : Text) : Option (Word × Text) :=
  let (characters, rest) := t.span fun c => a.isRest c || c = ':'
  if characters.isEmpty then none
  else
    match ofCharacters a characters, rest with
    | fragment t, rest =>
      if endsBefore ['>', ')', ',', '|', '[', '%'] rest then some (fragment t, rest) else none
    | w, c :: rest =>
      if isRepetition c then some (repeated characters c, rest)
      else if endsBefore ['>', ')', ',', '|', '[', '%'] (c :: rest) then some (w, c :: rest)
      else none
    | _, [] => none

/-- The word at the start of the text, and the rest. -/
def next? (a : Alphabet) : Text → Option (Word × Text)
  | [] => none
  | '(' :: t => some (opening, t)
  | ',' :: t => some (comma, t)
  | '|' :: t => some (bar, t)
  | '%' :: t => if endsBefore [] t then some (percent, t) else none
  | ')' :: c :: t =>
    if isRepetition c then some (closing (some c), t)
    else if endsBefore ['>', ',', '|', ')'] (c :: t) then some (closing none, c :: t)
    else none
  | '#' :: t =>
    match a.name? t with
    | some (n, rest) =>
      if endsBefore ['>', ')', '|', '%'] rest then some (keyword n, rest) else none
    | none => none
  | c :: t =>
    if c = '"' || c = '\'' then
      match quotation? (c :: t) with
      | some (q, rest) => if endsBefore ['>', '[', '%'] rest then some (quotation q, rest) else none
      | none => none
    else named? a (c :: t)

/-- The words up to the end of the declaration or to a square bracket. The number bounds their
count. -/
def upTo (a : Alphabet) : Nat → Text → Option (List Word × Text)
  | 0, _ => none
  | n + 1, t =>
    match skipSpace t with
    | '>' :: t => some ([], '>' :: t)
    | '[' :: t => some ([], '[' :: t)
    | t =>
      match next? a t with
      | some (w, rest) => (upTo a n rest).map fun (ws, rest) => (w :: ws, rest)
      | none => none

/-- The words of a declaration, given what follows its keyword, and the rest. The number bounds
their count. -/
def all? (a : Alphabet) (bound : Nat) (t : Text) : Option (List Word × Text) :=
  if endsBefore [] t then upTo a bound t else none

end Word

/-! ### What names something outside the document -/

section Outside

/-- Whether a public name may hold the character. -/
def isPublicChar (c : Char) : Bool :=
  c.isAlphanum || c = ' ' || c = '\n' || c = '\r' || "-'()+,./:=?;!*#@$_%".toList.contains c

/-- Whether the words say where something outside the document is to be found. -/
def isExternal : List Word → Bool
  | [.name k, .quotation _] => k = "SYSTEM".toList
  | [.name k, .quotation p, .quotation _] => k = "PUBLIC".toList && p.all isPublicChar
  | _ => false

/-- Whether the words say where something outside the document is to be found, or give only the
public name of it. -/
def isExternalOrPublic : List Word → Bool
  | [.name k, .quotation t] => k = "SYSTEM".toList || (k = "PUBLIC".toList && t.all isPublicChar)
  | ws => isExternal ws

end Outside

/-! ### Content models -/

section Models

mutual

/-- The words behind a name or a group in a content model. The number bounds how deep groups are
nested. -/
def afterParticle : Nat → List Word → Option (List Word)
  | _, .name _ :: ws | _, .qualified _ :: ws | _, .repeated _ _ :: ws => some ws
  | n + 1, .opening :: ws => (afterParticle n ws).bind (afterGroup n none)
  | _, _ => none

/-- The words behind a group, given those behind its first particle. All its particles have the same
separator between them. -/
def afterGroup : Nat → Option Word → List Word → Option (List Word)
  | _, _, .closing _ :: ws => some ws
  | n + 1, separator, w :: ws =>
    if (w = .bar || w = .comma) && separator.getD w = w then
      (afterParticle n ws).bind (afterGroup n (some w))
    else none
  | _, _, _ => none

end

/-- Whether the words behind the first one of a model with text and elements are well-formed. -/
def isMixed : List Word → Bool
  | [.closing (some '*')] => true
  | .bar :: .name _ :: ws | .bar :: .qualified _ :: ws => isMixed ws
  | _ => false

/-- Whether the words are a content model. -/
def isModel (ws : List Word) : Bool :=
  match ws with
  | [.name t] => t = "EMPTY".toList || t = "ANY".toList
  | .opening :: .keyword t :: ws => t = "PCDATA".toList && (ws = [.closing none] || isMixed ws)
  | .opening :: ws => afterParticle (ws.length + 1) (.opening :: ws) = some []
  | _ => false

end Models

end Markup

end JitInspect
