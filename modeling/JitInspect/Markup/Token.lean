import JitInspect.Markup.Encoding

/-!
# Tokens

A document is a sequence of tags, references, characters, and parts without meaning: comments and
instructions. `Token.next?` reads one token at the start of a text. What stands for a character is
told apart from the character itself, because only the latter can be markup or white space.
-/

namespace JitInspect

namespace Markup

/-- White space. A document is read after its line ends have been unified, so that a return can only
come from the text of an entity, where it was given by its number. -/
def isSpace (c : Char) : Bool := c = ' ' || c = '\t' || c = '\n' || c = '\r'

/-- The text without the white space at its start. -/
def skipSpace (t : Text) : Text := t.dropWhile isSpace

/-- A part of a value. -/
inductive Piece where
  /-- A character that stands for itself. -/
  | literal (c : Char)
  /-- A character given by its number. -/
  | numbered (c : Char)
  /-- An entity given by its name. -/
  | entity (name : Text)
  deriving DecidableEq, Repr

namespace Piece

/-- The character that five entities stand for in every document. -/
def predefined? (name : Text) : Option Char :=
  match String.ofList name with
  | "lt" => some '<'
  | "gt" => some '>'
  | "amp" => some '&'
  | "quot" => some '"'
  | "apos" => some '\''
  | _ => none

/-- The value of a hexadecimal digit. -/
def hexDigit? (c : Char) : Option Nat :=
  if c.isDigit then some (c.toNat - '0'.toNat)
  else if 'a' ≤ c && c ≤ 'f' then some (c.toNat - 'a'.toNat + 10)
  else if 'A' ≤ c && c ≤ 'F' then some (c.toNat - 'A'.toNat + 10)
  else none

/-- The value of a decimal digit. -/
def decimalDigit? (c : Char) : Option Nat :=
  if c.isDigit then some (c.toNat - '0'.toNat) else none

/-- The character of a number that is written with the given digits. -/
def ofNumber (base : Nat) (digit? : Char → Option Nat) (t : Text) : Option Piece := do
  if t.isEmpty then none
  let digits ← t.mapM digit?
  let n := digits.foldl (fun n d => if n ≤ 0x10FFFF then base * n + d else n) 0
  let c := Char.ofNat n
  if c.toNat = n && isLegal c then some (numbered c) else none

/-- The reference behind an ampersand, and the rest. -/
def reference? (a : Alphabet) : Text → Option (Piece × Text)
  | '#' :: 'x' :: t => do
    let (digits, rest) ← Text.splitFirst [';'] t
    return (← ofNumber 16 hexDigit? digits, rest)
  | '#' :: t => do
    let (digits, rest) ← Text.splitFirst [';'] t
    return (← ofNumber 10 decimalDigit? digits, rest)
  | t =>
    match a.name? t with
    | some (name, ';' :: rest) => some (entity name, rest)
    | _ => none

/-- The pieces of a value in which one character is not allowed. The number bounds their count. -/
def ofValueWithin (a : Alphabet) (forbidden : Char) : Nat → Text → Option (List Piece)
  | _, [] => some []
  | 0, _ => none
  | n + 1, c :: t =>
    if c = '&' then
      match reference? a t with
      | some (p, rest) => (ofValueWithin a forbidden n rest).map (p :: ·)
      | none => none
    else if c = forbidden then none
    else (ofValueWithin a forbidden n t).map (literal c :: ·)

/-- The pieces of a value in which one character is not allowed. -/
def ofValue (a : Alphabet) (forbidden : Char) (t : Text) : Option (List Piece) :=
  ofValueWithin a forbidden t.length t

end Piece

/-- A text in quotation marks at the start of the text, and the rest. -/
def quotation? : Text → Option (Text × Text)
  | '"' :: t => Text.splitFirst ['"'] t
  | '\'' :: t => Text.splitFirst ['\''] t
  | _ => none

/-- An attribute as it is written. -/
abbrev WrittenAttribute := Text × Text

/-- The attributes at the start of the text, each with white space in front, and the rest, which
starts with neither. The number bounds their count. -/
def attributes? (a : Alphabet) : Nat → Text → Option (List WrittenAttribute × Text)
  | 0, t => some ([], skipSpace t)
  | n + 1, t =>
    if !(t.head?.any isSpace) then some ([], t)
    else
      match a.qualifiedName? (skipSpace t) with
      | none => some ([], skipSpace t)
      | some (name, rest) =>
        match skipSpace rest with
        | '=' :: rest =>
          match quotation? (skipSpace rest) with
          | none => none
          | some (value, rest) =>
            (attributes? a n rest).map fun (others, rest) => ((name, value) :: others, rest)
        | _ => none

/-- The text behind a comment, given what follows its opening. Two hyphens end it. -/
def afterComment? (t : Text) : Option Text :=
  match Text.splitFirst "--" t with
  | some (_, '>' :: rest) => some rest
  | _ => none

/-- The text behind an instruction, given what follows its opening. -/
def afterInstruction? (a : Alphabet) (t : Text) : Option Text := do
  let (target, rest) ← a.name? t
  if target.map Char.toLower = "xml".toList then none
  match rest with
  | '?' :: '>' :: rest => some rest
  | c :: rest => if isSpace c then (Text.splitFirst "?>" rest).map (·.2) else none
  | [] => none

/-- A token of a document. -/
inductive Token where
  | start (name : Text) (attributes : List WrittenAttribute) (isEmpty : Bool)
  | finish (name : Text)
  /-- Characters that stand for themselves. -/
  | plain (t : Text)
  /-- A reference. -/
  | reference (p : Piece)
  /-- Characters in a section in which none of them is markup. -/
  | quoted (t : Text)
  /-- A comment or an instruction. -/
  | remark
  deriving DecidableEq, Repr

namespace Token

/-- The tag that starts an element, given what follows its bracket, and the rest. -/
def start? (a : Alphabet) (bound : Nat) (t : Text) : Option (Token × Text) := do
  let (name, rest) ← a.qualifiedName? t
  let (attributes, rest) ← attributes? a bound rest
  match rest with
  | '>' :: rest => some (start name attributes false, rest)
  | '/' :: '>' :: rest => some (start name attributes true, rest)
  | _ => none

/-- The tag that ends an element, given what follows its slash, and the rest. -/
def finish? (a : Alphabet) (t : Text) : Option (Token × Text) := do
  let (name, rest) ← a.qualifiedName? t
  match skipSpace rest with
  | '>' :: rest => some (finish name, rest)
  | _ => none

/-- Whether the character can neither begin nor end anything but text. -/
def isPlain (c : Char) : Bool := c ≠ '<' && c ≠ '&' && c ≠ ']'

/-- The token at the start of the text, and the rest. The number bounds how many attributes a tag
has. -/
def next? (a : Alphabet) (bound : Nat) : Text → Option (Token × Text)
  | [] => none
  | '<' :: '/' :: t => finish? a t
  | '<' :: '?' :: t => (afterInstruction? a t).map (remark, ·)
  | '<' :: '!' :: '-' :: '-' :: t => (afterComment? t).map (remark, ·)
  | '<' :: '!' :: t => do
    let t ← Text.after? "[CDATA[" t
    let (content, rest) ← Text.splitFirst "]]>" t
    some (quoted content, rest)
  | '<' :: t => start? a bound t
  | '&' :: t => (Piece.reference? a t).map fun (p, rest) => (reference p, rest)
  | ']' :: ']' :: '>' :: _ => none
  | c :: t =>
    let (run, rest) := t.span isPlain
    some (plain (c :: run), rest)

end Token

end Markup

end JitInspect
