import JitInspect.Text.Basic

/-!
# Paths

A path is an optional anchor and the names behind it. Empty names and single dots say nothing and
are dropped when a path is read; two dots are kept, because what they lead to depends on the links
on the way.
-/

namespace JitInspect

/-- Where a path starts: here, at the root, or at the root that exactly two slashes name. -/
inductive Anchor where
  | here
  | root
  | doubleRoot
  deriving DecidableEq, Repr

/-- A path in the file tree. -/
structure Path where
  anchor : Anchor
  parts : List Text
  deriving DecidableEq, Repr

namespace Path

/-- The slash between the names of a path. -/
def separator : Char := '/'

/-- The anchor of a written path. Three slashes or more count as one. -/
def anchorOf (t : Text) : Anchor :=
  match (t.takeWhile (· = separator)).length with
  | 0 => .here
  | 2 => .doubleRoot
  | _ => .root

/-- The names of a written path. -/
def namesOf (t : Text) : List Text :=
  (Text.splitOn [separator] t).filter fun n => n ≠ [] && n ≠ ['.']

/-- Reads a path. -/
def ofText (t : Text) : Path := ⟨anchorOf t, namesOf t⟩

/-- The anchor as it is written. -/
def anchorText : Anchor → Text
  | .here => []
  | .root => "/"
  | .doubleRoot => "//"

/-- The path as it is written; a path of nothing is a dot. -/
def text (p : Path) : Text :=
  if p.anchor = .here && p.parts.isEmpty then "." else anchorText p.anchor ++ Text.join "/" p.parts

/-- Whether the path starts at a root. -/
def isAbsolute (p : Path) : Bool := p.anchor ≠ .here

/-- The second path as seen from the first. -/
def append (p q : Path) : Path :=
  if q.isAbsolute then q else ⟨p.anchor, p.parts ++ q.parts⟩

instance : Append Path := ⟨append⟩

/-- The path with a name, or several with slashes between them, behind it. -/
def child (p : Path) (name : Text) : Path := p ++ ofText name

/-- The path without its last name. -/
def parent (p : Path) : Path := ⟨p.anchor, p.parts.dropLast⟩

/-- The last name of the path, if it has one. -/
def name (p : Path) : Text := p.parts.getLast?.getD []

/-- The last name without the extension: what precedes the last dot, unless that dot is the first
or the last character. -/
def stem (p : Path) : Text :=
  match Text.splitLast ['.'] p.name with
  | some (before, rest) => if before.isEmpty || rest.isEmpty then p.name else before
  | none => p.name

end Path

end JitInspect
