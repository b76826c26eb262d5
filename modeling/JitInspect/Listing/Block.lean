import JitInspect.Text.Basic

/-!
# Blocks of a listing

A method's listing falls into blocks: runs of neighbouring lines that are all comments or all code.
A block under construction takes lines until it is closed, and is closed once.
-/

namespace JitInspect

/-- A line of a listing is a comment or code. -/
inductive BlockKind where
  | comment
  | code
  deriving DecidableEq, Repr

namespace BlockKind

/-- The word for the kind. -/
def name : BlockKind → Text
  | comment => "comment"
  | code => "code"

/-- The kind with the given word. -/
def ofName? (t : Text) : Option BlockKind := [comment, code].find? fun k => k.name = t

end BlockKind

/-- A run of neighbouring lines of one kind in one method's listing. -/
structure Block where
  method : Text
  kind : BlockKind
  lines : List Text
  deriving DecidableEq, Repr

/-- The block as text: an empty line start in front, and a line feed behind each line. -/
def Block.text (b : Block) : Text := '\n' :: b.lines.flatMap fun l => l ++ ['\n']

/-- A block that may still take lines. Closing it moves the lines out. -/
structure OpenBlock where
  method : Text
  kind : BlockKind
  lines : Option (List Text) := some []

namespace OpenBlock

/-- A closed block takes no line and cannot be closed again. -/
structure AlreadyClosed where
  method : Text

/-- What is said of a block that was closed before. -/
def AlreadyClosed.message (e : AlreadyClosed) : Text :=
  "Block for " ++ e.method ++ " was already frozen"

/-- Adds a line behind the others. -/
def append (b : OpenBlock) (line : Text) : Except AlreadyClosed OpenBlock :=
  match b.lines with
  | some ls => .ok { b with lines := some (ls ++ [line]) }
  | none => .error ⟨b.method⟩

/-- Closes the block. -/
def close (b : OpenBlock) : Except AlreadyClosed (Block × OpenBlock) :=
  match b.lines with
  | some ls => .ok (⟨b.method, b.kind, ls⟩, { b with lines := none })
  | none => .error ⟨b.method⟩

end OpenBlock

end JitInspect
