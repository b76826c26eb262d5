import JitInspect.Listing.Block
import JitInspect.Text.Alphanumeric
import JitInspect.Text.Blank
import JitInspect.Text.Lines
import JitInspect.Text.Quoted

/-!
# Scanning a listing

The code generator prints each method behind a marker line that names it. Scanning assigns every
line that is neither blank nor a marker to the method of the nearest marker above it, and groups the
lines of a method into blocks. A line opens a block when it is the first behind its marker, when its
kind differs from the line before, or when it is a label.
-/

namespace JitInspect

namespace Listing

/-- The beginning of the line that names a method. -/
def methodMarker : Text := "; Assembly listing for method "

/-- The words in front of a method's code size. -/
def sizeMarker : Text := "; Total bytes of code "

/-- Why a text is no listing. -/
inductive Fault where
  /-- A line stands in front of the first marker. -/
  | lineBeforeMarker
  /-- No method is named, or the last marker names none. -/
  | noMarker
  /-- A method has no comment, so nothing gives its size. -/
  | noComment (method : Text)
  /-- A comment has no size. -/
  | noSize
  /-- What stands for the size is no numeral. -/
  | unreadableSize (numeral : Text)
  deriving DecidableEq, Repr

/-- What is said of the fault. -/
def Fault.message : Fault → Text
  | lineBeforeMarker => "Listing does not start with a method marker"
  | noMarker => "No method marker found"
  | noComment m => "Method " ++ m ++ " has no trailer comment"
  | noSize => "No '" ++ Text.strip sizeMarker ++ "' trailer found"
  | unreadableSize t => "Unparsable code size: " ++ Text.quoted t

/-- Whether the listing may be interleaved with the output of the program itself, whose lines in
front of the first marker are then passed over. -/
inductive Source where
  | generatorOnly
  | withProgramOutput
  deriving DecidableEq, Repr

/-- A line of a method's listing. -/
structure Entry where
  method : Text
  kind : BlockKind
  opens : Bool
  line : Text
  deriving DecidableEq, Repr

/-- A comment line starts with a semicolon. -/
def kindOf (line : Text) : BlockKind :=
  match line with
  | ';' :: _ => .comment
  | _ => .code

/-- A label is a word with a colon behind it. -/
def isLabel (line : Text) : Bool :=
  !(line.takeWhile Text.isWordChar).isEmpty && (line.dropWhile Text.isWordChar).head? = some ':'

/-- Whether a line opens a block, given the kind of the line before it in the same method. -/
def opensBlock (previous : Option BlockKind) (line : Text) : Bool :=
  previous ≠ some (kindOf line) || (kindOf line = .code && isLabel line)

/-- The entries of the lines, when `method` is named by the nearest marker above them (no name:
none) and `previous` is the kind of the line before in that method. -/
def entries (source : Source) : (method : Text) → (previous : Option BlockKind) → List Text →
    Except Fault (List Entry)
  | method, _, [] => if method.isEmpty then .error .noMarker else .ok []
  | method, previous, l :: ls =>
    if Text.blank l then entries source method previous ls
    else
      match Text.after? methodMarker l with
      | some name => entries source name none ls
      | none =>
        if method.isEmpty then
          match source with
          | .generatorOnly => .error .lineBeforeMarker
          | .withProgramOutput => entries source method previous ls
        else
          (entries source method (some (kindOf l)) ls).map fun es =>
            ⟨method, kindOf l, opensBlock previous l, l⟩ :: es

/-- Groups entries into blocks: an entry that does not open a block belongs to the one before. -/
def groupEntries : List Entry → List Block
  | [] => []
  | e :: es =>
    match es, groupEntries es with
    | next :: _, b :: bs =>
      if next.opens then ⟨e.method, e.kind, [e.line]⟩ :: b :: bs
      else ⟨e.method, e.kind, e.line :: b.lines⟩ :: bs
    | _, bs => ⟨e.method, e.kind, [e.line]⟩ :: bs

/-- The blocks of a listing, in order. -/
def scanBlocks (source : Source) (raw : Text) : Except Fault (List Block) :=
  (entries source [] none (Text.lineBodies raw)).map groupEntries

end Listing

end JitInspect
