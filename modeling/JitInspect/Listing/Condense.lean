import JitInspect.Listing.Method
import JitInspect.Log

/-!
# Condensing a listing

The loader leaves notes in the output, wherever the generator happens to be. They are lifted out
before the listing is read and put behind the condensed methods. A text that cannot be read as a
listing is left as it is.
-/

namespace JitInspect

namespace Listing

/-- The beginning of a note of the loader. -/
def noteStart : Text := "; jitscope: "

/-- Whether a line is a note of the loader. -/
def isNote (l : Text.Line) : Bool := Text.startsWith l.full noteStart

/-- The text without the loader's notes, and the notes in order. -/
def splitNotes (raw : Text) : Text × List Text :=
  let ls := Text.lines raw
  ((ls.filter fun l => !isNote l).flatMap Text.Line.full,
    (ls.filter isNote).map fun l => Text.trimEnd Text.isNewline l.full)

/-- The notes behind a condensed listing. -/
def renderNotes (notes : List Text) : Text := notes.flatMap fun n => n ++ ['\n']

/-- The condensed listing with the notes behind it, or why there is none. -/
def condense? (source : Source) (raw : Text) : Except Fault Text :=
  let (listing, notes) := splitNotes raw
  (methods source listing).map fun rs => renderMethods rs ++ renderNotes notes

/-- The warning for a listing that cannot be read. -/
def Fault.warning (f : Fault) : LogRecord :=
  ⟨.warning, "Disassembly output format may have changed: " ++ f.message⟩

/-- The condensed listing, or the text as it is with a warning. With `minimal` off nothing is
condensed. -/
def condense (minimal : Bool) (source : Source) (raw : Text) : Text × List LogRecord :=
  if minimal then
    match condense? source raw with
    | .ok t => (t, [])
    | .error f => (raw, [f.warning])
  else (raw, [])

end Listing

end JitInspect
