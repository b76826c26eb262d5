import JitInspect.Text.Blank
import JitInspect.Text.Quoted

/-!
# Flow-graph phases

The generator appends one graph per compilation phase to a dump. A graph names its phase in its
label, behind the last word "after". A phase has a place within its tier, which begins with the
phase "Pre-import", and a place within the whole dump.
-/

namespace JitInspect

namespace FlowGraph

/-- The line that opens a graph. -/
def header : Text := "digraph FlowGraph \x7b"

/-- What stands in front of a label. -/
def labelStart : Text := "graph [label = "

/-- What stands behind a label. -/
def labelEnd : Text := "\"];"

/-- What stands in front of the name of a phase. -/
def phaseMark : Text := " after "

/-- The phase with which a tier begins. -/
def initialPhase : Text := "Pre-import"

/-- Why a graph names no phase. -/
inductive LabelFault where
  | noLabel
  | unterminated
  | noPhase (label : Text)
  | emptyPhase (label : Text)
  deriving DecidableEq, Repr

/-- What is said of the fault. -/
def LabelFault.message : LabelFault → Text
  | noLabel => "Graph has no label attribute"
  | unterminated => "Graph label is not terminated"
  | noPhase l => "Graph label " ++ Text.quoted l ++ " names no phase"
  | emptyPhase l => "Graph label " ++ Text.quoted l ++ " has an empty phase name"

/-- The name of the phase in a label: quotes in front do not count, and a written line break is a
space. -/
def nameInLabel (written : Text) : Except LabelFault Text :=
  let label := Text.replace "\\n" " " (Text.trimStart (· = '"') written)
  match Text.splitLast phaseMark label with
  | none => .error (.noPhase label)
  | some (_, rest) =>
    if (Text.strip rest).isEmpty then .error (.emptyPhase label) else .ok (Text.strip rest)

/-- The name of the phase of a graph. -/
def phaseName (graph : Text) : Except LabelFault Text :=
  match Text.splitFirst labelStart graph with
  | none => .error .noLabel
  | some (_, rest) =>
    match Text.splitFirst labelEnd rest with
    | none => .error .unterminated
    | some (written, _) => nameInLabel written

/-- Whether a character may not stand in a file name on every system. -/
def isForbiddenInFileName (c : Char) : Bool :=
  c.toNat < 0x20 || ['<', '>', ':', '"', '/', '\\', '|', '?', '*'].contains c

/-- The name with an underscore for each character that may not stand in a file name. -/
def fileNameOf (name : Text) : Text := name.map fun c => if isForbiddenInFileName c then '_' else c

/-- One phase's graph. -/
structure Phase where
  ordinal : Nat
  absoluteOrdinal : Nat
  name : Text
  graph : Text
  file : Option Text := none
  image : Option Text := none
  deriving DecidableEq, Repr

/-- The phase's place in the dump and its name. -/
def Phase.identifier (p : Phase) : Text := Text.ofNat p.absoluteOrdinal ++ ". " ++ p.name

/-- What is shown of a phase to find its graph: the image if there is one, or else the file. -/
def Phase.shown (p : Phase) : Option Text := p.image <|> p.file

end FlowGraph

end JitInspect
