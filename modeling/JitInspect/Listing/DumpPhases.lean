import JitInspect.Text.Blank
import JitInspect.Text.Lines

/-!
# Phases named in a dump

A dump names each phase of the compilation on a line of its own when the phase starts.
-/

namespace JitInspect

namespace Listing

/-- The beginning of the line on which a phase starts. -/
def phaseMarker : Text := "*************** Starting PHASE "

/-- The names of the phases that a dump starts, in order. -/
def dumpPhases (output : Text) : List Text :=
  (Text.lineBodies output).filterMap fun l => (Text.after? phaseMarker l).map Text.strip

end Listing

end JitInspect
