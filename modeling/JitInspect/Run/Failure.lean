import JitInspect.FileTree.Disk
import JitInspect.Gate
import JitInspect.Strategy.Plan
import JitInspect.Text.Blank
import JitInspect.Text.Lines

/-!
# Failures of a run

A run can be cancelled, its options can be rejected, a tool can fail, the user can interrupt the
program, and anything else can go wrong. Only the last kind is not foreseen; it is reported with the
word for its kind.
-/

namespace JitInspect

/-- A failure that no step of a run foresees. -/
inductive Unforeseen where
  | file (f : FileFault)
  | value (message : Text)
  | runtime (message : Text)
  | system (message : Text)
  | call (message : Text)
  | lookup (message : Text)
  deriving DecidableEq, Repr

namespace Unforeseen

/-- The word for the kind of the failure. -/
def word : Unforeseen → Text
  | file f => f.word
  | value _ => "ValueError"
  | runtime _ => "RuntimeError"
  | system _ => "OSError"
  | call _ => "TypeError"
  | lookup _ => "LookupError"

/-- What is said of the failure. -/
def message : Unforeseen → Text
  | file f => f.message
  | value m | runtime m | system m | call m | lookup m => m

/-- The word for the kind of the failure in a report, where the faults of copying are told apart
from others by what raised them. -/
def reportWord : Unforeseen → Text
  | file (.sameFile s t) => "shutil." ++ (FileFault.sameFile s t).word
  | file (.copies fs) => "shutil." ++ (FileFault.copies fs).word
  | u => u.word

/-- The kind and the message of the failure. -/
def statement (u : Unforeseen) : Text :=
  u.reportWord ++ (if u.message.isEmpty then [] else ": ".toList ++ u.message)

/-- The report of the failure: the last line of the statement that is not empty. Only a line feed
ends a line here. -/
def report (u : Unforeseen) : Text :=
  let full := Text.trimEnd (· = '\n') u.statement
  "<traceback> " ++ ((Text.splitOn ['\n'] full).getLast?.getD [])

end Unforeseen

/-- Why a run or a step of it ends early. -/
inductive Failure where
  /-- The run was cancelled. -/
  | cancelled (message : Text)
  /-- The options do not make sense together. -/
  | rejected (message : Text)
  /-- A tool failed; this is what it printed. -/
  | tool (output : Text)
  /-- The user interrupted the program. -/
  | interrupted
  | unforeseen (u : Unforeseen)
  deriving DecidableEq, Repr

namespace Failure

/-- What is said of a run that was cancelled. -/
def cancelledMessage : Text := "The operation was cancelled."

/-- The failure of a file operation. -/
def ofFile (f : FileFault) : Failure := unforeseen (.file f)

/-- The failure of a gate. -/
def ofGate : GateFault → Failure
  | .path f => ofFile f
  | .unknownHome => unforeseen (.runtime GateFault.unknownHome.message)
  | f => rejected f.message

/-- The failure to resolve a project. -/
def ofResolve : ResolveFault → Failure
  | .versionTooLong e => unforeseen (.value e.message)
  | .path f => ofFile f
  | f => rejected f.message

/-- The failure to split arguments. -/
def ofArguments (f : ArgumentFault) : Failure := rejected f.message

/-- The failure to make a plan. -/
def ofPlan : PlanFault → Failure
  | .arguments f => ofArguments f
  | f => unforeseen (.value f.message)

end Failure

end JitInspect
