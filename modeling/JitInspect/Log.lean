import JitInspect.Text.Basic

/-!
# Log records

What a run reports besides its result: progress, and faults that it works around.
-/

namespace JitInspect

/-- How serious a record is. -/
inductive LogLevel where
  | info
  | warning
  deriving DecidableEq, Repr

/-- The word for the level. -/
def LogLevel.name : LogLevel → Text
  | info => "INFO"
  | warning => "WARNING"

/-- A record of the log. -/
structure LogRecord where
  level : LogLevel
  message : Text
  deriving DecidableEq, Repr

/-- The record as a line of the log. -/
def LogRecord.line (r : LogRecord) : Text := r.level.name ++ " " ++ r.message

end JitInspect
