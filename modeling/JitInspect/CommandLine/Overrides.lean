import JitInspect.Settings.Basic

/-!
# Variables on the command line

An environment variable is given as its name and its value with an equals sign between them.
-/

namespace JitInspect

namespace CommandLine

/-- An argument that holds no equals sign. -/
structure NoEquals where
  argument : Text
  deriving DecidableEq, Repr

/-- What is said of an argument without an equals sign. -/
def NoEquals.message (e : NoEquals) : Text := "Expected KEY=VALUE, got '" ++ e.argument ++ "'"

/-- The name and the value in an argument: the first equals sign separates them. -/
def parseOverride (argument : Text) : Except NoEquals (Text × Text) :=
  match Text.splitFirst "=" argument with
  | some pair => .ok pair
  | none => .error ⟨argument⟩

/-- The variables in the arguments. -/
def parseOverrides (arguments : List Text) : Except NoEquals Variables :=
  (arguments.mapM parseOverride).map RawValue.mapOfPairs

end CommandLine

end JitInspect
