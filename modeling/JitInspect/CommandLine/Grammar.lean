import JitInspect.Text.Quoted

/-!
# Grammars of command lines

A command line consists of options and operands. An option has names that begin with a dash; it is a
flag or takes a value. An operand is any other argument: a single one, or the word of a command with
everything behind it. What a command line may say is described by a grammar, and what is wrong with
a command line is told in the terms of its grammar.
-/

namespace JitInspect

namespace CommandLine

/-- What an option does. -/
inductive OptionForm where
  /-- It is there or not. -/
  | flag
  /-- It takes a value: one of the choices, or any when there are none. -/
  | value (choices : List Text)
  /-- It asks how the program is used. -/
  | help
  /-- It asks for the version of the program. -/
  | version
  deriving DecidableEq, Repr

/-- An option. -/
structure OptionSpec where
  names : List Text
  form : OptionForm
  required : Bool := false
  deriving DecidableEq, Repr

namespace OptionSpec

/-- The name under which the option is looked up: the last one. -/
def key (o : OptionSpec) : Text := o.names.getLast?.getD []

/-- The option as it is named in messages: all of its names. -/
def title (o : OptionSpec) : Text := Text.join "/" o.names

/-- Whether the option takes a value. -/
def takesValue (o : OptionSpec) : Bool :=
  match o.form with
  | .value _ => true
  | _ => false

end OptionSpec

/-- What stands on a command line besides the options. -/
inductive Operand where
  | none
  /-- One argument. -/
  | argument (name : Text)
  /-- The word of a command and everything behind it. -/
  | command (name : Text) (words : List Text)
  deriving DecidableEq, Repr

/-- The name of the operand, if there is one. -/
def Operand.name? : Operand → Option Text
  | none => .none
  | argument n | command n _ => some n

/-- What the command line of a program may say. -/
structure Grammar where
  program : Text
  options : List OptionSpec
  operand : Operand := .none
  deriving DecidableEq, Repr

namespace Grammar

/-- All names of options, each with its option, in the order of the grammar. -/
def names (g : Grammar) : List (Text × OptionSpec) :=
  g.options.flatMap fun o => o.names.map fun n => (n, o)

/-- The option with a name. -/
def find? (g : Grammar) (name : Text) : Option OptionSpec := g.names.lookup name

/-- How an option is written when it is explained. -/
def usageOf (o : OptionSpec) : Text :=
  let value : Text := if o.takesValue then " VALUE" else ""
  let ending : Text := if o.required then " (required)\n" else "\n"
  "  " ++ Text.join ", " o.names ++ value ++ ending

/-- How the operand is written when it is explained. -/
def usageOfOperand : Operand → Text
  | .none => []
  | .argument n => " " ++ n
  | .command _ words => " \x7b" ++ Text.join "," words ++ "\x7d ..."

/-- How the program is used. -/
def usage (g : Grammar) : Text :=
  "usage: " ++ g.program ++ " [options]" ++ usageOfOperand g.operand ++ "\n\noptions:\n" ++
    g.options.flatMap usageOf

end Grammar

/-- What is wrong with a command line. -/
inductive UsageFault where
  /-- The argument may stand for several options. -/
  | ambiguous (argument : Text) (names : List Text)
  /-- A flag was given a value. -/
  | needlessValue (option : Text) (value : Text)
  /-- An option lacks its value. -/
  | noValue (option : Text)
  /-- A value is none of the choices. -/
  | notAChoice (what : Text) (value : Text) (choices : List Text)
  /-- Something that is required was not given. -/
  | missing (names : List Text)
  /-- Some arguments mean nothing. -/
  | unrecognized (arguments : List Text)
  deriving DecidableEq, Repr

/-- What is said of the fault. -/
def UsageFault.message : UsageFault → Text
  | ambiguous a names =>
    "ambiguous option: " ++ a ++ " could match " ++ Text.join ", " names
  | needlessValue o v => "argument " ++ o ++ ": ignored explicit argument " ++ Text.quoted v
  | noValue o => "argument " ++ o ++ ": expected one argument"
  | notAChoice w v choices =>
    "argument " ++ w ++ ": invalid choice: " ++ Text.quoted v ++ " (choose from " ++
      Text.join ", " (choices.map Text.quoted) ++ ")"
  | missing names => "the following arguments are required: " ++ Text.join ", " names
  | unrecognized args => "unrecognized arguments: " ++ Text.join " " args

/-- Why the reading of a command line ends without a result. -/
inductive Stop where
  | usage (program : Text) (fault : UsageFault)
  /-- The user asks how the program is used. -/
  | help (g : Grammar)
  /-- The user asks for the version. -/
  | version
  deriving DecidableEq, Repr

end CommandLine

end JitInspect
