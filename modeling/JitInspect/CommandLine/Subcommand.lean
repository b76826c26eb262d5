import JitInspect.CommandLine.Reading
import JitInspect.Listing.Scan
import JitInspect.Settings.Basic
import JitInspect.Symbol.Basic

/-!
# Subcommands

The program has three subcommands: one builds a project and prints the listing of a symbol, one
condenses a listing that is there already, and one splits a dump of flow graphs. Their grammars
stand here, and what the user asks for when a command line was read.
-/

namespace JitInspect

namespace CommandLine

/-! ### Grammars -/

section Grammars

/-- The name of the program. -/
def programName : Text := "jitscope"

/-- The option that every grammar has. -/
def helpOption : OptionSpec := ⟨["-h", "--help"], .help, false⟩

/-- A flag. -/
def flag (name : String) : OptionSpec := ⟨[name.toList], .flag, false⟩

/-- An option with any value. -/
def value (name : String) : OptionSpec := ⟨[name.toList], .value [], false⟩

/-- An option with any value that has to be given. -/
def required (name : String) : OptionSpec := ⟨[name.toList], .value [], true⟩

/-- An option whose value is one of the choices. -/
def choice (name : String) (choices : List Text) : OptionSpec :=
  ⟨[name.toList], .value choices, false⟩

/-- The command line of the listing of a symbol. -/
def disasmGrammar : Grammar where
  program := programName ++ " disasm"
  options :=
    [helpOption, required "--project", required "--type", value "--member",
      choice "--kind" (SymbolKind.all.map SymbolKind.name), flag "--generic-method",
      flag "--show-comments", flag "--jit-dump", flag "--print-inlinees", flag "--run",
      value "--jit-disasm", choice "--compiler" (Compiler.all.map Compiler.name),
      value "--runtime", value "--custom-jit", choice "--arch" Settings.supportedArches,
      flag "--pgo", flag "--diffable", flag "--tiered", flag "--unloadable", flag "--publish",
      flag "--no-restore", value "--crossgen2-args", value "--ilc-args", flag "--flowgraph",
      flag "--render", value "--dot", value "--tfm", flag "--no-guess-tfm", value "--env"]

/-- The command line that condenses a listing. -/
def prettifyGrammar : Grammar where
  program := programName ++ " prettify"
  options := [helpOption, flag "--run-mode"]
  operand := .argument "file"

/-- The command line that splits a dump. -/
def flowgraphGrammar : Grammar where
  program := programName ++ " flowgraph"
  options := [helpOption, required "--out", flag "--render", value "--dot"]
  operand := .argument "file"

/-- The words of the subcommands. -/
def words : List Text := ["disasm", "prettify", "flowgraph"]

/-- The command line of the program. -/
def programGrammar : Grammar where
  program := programName
  options := [helpOption, ⟨["--version"], .version, false⟩, ⟨["-v", "--verbose"], .flag, false⟩]
  operand := .command "command" words

end Grammars

/-! ### What the user asks for -/

/-- The listing of a symbol. -/
structure Disassembly where
  project : Text
  typeName : Text
  member : Text := []
  kind : Option SymbolKind := none
  genericMethod : Bool := false
  /-- The options of the run that were given. -/
  options : List (Text × RawValue) := []
  /-- The environment variables that were given, each with an equals sign. -/
  overrides : List Text := []
  /-- The flow graphs are drawn. -/
  draws : Bool := false

/-- A subcommand with its options. -/
inductive Subcommand where
  | disasm (d : Disassembly)
  | prettify (file : Text) (source : Listing.Source)
  | flowgraph (file folder : Text) (draws : Bool) (dot : Text)

/-- What the user asks the program for. -/
structure Invocation where
  /-- Progress is logged. -/
  verbose : Bool
  subcommand : Subcommand

namespace Disassembly

/-- The flags of the command line and the options of the run that they set. -/
def flags : List (Text × Text) :=
  [("--show-comments", "show_asm_comments"), ("--jit-dump", "jit_dump"),
    ("--print-inlinees", "print_inlinees"), ("--run", "run_app_mode"), ("--pgo", "use_pgo"),
    ("--diffable", "diffable"), ("--tiered", "use_tiered_jit"),
    ("--unloadable", "use_unloadable_context"), ("--publish", "use_publish_for_reload"),
    ("--no-restore", "use_no_restore"), ("--flowgraph", "flowgraph_enable"),
    ("--no-guess-tfm", "dont_guess_target_framework"), ("--runtime", "use_custom_runtime")].map
      fun (a, b) => (a.toList, b.toList)

/-- The values of the command line and the options of the run that they give. -/
def texts : List (Text × Text) :=
  [("--jit-disasm", "overridden_jit_disasm"), ("--compiler", "compiler"),
    ("--runtime", "path_to_local_runtime"), ("--custom-jit", "custom_jit"),
    ("--crossgen2-args", "crossgen2_args"), ("--ilc-args", "ilc_args"),
    ("--dot", "graphviz_dot_path"), ("--tfm", "overridden_target_framework")].map
      fun (a, b) => (a.toList, b.toList)

/-- The options of the run that a command line gives. The architecture is always among them, so that
it is checked also when the host supplies it. -/
def optionsOf (h : Host) (r : Reading) : List (Text × RawValue) :=
  flags.map (fun (name, field) => (field, .flag (r.has name))) ++
    texts.filterMap (fun (name, field) => (r.value? name).map fun v => (field, .text v)) ++
    [("arch".toList, .text ((r.value? "--arch").getD h.defaults.arch))]

/-- The listing that a command line asks for. -/
def ofReading (h : Host) (r : Reading) : Disassembly where
  project := (r.value? "--project").getD []
  typeName := (r.value? "--type").getD []
  member := (r.value? "--member").getD []
  kind := (r.value? "--kind").bind SymbolKind.ofName?
  genericMethod := r.has "--generic-method"
  options := optionsOf h r
  overrides := r.values "--env"
  draws := r.has "--render"

end Disassembly

namespace Subcommand

/-- The program that draws graphs when none is given. -/
def usualDot (h : Host) : Text := if h.defaults.graphviz.isEmpty then "dot" else h.defaults.graphviz

/-- The file that a command line names. -/
def fileOf (r : Reading) : Text := r.operand.head?.getD []

/-- The condensing of a listing that a command line asks for. -/
def prettifyOf (r : Reading) : Subcommand :=
  .prettify (fileOf r) (if r.has "--run-mode" then .withProgramOutput else .generatorOnly)

/-- The splitting of a dump that a command line asks for. -/
def flowgraphOf (h : Host) (r : Reading) : Subcommand :=
  .flowgraph (fileOf r) ((r.value? "--out").getD []) (r.has "--render")
    ((r.value? "--dot").getD (usualDot h))

/-- Reads the arguments of the subcommand with the given word, and gives what is left over. -/
def read (h : Host) (word : Text) (arguments : List Text) : Except Stop (Subcommand × List Text) :=
  if word = "disasm".toList then do
    let r ← disasmGrammar.read arguments
    pure (.disasm (Disassembly.ofReading h r), r.aside)
  else if word = "prettify".toList then do
    let r ← prettifyGrammar.read arguments
    pure (prettifyOf r, r.aside)
  else if word = "flowgraph".toList then do
    let r ← flowgraphGrammar.read arguments
    pure (flowgraphOf h r, r.aside)
  else throw (.usage programName (.notAChoice "command" word words))

end Subcommand

/-- Reads a command line. Nothing may be left over. -/
def Invocation.read (h : Host) (arguments : List Text) : Except Stop Invocation := do
  let r ← programGrammar.read arguments
  let (s, aside) ← Subcommand.read h (r.operand.head?.getD []) r.operand.tail
  match r.aside ++ aside with
  | [] => pure ⟨r.has "--verbose", s⟩
  | left => throw (.usage programName (.unrecognized left))

end CommandLine

end JitInspect
