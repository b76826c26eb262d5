import JitInspect.Host
import JitInspect.Settings.Check
import JitInspect.Text.Blank
import JitInspect.Text.LowerCase
import JitInspect.Text.Quoted

/-!
# Settings

The options of one run, and how they are read from supplied values. An architecture is accepted in
any case and with whitespace around it; the name of an environment variable is neither empty nor
surrounded by whitespace and holds no equals sign.
-/

namespace JitInspect

/-- The code generators. -/
inductive Compiler where
  | jit
  | crossgen
  | nativeAot
  deriving DecidableEq, Repr

namespace Compiler

/-- The word for the compiler. -/
def name : Compiler → Text
  | jit => "jit"
  | crossgen => "crossgen2"
  | nativeAot => "nativeaot"

/-- All compilers, in the order in which they are offered. -/
def all : List Compiler := [jit, crossgen, nativeAot]

/-- The compiler with the given word. -/
def ofName? (t : Text) : Option Compiler := all.find? fun c => c.name = t

end Compiler

/-- Environment variables in the order in which they were set. -/
abbrev Variables := List (Text × Text)

/-- The options of one run. -/
structure Settings where
  /-- Keep the generator's comments instead of condensing the listing. -/
  showComments : Bool := false
  /-- Ask for a dump, which only a checked generator gives. -/
  dump : Bool := false
  /-- Ask for the tree of inlined methods. -/
  inlinees : Bool := false
  /-- Run the program itself instead of the loader. -/
  runApp : Bool := false
  /-- What to list in place of the symbol when the program itself is run. -/
  listingOverride : Option Text := none
  compiler : Compiler := .jit
  /-- Use a runtime that was built locally. -/
  customRuntime : Bool := false
  runtimePath : Text := []
  /-- The generator's file; any but the stock one is loaded beside it. -/
  customJit : Text := "clrjit.dll"
  arch : Text := "x64"
  pgo : Bool := false
  diffable : Bool := false
  tiered : Bool := false
  unloadable : Bool := false
  /-- Publish with the runtime instead of building. -/
  publish : Bool := false
  noRestore : Bool := false
  crossgenArgs : Text := "-O"
  ilcArgs : Text := []
  flowGraphs : Bool := false
  /-- The program that draws graphs. -/
  dotPath : Text := []
  /-- The target framework to use in place of the highest one. -/
  framework : Option Text := none
  noFrameworkGuess : Bool := false
  /-- Environment variables that win over all others. -/
  overrides : Variables := []
  deriving DecidableEq, Repr

namespace Settings

/-- The stock generator's file. -/
def stockJit : Text := "clrjit.dll"

/-- The architectures that can be asked for, in ascending order. -/
def supportedArches : List Text := ["arm", "arm64", "x64", "x86"]

/-- The options when nothing is supplied. -/
def ofHost (h : Host) : Settings :=
  { arch := h.defaults.arch
    dotPath := h.defaults.graphviz
    runtimePath := h.defaults.localRuntime }

/-- Whether listings are condensed. -/
def minimalComments (s : Settings) : Bool := !s.showComments

/-- Whether the code is generated before the program runs. -/
def isAot (s : Settings) : Bool := s.compiler ≠ .jit

/-- Whether another generator is loaded beside the stock one. -/
def usesAltJit (s : Settings) : Bool :=
  s.customRuntime && !s.isAot && Text.strip s.customJit ≠ [] &&
    Text.lower (Text.strip s.customJit) ≠ Text.lower stockJit

/-- Whether a native program is made by the stock toolchain, with one command. -/
def isDefaultNativeAot (s : Settings) : Bool := s.compiler = .nativeAot && !s.customRuntime

/-! ### Reading -/

section Reading

/-- Reads a compiler. -/
def readCompiler (place : List Step) : RawValue → Checked Compiler
  | .text t =>
    match Compiler.ofName? t with
    | some c => .ok c
    | none => .fault place .notCompiler
  | _ => .fault place .notCompiler

/-- Accepts a supported architecture. -/
def acceptArch (place : List Step) (written : Text) : Checked Text :=
  let arch := Text.lower (Text.strip written)
  if supportedArches.contains arch then .ok arch
  else .fault place (.rejected ("Unsupported arch '" ++ arch ++ "'. Supported: " ++
    Text.join ", " supportedArches))

/-- Reads an architecture. -/
def readArch (place : List Step) (v : RawValue) : Checked Text :=
  (v.readText place).andThen (acceptArch place)

/-- Whether a text may be the name of an environment variable. -/
def isVariableName (n : Text) : Bool := n ≠ [] && !n.contains '=' && Text.strip n = n

/-- Accepts variables whose names are all valid. -/
def acceptVariables (place : List Step) (vars : Variables) : Checked Variables :=
  match vars.find? fun v => !isVariableName v.1 with
  | none => .ok vars
  | some (n, _) =>
    .fault place (.rejected ("Invalid environment variable name: " ++ Text.quoted n))

/-- Reads environment variables. -/
def readVariables (place : List Step) (v : RawValue) : Checked Variables :=
  (v.readMap place).andThen (acceptVariables place)

/-- Reads the options. -/
def read (h : Host) (v : RawValue) : Checked Settings :=
  let d := ofHost h
  let flag (name : String) : Checked Bool := v.readField [] name false RawValue.readFlag
  let text (name : String) (default : Text) : Checked Text :=
    v.readField [] name default RawValue.readText
  let optional (name : String) : Checked (Option Text) :=
    v.readField [] name none RawValue.readOptionalText
  Settings.mk <$> flag "show_asm_comments" <*> flag "jit_dump" <*> flag "print_inlinees"
    <*> flag "run_app_mode" <*> optional "overridden_jit_disasm"
    <*> v.readField [] "compiler" d.compiler readCompiler
    <*> flag "use_custom_runtime" <*> text "path_to_local_runtime" d.runtimePath
    <*> text "custom_jit" d.customJit <*> v.readField [] "arch" d.arch readArch
    <*> flag "use_pgo" <*> flag "diffable" <*> flag "use_tiered_jit"
    <*> flag "use_unloadable_context" <*> flag "use_publish_for_reload" <*> flag "use_no_restore"
    <*> text "crossgen2_args" d.crossgenArgs <*> text "ilc_args" d.ilcArgs
    <*> flag "flowgraph_enable" <*> text "graphviz_dot_path" d.dotPath
    <*> optional "overridden_target_framework" <*> flag "dont_guess_target_framework"
    <*> v.readField [] "env_overrides" d.overrides readVariables

end Reading

end Settings

end JitInspect
