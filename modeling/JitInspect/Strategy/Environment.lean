import JitInspect.Markup.Escape
import JitInspect.RuntimeLayout
import JitInspect.Strategy.Basic

/-!
# Knobs of the code generator

The generator reads its knobs from environment variables. A compiler ahead of time hosts the
generator and takes the same knobs as options, on its command line or as items of a properties file.
-/

namespace JitInspect

namespace Knobs

/-- Sets a variable: a new one comes last, a known one keeps its place. -/
def set (vars : Variables) (key value : Text) : Variables := RawValue.setKey key value vars

/-- Sets several variables. -/
def setAll (vars more : Variables) : Variables := more.foldl (fun vs v => set vs v.1 v.2) vars

/-- A flag as the generator reads it. -/
def flag (b : Bool) : Text := if b then "1" else "0"

/-- The older spelling of the beginning of a knob. -/
def legacyStart : Text := "COMPlus_"

/-- The variable that names the folder of the framework's assemblies. -/
def coreLibraries : Text := "CORE_LIBRARIES"

/-- The knobs of the route with another generator. -/
def ofAltJit (h : Host) (route : Route) (info : SymbolInfo) : Variables :=
  match route with
  | .altJit file =>
    [(h.defaults.knobStart ++ "AltJitName", file), (h.defaults.knobStart ++ "AltJit", info.target)]
  | _ => []

/-- The knobs of the route that runs the program. -/
def ofRunApp (h : Host) (route : Route) : Variables :=
  match route with
  | .runApp (some listed) =>
    if listed.isEmpty then [] else [(h.defaults.knobStart ++ ListingKind.disasm.knob, listed)]
  | _ => []

/-- The knobs that only the route sets. -/
def ofRoute (h : Host) (route : Route) (info : SymbolInfo) : Variables :=
  ofAltJit h route info ++ ofRunApp h route

/-- The variable for the framework's assemblies, when they come from a local runtime. -/
def ofPack (s : Settings) (l : RuntimeLayout) : Variables :=
  match l.pack with
  | some dir => if s.customRuntime && !s.publish then [(coreLibraries, dir.text)] else []
  | none => []

/-- The knobs for the flow graphs, when there is a file for them. -/
def ofFlowGraphs (h : Host) (info : SymbolInfo) (file : Option Text) : Variables :=
  let p := h.defaults.knobStart
  match file with
  | some f =>
    if f.isEmpty then []
    else
      [(p ++ "JitDumpFg", info.target), (p ++ "JitDumpFgDot", "1"), (p ++ "JitDumpFgPhase", "*"),
        (p ++ "JitDumpFgFile", f)]
  | none => []

/-- The variables of a run but for those of the user. -/
def base (h : Host) (strategy : Strategy) (info : SymbolInfo) (s : Settings) (l : RuntimeLayout)
    (flowGraphFile : Option Text) : Variables :=
  let p := h.defaults.knobStart
  setAll []
    ((p ++ strategy.listing.knob, info.target) :: ofAltJit h strategy.route info ++
      [(p ++ "TieredPGO", flag s.pgo), (p ++ "JitDisasmDiffable", flag s.diffable)] ++
      ofPack s l ++
      [(p ++ "TieredCompilation", flag s.tiered)] ++
      ofFlowGraphs h info flowGraphFile ++ ofRunApp h strategy.route)

/-- The variables of a run: those of the user come last and win. -/
def environment (h : Host) (strategy : Strategy) (info : SymbolInfo) (s : Settings)
    (l : RuntimeLayout) (flowGraphFile : Option Text) : Variables :=
  setAll (base h strategy info s l flowGraphFile) s.overrides

/-! ### Options of a compiler -/

section Options

/-- What stands in front of a knob on a compiler's command line. -/
def optionStart : Text := "--codegenopt:"

/-- The name of the knob in a variable's key, in lower case, if the key is that of a knob. -/
def knobOf (h : Host) (key : Text) : Option Text :=
  let lower := Text.lower key
  Text.after? (Text.lower h.defaults.knobStart) lower <|>
    Text.after? (Text.lower legacyStart) lower

/-- The options that the variables stand for; those that are no knobs are left out. -/
def options (h : Host) (vars : Variables) : Variables :=
  vars.filterMap fun (k, v) => (knobOf h k).map fun knob => (optionStart ++ knob, v)

/-- The options as arguments. -/
def optionArgs (h : Host) (vars : Variables) : List Text :=
  (options h vars).map fun (o, v) => o ++ "=" ++ v

/-- The value of the item for an option: the option, an equals sign and the value in quotes. -/
def itemValue (option value : Text) : Text := option ++ "=\"" ++ value ++ "\""

/-- The item for an option. -/
def item (option value : Text) : Text :=
  "\t\t<IlcArg Include=\"" ++ Markup.escape (itemValue option value) ++ "\" />\n"

/-- The first lines of a properties file, in which every build gets the program's symbol. -/
def propertiesHead : Text :=
  "<?xml version=\"1.0\" encoding=\"utf-8\"?>\n<Project>\n\t<PropertyGroup>\n" ++
    "\t\t<DefineConstants>$(DefineConstants);JITSCOPE</DefineConstants>\n\t</PropertyGroup>\n"

/-- The last line of a properties file. -/
def propertiesFoot : Text := "</Project>\n"

/-- The properties file of a build. -/
def buildProperties : Text := propertiesHead ++ propertiesFoot

/-- The properties file that hands the variables to the compiler for native programs. -/
def nativeProperties (h : Host) (vars : Variables) : Text :=
  propertiesHead ++ "\t<ItemGroup>\n" ++ (options h vars).flatMap (fun (o, v) => item o v) ++
    "\t</ItemGroup>\n" ++ propertiesFoot

end Options

end Knobs

end JitInspect
