import JitInspect.RuntimeLayout
import JitInspect.Strategy.Basic

/-!
# Gates

Before anything is built the gates reject what cannot work: a symbol that is not known, options that
contradict each other, and a local runtime that is not there. They are tried in a fixed order, and
the first that fails gives the message. A run that passes gets the layout of the local runtime, as
far as it needs it.
-/

namespace JitInspect

/-- Why a run is turned away. -/
inductive GateFault where
  | unknownSymbol
  | genericMethod
  | appWithPublish
  | flowGraphsWithoutDump
  | flowGraphsOfType
  | noGraphProgram (path : Text)
  | pgoAot
  | appAot
  | tieredAot
  | flowGraphsAot
  | crossgenWithoutRuntime
  | noNativeTools (arch script expected : Text)
  | noCheckedBuild (arch script expected : Text)
  | noPack (arch script expected : Text)
  /-- The home of the user named in the path of the runtime is not known. -/
  | unknownHome
  | path (f : FileFault)
  deriving DecidableEq, Repr

namespace GateFault

/-- The beginning of the message for a local runtime that is not built. -/
def notBuilt (arch script targets expected : Text) : Text :=
  "Path to a local dotnet/runtime repository is either not set or it's not built for " ++ arch ++
    " arch yet (please clone it and build it in `Checked` mode, e.g.:\n\n" ++ script ++ targets ++
    "\n\nExpected: " ++ expected

/-- What is said of the fault. -/
def message : GateFault → Text
  | unknownSymbol => "Symbol is not recognized, put cursor on a function/class name."
  | genericMethod =>
    "Generic methods are only supported in 'Run' mode.\nEnable run_app_mode and call the method with concrete type arguments."
  | appWithPublish => "'Run' mode is not compatible with 'dotnet publish' reload."
  | flowGraphsWithoutDump => "Either disable flowgraphs or enable JitDump."
  | flowGraphsOfType => "Flowgraph for classes (all methods) is not supported yet."
  | noGraphProgram p =>
    "Graphviz is not installed or the path to 'dot' is invalid: '" ++ p ++
      "'.\nInstall Graphviz (https://graphviz.org/download/) and set graphviz_dot_path (or JITSCOPE_GRAPHVIZ_DOT)."
  | pgoAot => "PGO has no effect on R2R'd/NativeAOT code."
  | appAot => "Run mode is not supported for crossgen/NativeAOT."
  | tieredAot => "TieredCompilation is not supported for crossgen/NativeAOT."
  | flowGraphsAot => "Flowgraphs are not tested with crossgen/NativeAOT yet."
  | crossgenWithoutRuntime =>
    "Crossgen2 mode requires a locally built dotnet/runtime (use_custom_runtime)."
  | noNativeTools arch script expected =>
    notBuilt arch script (" Clr.AllJits+clr.aot -a " ++ arch ++ " -c Checked") expected
  | noCheckedBuild arch script expected =>
    notBuilt arch script (" Clr+Libs -c Release -rc Checked -a " ++ arch) expected
  | noPack arch script expected =>
    "Please, build a runtime-pack in your local repo:\n\nRun '" ++ script ++
      " Clr+Libs -c Release -rc Checked -a " ++ arch ++ "' in the repo root.\nExpected: " ++
      expected
  | unknownHome => "Could not determine home directory."
  | path f => f.message

end GateFault

namespace Gate

/-- Rejects with the fault when the condition holds. -/
def rejectWhen (condition : Bool) (f : GateFault) : Except GateFault Unit :=
  if condition then .error f else .ok ()

/-- The gates on the symbol. -/
def symbol (s : Symbol) (o : Settings) : Except GateFault Unit := do
  rejectWhen (s.genericMethod && !o.runApp) .genericMethod
  rejectWhen (o.runApp && o.publish) .appWithPublish

/-- The gates on flow graphs. -/
def flowGraphs (d : Disk) (info : SymbolInfo) (o : Settings) : Except GateFault Unit :=
  if !o.flowGraphs then .ok ()
  else do
    rejectWhen (!o.dump) .flowGraphsWithoutDump
    rejectWhen (info.methodName = Symbol.everyMember) .flowGraphsOfType
    let program := Text.strip o.dotPath
    rejectWhen (program.isEmpty || !d.holdsFile program) (.noGraphProgram program)

/-- The gates on compilers ahead of time. -/
def aot (o : Settings) : Except GateFault Unit :=
  if !o.isAot then .ok ()
  else do
    rejectWhen o.pgo .pgoAot
    rejectWhen o.runApp .appAot
    rejectWhen o.tiered .tieredAot
    rejectWhen o.flowGraphs .flowGraphsAot

/-- The path with the home of the user that it begins with, if it begins with a tilde. -/
def expandHome (h : Host) (p : Path) : Except GateFault Path :=
  match p.anchor, p.parts with
  | .here, ('~' :: user) :: rest =>
    let home? := if user.isEmpty then some h.home else h.users.lookup user
    match home? with
    | some home => .ok (Path.ofText home ++ ⟨.here, rest⟩)
    | none => .error .unknownHome
  | _, _ => .ok p

/-- The layout of the local runtime, as far as the route needs it. -/
def layout (h : Host) (d : Disk) (o : Settings) (route : Route) :
    Except GateFault RuntimeLayout := do
  let root ← expandHome h (Path.ofText o.runtimePath)
  let script := RuntimeLayout.buildScript h
  let expected := (RuntimeLayout.checkedBuild h root o.arch).text
  match route with
  | .localIlc _ =>
    match ← (RuntimeLayout.findNativeTools h d root o.arch).mapError GateFault.path with
    | some tools => pure { root := some root, nativeTools := some tools }
    | none => throw (.noNativeTools o.arch script expected)
  | _ =>
    match ← (RuntimeLayout.findChecked h d root o.arch).mapError GateFault.path with
    | none => throw (.noCheckedBuild o.arch script expected)
    | some checked =>
      if o.publish then pure { root := some root, checked := some checked }
      else
        match ← (RuntimeLayout.findPack h d root o.arch).mapError GateFault.path with
        | some pack => pure { root := some root, checked := some checked, pack := some pack }
        | none =>
          let pattern := (RuntimeLayout.packFolder root).child (RuntimeLayout.packPattern h o.arch)
          throw (.noPack o.arch script pattern.text)

/-- Tries all gates. -/
def check (h : Host) (d : Disk) (symbol? : Option Symbol) (info? : Option SymbolInfo) (o : Settings)
    (route : Route) : Except GateFault RuntimeLayout :=
  match symbol?, info? with
  | some s, some info => do
    symbol s o
    flowGraphs d info o
    aot o
    rejectWhen (o.compiler = .crossgen && !o.customRuntime) .crossgenWithoutRuntime
    if !o.customRuntime || route = .nativePublish then pure {}
    else layout h d o route
  | _, _ => .error .unknownSymbol

end Gate

end JitInspect
