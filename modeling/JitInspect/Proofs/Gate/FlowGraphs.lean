import JitInspect.Proofs.Gate.Plans
import JitInspect.Proofs.Symbol.Selection

/-!
# The gates on flow graphs

Flow graphs need a dump of one member, a program that draws, and a generator that runs with the program.
Each fault is known by the gate that gives it (`GateFault.isOfGraphs`), so whether a run with flow graphs
gets past these gates can be read off its fault, if it has one, whatever the gates behind them say.

That a single member is asked for is judged by the filter for the loader, which lets every member pass
not only for a type, but for constructors and local functions too, and for a member with a star for its name
(`Symbol.loaderFilter_ne`). So these are turned away as types are (`Gate.check_passes_graphs`).
-/

namespace JitInspect

/-- Whether the fault is one of the gates on flow graphs, or of those on compilers ahead of time, which flow
graphs come to as well. -/
def GateFault.isOfGraphs : GateFault → Bool
  | flowGraphsWithoutDump | flowGraphsOfType | noGraphProgram _ => true
  | pgoAot | appAot | tieredAot | flowGraphsAot => true
  | unknownSymbol | genericMethod | appWithPublish | crossgenWithoutRuntime => false
  | noNativeTools .. | noCheckedBuild .. | noPack .. | unknownHome | path _ => false

/-- The symbol is a method or a property, and is not named by the star that stands for every member. -/
def Symbol.HasOwnFilter (s : Symbol) : Prop :=
  (s.kind = .method ∨ s.kind = .property) ∧ s.name ≠ everyMember

/-- The filter of the loader stands for one member only if the symbol has a filter of its own. -/
theorem Symbol.loaderFilter_ne {s : Symbol} :
    loaderFilter s.kind s.name ≠ everyMember ↔ s.HasOwnFilter := by
  unfold loaderFilter HasOwnFilter
  cases s.kind <;> simp

theorem Disk.holdsFile_nil (d : Disk) : d.holdsFile [] = false := rfl

namespace Gate

variable {α β : Type} {h : Host} {d : Disk} {s : Symbol} {info : SymbolInfo} {o : Settings}
  {route : Route} {b : Bool} {f : GateFault}

/-! ### Faults and their gates -/

section Faults

/-- All faults of a gate are among those of flow graphs, or none is. -/
def Faults (b : Bool) (gate : Except GateFault α) : Prop := ∀ f, gate = .error f → f.isOfGraphs = b

/-- A gate that is passed has no fault. -/
theorem Faults.ok (a : α) : Faults b (.ok a) := fun _ h => nomatch h

/-- A gate that rejects has its fault. -/
theorem Faults.error (h : f.isOfGraphs = b) : Faults b (.error f : Except GateFault α) :=
  fun _ heq => Except.error.inj heq ▸ h

/-- A gate with a condition has one fault at most. -/
theorem Faults.rejectWhen {condition : Bool} (h : f.isOfGraphs = b) :
    Faults b (Gate.rejectWhen condition f) := by
  cases condition
  · exact .ok ()
  · exact .error h

/-- The faults of gates behind one another. -/
theorem Faults.bind {gate : Except GateFault α} {next : α → Except GateFault β} (hgate : Faults b gate)
    (hnext : ∀ a, Faults b (next a)) : Faults b (gate >>= next) := by
  intro f hf
  rcases bind_eq_error.1 hf with hf | ⟨a, -, hf⟩
  · exact hgate f hf
  · exact hnext a f hf

/-- A path that cannot be followed is not a matter of flow graphs. -/
theorem Faults.path (x : Except FileFault α) : Faults false (x.mapError GateFault.path) := by
  cases x with
  | error e => exact .error rfl
  | ok a => exact .ok a

/-- The gates on flow graphs have faults of graphs. -/
theorem faults_flowGraphs (d : Disk) (info : SymbolInfo) (o : Settings) :
    Faults true (flowGraphs d info o) := by
  unfold flowGraphs
  split
  · exact .ok ()
  · exact .bind (.rejectWhen rfl) fun _ => .bind (.rejectWhen rfl) fun _ => .rejectWhen rfl

theorem faults_aot (o : Settings) : Faults true (aot o) := by
  unfold aot
  split
  · exact .ok ()
  · exact .bind (.rejectWhen rfl) fun _ => .bind (.rejectWhen rfl) fun _ =>
      .bind (.rejectWhen rfl) fun _ => .rejectWhen rfl

/-- The layout of the runtime has other faults. -/
theorem faults_layout (h : Host) (d : Disk) (o : Settings) (route : Route) :
    Faults false (layout h d o route) := by
  unfold layout
  refine .bind ?_ fun root => ?_
  · unfold expandHome
    split
    · simp only
      split
      · exact .ok _
      · exact .error rfl
    · exact .ok _
  · simp only
    split
    · refine .bind (.path _) fun found => ?_
      cases found with
      | none => exact .error rfl
      | some tools => exact .ok _
    · refine .bind (.path _) fun found => ?_
      cases found with
      | none => exact .error rfl
      | some checked =>
        simp only
        split
        · exact .ok _
        · refine .bind (.path _) fun found => ?_
          cases found with
          | none => exact .error rfl
          | some pack => exact .ok _

end Faults

/-! ### Getting past the gates -/

section Passing

/-- The gates behind those on flow graphs. -/
def behind (h : Host) (d : Disk) (o : Settings) (route : Route) : Except GateFault RuntimeLayout := do
  rejectWhen (o.compiler = .crossgen && !o.customRuntime) .crossgenWithoutRuntime
  if !o.customRuntime || route = .nativePublish then pure {}
  else layout h d o route

theorem faults_behind (h : Host) (d : Disk) (o : Settings) (route : Route) :
    Faults false (behind h d o route) := by
  unfold behind
  refine .bind (.rejectWhen rfl) fun _ => ?_
  split
  · exact .ok _
  · exact faults_layout h d o route

/-- Behind the gates on the symbol. -/
theorem check_eq (hearlier : symbol s o = .ok ()) :
    check h d (some s) (some info) o route =
      flowGraphs d info o >>= fun _ => aot o >>= fun _ => behind h d o route := by
  unfold check
  simp only
  rw [hearlier]
  rfl

/-- When the gates on flow graphs are passed. -/
theorem flowGraphs_eq_ok_iff (hgraphs : o.flowGraphs = true) : flowGraphs d info o = .ok () ↔
    o.dump = true ∧ info.methodName ≠ Symbol.everyMember ∧
      d.holdsFile (Text.strip o.dotPath) = true := by
  have hprogram : ((Text.strip o.dotPath).isEmpty || !d.holdsFile (Text.strip o.dotPath)) = false ↔
      d.holdsFile (Text.strip o.dotPath) = true := by
    rw [Bool.or_eq_false_iff, Bool.not_eq_false', and_iff_right_iff_imp]
    intro hfile
    rw [Bool.eq_false_iff, ne_eq, List.isEmpty_iff]
    intro hempty
    rw [hempty, Disk.holdsFile_nil] at hfile
    cases hfile
  unfold flowGraphs
  rw [if_neg (by simp [hgraphs]), rejectWhen_bind_eq_ok, rejectWhen_bind_eq_ok, rejectWhen_eq_ok,
    hprogram, Bool.not_eq_false', decide_eq_false_iff_not]

/-- With flow graphs no compiler ahead of time gets past its gates. -/
theorem aot_eq_ok_iff_of_flowGraphs (hgraphs : o.flowGraphs = true) :
    aot o = .ok () ↔ o.compiler = .jit := by
  rw [aot_eq_ok_iff, hgraphs]
  simp [Settings.isAot]

/-- The gates on flow graphs and on compilers ahead of time are passed if no fault is theirs. -/
theorem forall_check_error_iff (hearlier : symbol s o = .ok ()) :
    (∀ f, check h d (some s) (some info) o route = .error f → f.isOfGraphs = false) ↔
      flowGraphs d info o = .ok () ∧ aot o = .ok () := by
  rw [check_eq hearlier]
  constructor
  · intro hnone
    cases hfirst : flowGraphs d info o with
    | error f =>
      have hfalse := hnone f (bind_eq_error.2 (Or.inl hfirst))
      rw [faults_flowGraphs d info o f hfirst] at hfalse
      cases hfalse
    | ok _ =>
      refine ⟨rfl, ?_⟩
      cases hsecond : aot o with
      | error f =>
        have hfalse := hnone f (bind_eq_error.2 (Or.inr ⟨(), hfirst, bind_eq_error.2 (Or.inl hsecond)⟩))
        rw [faults_aot o f hsecond] at hfalse
        cases hfalse
      | ok _ => rfl
  · rintro ⟨hfirst, hsecond⟩
    rw [hfirst, hsecond]
    exact faults_behind h d o route

/-- A run with flow graphs gets past the gates on them if and only if it asks for a dump of a method or
property by its name, the program that draws is there and the code is generated while the program runs, and
then the outcome is that without flow graphs. Other members are turned away as types are. -/
theorem check_passes_graphs (hinfo : s.info = .ok info) (hgraphs : o.flowGraphs = true)
    (hearlier : symbol s o = .ok ()) :
    ((∀ f, check h d (some s) (some info) o route = .error f → f.isOfGraphs = false) ↔
      o.dump = true ∧ s.HasOwnFilter ∧ d.holdsFile (Text.strip o.dotPath) = true ∧
        o.compiler = .jit) ∧
    ((∀ f, check h d (some s) (some info) o route = .error f → f.isOfGraphs = false) →
      check h d (some s) (some info) o route =
        check h d (some s) (some info) { o with flowGraphs := false } route) ∧
    (o.dump = true → ¬s.HasOwnFilter →
      check h d (some s) (some info) o route = .error .flowGraphsOfType) := by
  have hfilter : info.methodName ≠ Symbol.everyMember ↔ s.HasOwnFilter := by
    obtain ⟨pattern, -, -, rfl⟩ := Symbol.info_eq_ok_iff.1 hinfo
    exact Symbol.loaderFilter_ne
  rw [forall_check_error_iff hearlier]
  refine ⟨?_, ?_, fun hdump hother => ?_⟩
  · rw [flowGraphs_eq_ok_iff hgraphs, aot_eq_ok_iff_of_flowGraphs hgraphs, hfilter, and_assoc, and_assoc]
  · rintro ⟨hfirst, hsecond⟩
    have hwithout : aot { o with flowGraphs := false } = .ok () := by
      refine aot_eq_ok_iff.2 fun hisAot => ?_
      obtain ⟨hpgo, happ, htiered, -⟩ := aot_eq_ok_iff.1 hsecond hisAot
      exact ⟨hpgo, happ, htiered, rfl⟩
    rw [check_eq hearlier, check_eq (o := { o with flowGraphs := false }) hearlier, hfirst, hsecond,
      hwithout]
    rfl
  · have hevery : info.methodName = Symbol.everyMember := not_ne_iff.1 (mt hfilter.1 hother)
    have hfault : flowGraphs d info o = .error .flowGraphsOfType := by
      unfold flowGraphs
      rw [if_neg (by simp [hgraphs]), hdump, hevery]
      rfl
    rw [check_eq hearlier, hfault]
    rfl

/-- A disk with a program that draws. -/
def drawingDisk : Disk := { tree := FileTree.empty.put ["dot"] (.file []), cwd := [] }

/-- Options for flow graphs that the program draws. -/
def drawingSettings : Settings := { flowGraphs := true, dump := true, dotPath := "/dot " }

/-- A dump of one method passes the gates on flow graphs. -/
theorem check_passes_graphs_method :
    symbol Symbol.sample drawingSettings = .ok () ∧
      (∀ f, check {} drawingDisk (some Symbol.sample) Symbol.sample.info.toOption drawingSettings
        .dump = .error f → f.isOfGraphs = false) ∧
      check {} drawingDisk (some Symbol.sample) Symbol.sample.info.toOption drawingSettings .dump =
        check {} drawingDisk (some Symbol.sample) Symbol.sample.info.toOption
          { drawingSettings with flowGraphs := false } .dump := by
  have hinfo : Symbol.sample.info = .ok ⟨"Program:Square", "Program", "Square", ["Square"]⟩ := rfl
  have hearlier : symbol Symbol.sample drawingSettings = .ok () := rfl
  have hpasses : ∀ f, check {} drawingDisk (some Symbol.sample) Symbol.sample.info.toOption
      drawingSettings .dump = .error f → f.isOfGraphs = false :=
    (check_passes_graphs hinfo rfl hearlier).1.2 ⟨rfl, ⟨Or.inl rfl, by decide⟩, rfl, rfl⟩
  exact ⟨hearlier, hpasses, (check_passes_graphs hinfo rfl hearlier).2.1 hpasses⟩

/-- A constructor of a program, which is one member and not a type. -/
def programConstructor : Symbol :=
  { kind := .constructor, typePath := ["Program"], name := "Program" }

/-- The constructor is turned away for being a type. -/
theorem check_rejects_constructor :
    programConstructor.info = .ok ⟨"Program:.ctor", "Program", "*", [".ctor"]⟩ ∧
      symbol programConstructor drawingSettings = .ok () ∧
      (drawingSettings.flowGraphs = true ∧ drawingSettings.dump = true ∧
        programConstructor.kind ≠ .type ∧
        drawingDisk.holdsFile (Text.strip drawingSettings.dotPath) = true ∧
        drawingSettings.compiler = .jit) ∧
      check {} drawingDisk (some programConstructor) programConstructor.info.toOption drawingSettings
        .dump = .error .flowGraphsOfType ∧
      GateFault.flowGraphsOfType.isOfGraphs = true :=
  ⟨rfl, rfl, ⟨rfl, rfl, by decide, rfl, rfl⟩, rfl, rfl⟩

end Passing

end Gate

end JitInspect
