import JitInspect.Proofs.Strategy.Choosing
import JitInspect.Proofs.Strategy.Variables

/-!
# Listings in the variables

The generator prints a listing when the variable of its knob is set. A run sets the variable of the listing
that its options ask for. A run of the program itself may list something else in place of the symbol
(`overriding`), and that is set last, for the ordinary listing. So it takes the place of the symbol if the
ordinary listing is asked for, and otherwise is listed beside it (`environment_lists`).

The other variables of a run are none of listings, whatever the knobs begin with: they differ from these
in what stands behind the beginning, and the one without it ends with a capital letter.
-/

namespace JitInspect

theorem ListingKind.knob_injective : Function.Injective ListingKind.knob := by
  intro a b
  cases a <;> cases b <;> decide

namespace Knobs

variable {h : Host} {strategy : Strategy} {info : SymbolInfo} {o : Settings} {l : RuntimeLayout}
  {file : Option Text} {vars : Variables}

/-! ### Keys of listings -/

section Keys

/-- The key is that of a knob for a listing. -/
def isListing (h : Host) (key : Text) : Bool :=
  ListingKind.all.any fun k => h.defaults.knobStart ++ k.knob = key

/-- The variables for listings, in order. -/
def listings (h : Host) (vars : Variables) : Variables := vars.filter fun v => isListing h v.1

/-- A knob is one for listings by the name behind the common start. -/
theorem isListing_append (h : Host) (name : Text) :
    isListing h (h.defaults.knobStart ++ name) = ListingKind.all.any fun k => k.knob = name := by
  simp [isListing]

/-- The knob of a kind is one for listings. -/
theorem isListing_knob (h : Host) (k : ListingKind) :
    isListing h (h.defaults.knobStart ++ k.knob) = true := by
  rw [isListing_append]
  cases k <;> decide

/-- The variable for the core libraries is none. -/
theorem isListing_coreLibraries (h : Host) : isListing h coreLibraries = false := by
  have hend : ∀ k ∈ ListingKind.all, k.knob ≠ [] ∧ k.knob.getLast? ≠ coreLibraries.getLast? := by
    decide
  refine List.any_eq_false.2 fun k hk hkey => ?_
  obtain ⟨hne, hlast⟩ := hend k hk
  rw [decide_eq_true_iff] at hkey
  rw [← hkey, List.getLast?_append_of_ne_nil _ hne] at hlast
  exact hlast rfl

theorem listings_append (h : Host) (vars more : Variables) :
    listings h (vars ++ more) = listings h vars ++ listings h more :=
  List.filter_append ..

/-- Variables none of which is a listing knob have no listing knobs. -/
theorem listings_eq_nil (hnone : ∀ v ∈ vars, isListing h v.1 = false) : listings h vars = [] :=
  List.filter_eq_nil_iff.2 fun v hv => by simp [hnone v hv]

end Keys

/-! ### What a run sets -/

section Parts

variable {route : Route}

/-- The variables for another compiler hold no listing knob. -/
theorem listings_ofAltJit : listings h (ofAltJit h route info) = [] := by
  refine listings_eq_nil (forall_ofAltJit (P := fun key => isListing h key = false) ?_)
  simp only [isListing_append]
  decide

theorem listings_ofPack : listings h (ofPack o l) = [] :=
  listings_eq_nil
    (forall_ofPack (P := fun key => isListing h key = false) (isListing_coreLibraries h))

theorem listings_ofFlowGraphs : listings h (ofFlowGraphs h info file) = [] := by
  refine listings_eq_nil (forall_ofFlowGraphs (P := fun key => isListing h key = false) ?_)
  simp only [isListing_append]
  decide

/-- Those of a run of the program itself hold nothing else. -/
theorem listings_ofRunApp : listings h (ofRunApp h route) = ofRunApp h route :=
  List.filter_eq_self.2
    (forall_ofRunApp (P := fun key => isListing h key = true) (isListing_knob h .disasm))

/-- The listings that a run sets by itself: that of its strategy, and then that of its route. -/
theorem listings_base : listings h (base h strategy info o l file) =
    setAll [(h.defaults.knobStart ++ strategy.listing.knob, info.target)]
      (ofRunApp h strategy.route) := by
  have hfirst : listings h [(h.defaults.knobStart ++ strategy.listing.knob, info.target)] =
      [(h.defaults.knobStart ++ strategy.listing.knob, info.target)] :=
    List.filter_cons_of_pos (isListing_knob h strategy.listing)
  have hmiddle : listings h [(h.defaults.knobStart ++ "TieredPGO", flag o.pgo),
      (h.defaults.knobStart ++ "JitDisasmDiffable", flag o.diffable)] = [] := by
    refine listings_eq_nil ?_
    simp only [List.forall_mem_cons, isListing_append]
    exact ⟨by decide, by decide, List.forall_mem_nil _⟩
  have htiered : listings h [(h.defaults.knobStart ++ "TieredCompilation", flag o.tiered)] = [] := by
    refine listings_eq_nil (List.forall_mem_singleton.2 ?_)
    rw [isListing_append]
    decide
  rw [base, listings, filter_setAll]
  change setAll [] (listings h ([(h.defaults.knobStart ++ strategy.listing.knob, info.target)] ++
    ofAltJit h strategy.route info ++ [(h.defaults.knobStart ++ "TieredPGO", flag o.pgo),
      (h.defaults.knobStart ++ "JitDisasmDiffable", flag o.diffable)] ++ ofPack o l ++
    [(h.defaults.knobStart ++ "TieredCompilation", flag o.tiered)] ++ ofFlowGraphs h info file ++
    ofRunApp h strategy.route)) = _
  simp only [listings_append, hfirst, listings_ofAltJit, hmiddle, listings_ofPack, htiered,
    listings_ofFlowGraphs, listings_ofRunApp, List.append_nil]
  rfl

end Parts

/-! ### The listings of a run -/

section Environment

/-- What a run of the program itself lists in place of the symbol, if anything. -/
def overriding (o : Settings) : Option Text :=
  if o.compiler = .jit ∧ o.runApp = true then Strategy.listedInstead o else none

/-- They are the knob for the symbol that is listed instead, if there is one. -/
theorem ofRunApp_listedInstead (h : Host) (o : Settings) :
    ofRunApp h (.runApp (Strategy.listedInstead o)) =
      (Strategy.listedInstead o).toList.map fun t =>
        (h.defaults.knobStart ++ ListingKind.disasm.knob, t) := by
  unfold Strategy.listedInstead
  simp only
  split
  · rfl
  · next hne => simp only [ofRunApp, if_neg hne, Option.toList_some, List.map_singleton]

theorem ofRunApp_of_select (hselect : Strategy.select h o = .ok strategy) :
    ofRunApp h strategy.route =
      (overriding o).toList.map fun t => (h.defaults.knobStart ++ ListingKind.disasm.knob, t) := by
  cases Strategy.select_eq_ok_iff.1 hselect with
  | runApp hcompiler hrun =>
    rw [overriding, if_pos ⟨hcompiler, hrun⟩]
    exact ofRunApp_listedInstead h o
  | crossgen hcompiler => simp [overriding, hcompiler, ofRunApp]
  | localIlc hcompiler => simp [overriding, hcompiler, ofRunApp]
  | nativePublish hcompiler => simp [overriding, hcompiler, ofRunApp]
  | altJit _ hrun => simp [overriding, hrun, ofRunApp]
  | loader _ hrun =>
    generalize ListingKind.ofSettings o = listing
    cases listing <;> simp [overriding, hrun, ofRunApp, ListingKind.loaderRoute]

/-- Without variables of the user, the variables of a run ask for the listing of its strategy and no
other, with the symbol or what is listed in place of it, unless something is listed in its place and
the strategy's listing is not the ordinary one. Then it is asked for in that one as well. -/
theorem environment_lists (hselect : Strategy.select h o = .ok strategy) (hown : o.overrides = []) :
    (overriding o = none ∨ strategy.listing = .disasm →
      listings h (environment h strategy info o l file) =
        [(h.defaults.knobStart ++ strategy.listing.knob, (overriding o).getD info.target)]) ∧
    ∀ t, overriding o = some t → strategy.listing ≠ .disasm →
      listings h (environment h strategy info o l file) =
        [(h.defaults.knobStart ++ strategy.listing.knob, info.target),
          (h.defaults.knobStart ++ ListingKind.disasm.knob, t)] := by
  have hlistings : listings h (environment h strategy info o l file) =
      setAll [(h.defaults.knobStart ++ strategy.listing.knob, info.target)]
        ((overriding o).toList.map fun t => (h.defaults.knobStart ++ ListingKind.disasm.knob, t)) := by
    rw [environment, hown, ← ofRunApp_of_select hselect]
    exact listings_base
  rw [hlistings]
  constructor
  · cases hinstead : overriding o with
    | none => exact fun _ => rfl
    | some t =>
      intro hordinary
      rw [hordinary.resolve_left (Option.some_ne_none t)]
      exact if_pos rfl
  · intro t hinstead hother
    have hne : h.defaults.knobStart ++ strategy.listing.knob ≠
        h.defaults.knobStart ++ ListingKind.disasm.knob := fun heq =>
      hother (ListingKind.knob_injective (List.append_cancel_left heq))
    rw [hinstead]
    exact if_neg hne

/-- What is asked for with a method of a program. -/
def squareInfo : SymbolInfo := ⟨"Program:Square", "Program", "Square", ["Square"]⟩

/-- Options that run the program itself and list its main method in place of the symbol. -/
def listsMain : Settings := { runApp := true, listingOverride := some " Main " }

/-- In a run of the program the method that was asked for instead is listed. -/
theorem environment_lists_main :
    Strategy.select {} listsMain = .ok ⟨.runApp (some "Main"), .disasm⟩ ∧
      listings {} (environment {} ⟨.runApp (some "Main"), .disasm⟩ squareInfo listsMain {} none) =
        ([("DOTNET_JitDisasm", "Main")] : List (Text × Text)) := by
  have hselect : Strategy.select {} listsMain = .ok ⟨.runApp (some "Main"), .disasm⟩ := rfl
  exact ⟨hselect, (environment_lists hselect rfl).1 (Or.inr rfl)⟩

/-- Options for a dump that list the main method as well. -/
def dumpsAndLists : Settings := { listsMain with dump := true }

/-- The dump of the symbol is asked for, and the ordinary listing of the main method too. -/
theorem environment_lists_twice :
    Strategy.select {} dumpsAndLists = .ok ⟨.runApp (some "Main"), .dump⟩ ∧
      dumpsAndLists.overrides = [] ∧
      listings {} (environment {} ⟨.runApp (some "Main"), .dump⟩ squareInfo dumpsAndLists {} none) =
        ([("DOTNET_JitDump", "Program:Square"), ("DOTNET_JitDisasm", "Main")] :
          List (Text × Text)) :=
  ⟨rfl, rfl, by decide⟩

end Environment

end Knobs

end JitInspect
