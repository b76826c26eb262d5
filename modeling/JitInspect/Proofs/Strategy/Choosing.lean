import JitInspect.Proofs.Sequences
import JitInspect.Strategy.Basic

/-!
# How the options choose a strategy

The options say which listing is asked for, and they say which route is taken. Only the loader with the
stock generator has a route of its own for each listing; the others take any. All cases are
listed with what the options say in each of them (`Strategy.select_eq_ok_iff`).
-/

namespace JitInspect

/-- The route through the loader that is there for the listing. -/
def ListingKind.loaderRoute : ListingKind → Route
  | disasm => .disasm
  | dump => .dump
  | inlinees => .inlinees

namespace Strategy

variable {h : Host} {o : Settings} {strategy : Strategy}

/-- What the options say when they choose the strategy. -/
inductive Chosen (h : Host) (o : Settings) : Strategy → Prop
  | crossgen {args : List Text} (hcompiler : o.compiler = .crossgen)
      (hargs : splitArgs h o.crossgenArgs = .ok args) :
      Chosen h o ⟨.crossgen args, .ofSettings o⟩
  | localIlc {args : List Text} (hcompiler : o.compiler = .nativeAot)
      (hcustom : o.customRuntime = true) (hargs : splitArgs h o.ilcArgs = .ok args) :
      Chosen h o ⟨.localIlc o.ilcArgs, .ofSettings o⟩
  | nativePublish (hcompiler : o.compiler = .nativeAot) (hcustom : o.customRuntime = false) :
      Chosen h o ⟨.nativePublish, .ofSettings o⟩
  | runApp (hcompiler : o.compiler = .jit) (hrun : o.runApp = true) :
      Chosen h o ⟨.runApp (listedInstead o), .ofSettings o⟩
  | altJit (hcompiler : o.compiler = .jit) (hrun : o.runApp = false)
      (hother : o.usesAltJit = true) :
      Chosen h o ⟨.altJit (Text.strip o.customJit), .ofSettings o⟩
  | loader (hcompiler : o.compiler = .jit) (hrun : o.runApp = false)
      (hstock : o.usesAltJit = false) :
      Chosen h o ⟨(ListingKind.ofSettings o).loaderRoute, .ofSettings o⟩

/-- A strategy is selected when it is chosen in one of the listed ways. -/
theorem select_eq_ok_iff : select h o = .ok strategy ↔ Chosen h o strategy := by
  constructor
  · -- the settings are asked in the order in which the selection looks at them
    intro hselect
    unfold select at hselect
    simp only at hselect
    cases hcompiler : o.compiler with
    | crossgen =>
      simp only [hcompiler] at hselect
      obtain ⟨args, hargs, rfl⟩ := map_eq_ok.1 hselect
      exact .crossgen hcompiler hargs
    | nativeAot =>
      simp only [hcompiler] at hselect
      cases hcustom : o.customRuntime with
      | true =>
        rw [if_pos hcustom] at hselect
        obtain ⟨args, hargs, rfl⟩ := map_eq_ok.1 hselect
        exact .localIlc hcompiler hcustom hargs
      | false =>
        rw [if_neg (by simp [hcustom])] at hselect
        cases hselect
        exact .nativePublish hcompiler hcustom
    | jit =>
      simp only [hcompiler] at hselect
      cases hrun : o.runApp with
      | true =>
        rw [if_pos hrun] at hselect
        cases hselect
        exact .runApp hcompiler hrun
      | false =>
        rw [if_neg (by simp [hrun])] at hselect
        cases hother : o.usesAltJit with
        | true =>
          rw [if_pos hother] at hselect
          cases hselect
          exact .altJit hcompiler hrun hother
        | false =>
          rw [if_neg (by simp [hother])] at hselect
          have hloader := Chosen.loader (h := h) hcompiler hrun hother
          generalize ListingKind.ofSettings o = listing at hselect hloader
          cases listing <;> cases hselect <;> exact hloader
  · intro hchosen
    cases hchosen with
    | crossgen hcompiler hargs => simp only [select, hcompiler, hargs, Except.map]
    | localIlc hcompiler hcustom hargs =>
      simp only [select, hcompiler, hcustom, hargs, Except.map, if_true]
    | nativePublish hcompiler hcustom => simp [select, hcompiler, hcustom]
    | runApp hcompiler hrun => simp [select, hcompiler, hrun]
    | altJit hcompiler hrun hother => simp [select, hcompiler, hrun, hother]
    | loader hcompiler hrun hstock =>
      simp only [select, hcompiler, hrun, hstock, Bool.false_eq_true, if_false]
      cases ListingKind.ofSettings o <;> rfl

end Strategy

end JitInspect
