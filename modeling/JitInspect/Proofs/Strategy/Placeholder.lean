import JitInspect.Proofs.Gate.Plans
import JitInspect.Proofs.Text.ShellWords
import Mathlib.Data.List.Forall2

/-!
# The root of the runtime in typed arguments

The arguments that are typed for the compiler of a local runtime are split twice: when the strategy is
chosen, to tell whether they can be split, and for the plan, when the root of the runtime has been put
in for its placeholder. If the root says nothing to a shell, both come to the same words, and in each
word of the plan the root stands for the placeholders as they were typed
(`Strategy.splitArgs_replace`). So the plan does not fail over these arguments, and they stand in it
word by word (`Strategy.plan_puts_in_root`).

A root with a space or a quote in it is split with the arguments. Then the plan has words that nobody
has typed, or there is no plan although the arguments were accepted (`Strategy.plan_splits_root`). By
POSIX rules no root will do but one that says nothing to a shell (`Strategy.userArgs_rootPlaceholder`).
-/

namespace JitInspect

open ShellWords (Inert isDropped)
open Text (Marked StandsIn)

/-- The second text is the first one with occurrences of the pattern replaced. -/
def Text.Expands (pat new t t' : Text) : Prop :=
  ∃ m : Marked, m.fill pat = t ∧ m.fill new = t'

namespace ShellWords

variable {rules : Rules} {w : Text}

/-- A text that says nothing to a shell has no character that separates words. -/
theorem Inert.disjoint {separators : Text} (h : Inert rules w)
    (hseparators : separators.all isSeparator = true) : List.Disjoint w separators := by
  intro c hw hc
  have hordinary := h.ordinary c hw
  simp [isOrdinary, List.all_eq_true.1 hseparators c hc] at hordinary

end ShellWords

namespace Strategy

variable {h : Host} {l : RuntimeLayout} {pat new typed : Text} {words : List Text}
  {rules : ShellWords.Rules}

/-! ### Splitting before and behind a replacement -/

section Splitting

/-- Line breaks are taken out of typed arguments before or behind the replacement of a pattern. -/
theorem onOneLine_replace (hpat : Inert rules pat) (hnew : Inert rules new) (t : Text) :
    onOneLine (Text.replace pat new t) = Text.replace pat new (onOneLine t) := by
  have hcomm : ∀ {lineBreak : Text}, lineBreak ≠ [] →
      lineBreak.all ShellWords.isSeparator = true → ∀ t,
      Text.replace lineBreak " " (Text.replace pat new t) =
        Text.replace pat new (Text.replace lineBreak " " t) := by
    intro lineBreak hne hseparators t
    exact Text.replace_comm hpat.ne_nil hne hnew.ne_nil (by decide) (hpat.disjoint hseparators)
      (List.disjoint_comm.1 (hnew.disjoint hseparators)) (hpat.disjoint (by decide)) t
  unfold onOneLine
  rw [hcomm (by decide) (by decide), hcomm (by decide) (by decide)]

/-- Arguments are split when their text is. -/
theorem splitArgs_eq_ok : splitArgs h typed = .ok words ↔
    ShellWords.split (wordRules h) (onOneLine typed) = .ok words := mapError_eq_ok

/-- Arguments that can be split before a replacement can be split behind it, and give the same words
with the replacement made in them. It is made where the pattern was typed. This is everywhere if the
pattern does not come together only when quotes and backslashes are taken away. -/
theorem splitArgs_replace (hpat : Inert (wordRules h) pat) (hnew : Inert (wordRules h) new)
    (hsplit : splitArgs h typed = .ok words) :
    ∃ expanded, splitArgs h (Text.replace pat new typed) = .ok expanded ∧
      List.Forall₂ (Text.Expands pat new) words expanded ∧
      (StandsIn pat (isDropped (wordRules h)) (onOneLine typed) →
        expanded = words.map (Text.replace pat new)) := by
  have hdrop : ∀ c ∈ pat, isDropped (wordRules h) c = false := by
    intro c hc
    have hordinary := hpat.ordinary c hc
    simp only [ShellWords.isOrdinary, Bool.and_eq_true, Bool.not_eq_true'] at hordinary
    exact hordinary.2
  obtain ⟨m, hfill, hcomplete⟩ := Marked.exists_complete hpat.ne_nil (onOneLine typed)
  obtain ⟨r, hwords, hparts⟩ := ShellWords.split_fill (wordRules h) m
  rw [splitArgs_eq_ok, ← hfill, hwords pat hpat] at hsplit
  cases r with
  | error f => cases hsplit
  | ok ms =>
    obtain rfl := Except.ok.inj hsplit
    refine ⟨ms.map (Marked.fill new), ?_, ?_, fun hstands => ?_⟩
    · rw [splitArgs_eq_ok, onOneLine_replace hpat hnew, ← hfill,
        Marked.replace_fill hpat.ne_nil hcomplete, hwords new hnew]
      rfl
    · rw [List.forall₂_map_left_iff, List.forall₂_map_right_iff, List.forall₂_same]
      exact fun m' _ => ⟨m', rfl, rfl⟩
    · have hkept := hcomplete.kept hpat.ne_nil hdrop (hfill.symm ▸ hstands)
      rw [List.map_map]
      refine List.map_congr_left fun m' hm' => ?_
      have hpart := Marked.complete_of_kept hpat.ne_nil hdrop
        (hkept.of_part (hparts ms rfl m' hm'))
      exact (Marked.replace_fill hpat.ne_nil hpart new).symm

end Splitting

/-! ### Plans with the root -/

section Plans

open Plan (rootPlaceholder writtenRoot)

/-- The placeholder itself is inert. -/
theorem inert_rootPlaceholder (rules : ShellWords.Rules) : Inert rules rootPlaceholder := by
  cases rules <;> decide

/-- By POSIX rules the condition on the root cannot be weakened: what comes into the plan for the
placeholder alone is the root only if the root says nothing to a shell. -/
theorem userArgs_rootPlaceholder (hrules : wordRules h = .posix)
    (hline : onOneLine (writtenRoot l) = writtenRoot l) :
    Plan.userArgs h l rootPlaceholder = .ok [writtenRoot l] ↔ Inert .posix (writtenRoot l) := by
  have hreplaced : Text.replace rootPlaceholder (writtenRoot l) rootPlaceholder = writtenRoot l := by
    have hpattern := Text.replace_pattern (inert_rootPlaceholder .posix).ne_nil (writtenRoot l) []
    rw [List.append_nil] at hpattern
    exact hpattern.trans (List.append_nil _)
  have htyped : (Text.strip rootPlaceholder).isEmpty = false := by decide +kernel
  rw [Plan.userArgs, htyped, if_neg Bool.false_ne_true, hreplaced, mapError_eq_ok, splitArgs_eq_ok,
    hrules, hline, ShellWords.split_posix_eq_self]

/-- The words of the plan. Blank arguments are meant to have none. -/
theorem userArgs_eq (hroot : Inert (wordRules h) (writtenRoot l))
    (hblank : Text.strip typed = [] → words = []) (hsplit : splitArgs h typed = .ok words) :
    ∃ expanded, Plan.userArgs h l typed = .ok expanded ∧
      List.Forall₂ (Text.Expands rootPlaceholder (writtenRoot l)) words expanded ∧
      (StandsIn rootPlaceholder (isDropped (wordRules h)) (onOneLine typed) →
        expanded = words.map (Text.replace rootPlaceholder (writtenRoot l))) := by
  unfold Plan.userArgs
  cases hstrip : Text.strip typed with
  | nil =>
    obtain rfl := hblank hstrip
    exact ⟨[], rfl, .nil, fun _ => rfl⟩
  | cons c cs =>
    obtain ⟨expanded, hexpanded, hwords, hreplaced⟩ :=
      splitArgs_replace (inert_rootPlaceholder _) hroot hsplit
    refine ⟨expanded, ?_, hwords, hreplaced⟩
    rw [hexpanded]
    rfl

/-- Arguments for the compiler of a local runtime that are accepted stand word by word in the plan, with
the root of the runtime in place of its placeholders. The plan fails only if the compiler is missing. -/
theorem plan_puts_in_root {i : PlanInputs} {s : Strategy} (hselect : select h i.settings = .ok s)
    (hcompiler : i.settings.compiler = .nativeAot) (hcustom : i.settings.customRuntime = true)
    (hroot : Inert (wordRules h) (writtenRoot i.layout))
    (hblank : Text.strip i.settings.ilcArgs = [] → splitArgs h i.settings.ilcArgs = .ok []) :
    ∃ words expanded, splitArgs h i.settings.ilcArgs = .ok words ∧
      List.Forall₂ (Text.Expands rootPlaceholder (writtenRoot i.layout)) words expanded ∧
      (StandsIn rootPlaceholder (isDropped (wordRules h)) (onOneLine i.settings.ilcArgs) →
        expanded = words.map (Text.replace rootPlaceholder (writtenRoot i.layout))) ∧
      (∀ program, i.layout.ilc h = .ok program → ∃ p, s.plan h i = .ok p ∧
        p.args = [Plan.assembly i] ++ Knobs.optionArgs h i.environment ++ expanded ++
          (if i.settings.publish then ["-r".toList, Plan.assembliesIn i.project.output] else [])) ∧
      ∀ part, i.layout.ilc h = .error part → s.plan h i = .error (.missing part) := by
  simp only [select, hcompiler, hcustom, if_true] at hselect
  cases hsplit : splitArgs h i.settings.ilcArgs with
  | error f =>
    rw [hsplit] at hselect
    cases hselect
  | ok words =>
    rw [hsplit] at hselect
    obtain rfl := Except.ok.inj hselect
    have hnone : Text.strip i.settings.ilcArgs = [] → words = [] := fun hstrip =>
      Except.ok.inj (hsplit.symm.trans (hblank hstrip))
    obtain ⟨expanded, hargs, hwords, hreplaced⟩ := userArgs_eq hroot hnone hsplit
    refine ⟨words, expanded, rfl, hwords, hreplaced, fun program hprogram => ?_, fun part hpart => ?_⟩
    · simp only [plan, Plan.localIlc, hargs, hprogram]
      exact ⟨_, rfl, rfl⟩
    · simp only [plan, Plan.localIlc, hargs, hpart]
      rfl

/-- What a plan for the compiler of a local runtime is made from: the name of the folder that the
runtime is in, and the arguments as typed. -/
def ilcSample (name typed : Text) : PlanInputs :=
  PlanInputs.sample { compiler := .nativeAot, customRuntime := true, ilcArgs := typed }
    { root := some ⟨.root, [name]⟩, nativeTools := some ⟨.root, [name, "aot"]⟩ } []

/-- The root is put in for placeholders inside and outside of quotes. -/
theorem plan_puts_in_root_of_two :
    let i := ilcSample "rt" "-r:%DOTNET_REPO%/refs '%DOTNET_REPO%/a b'"
    let s : Strategy := ⟨.localIlc i.settings.ilcArgs, .disasm⟩
    select {} i.settings = .ok s ∧ Inert .posix (writtenRoot i.layout) ∧
      StandsIn rootPlaceholder (isDropped .posix) (onOneLine i.settings.ilcArgs) ∧
      ∃ p, s.plan {} i = .ok p ∧ p.args =
        ["App.dll".toList] ++ Knobs.optionArgs {} i.environment ++
          ["-r:/rt/refs".toList, "/rt/a b".toList] := by
  intro i s
  have hselect : select {} i.settings = .ok s := by decide +kernel
  have hroot : Inert .posix (writtenRoot i.layout) := by decide +kernel
  have hstands : StandsIn rootPlaceholder (isDropped .posix) (onOneLine i.settings.ilcArgs) := by
    decide +kernel
  have htyped : splitArgs {} i.settings.ilcArgs =
      .ok ["-r:%DOTNET_REPO%/refs".toList, "%DOTNET_REPO%/a b".toList] := by
    decide +kernel
  obtain ⟨words, expanded, hwords, -, hreplaced, hplan, -⟩ :=
    plan_puts_in_root hselect rfl rfl hroot fun hblank => absurd hblank (by decide +kernel)
  obtain rfl := Except.ok.inj (htyped.symm.trans hwords)
  obtain ⟨p, hp, hargs⟩ := hplan _ rfl
  refine ⟨hselect, hroot, hstands, p, hp, ?_⟩
  rw [hargs, hreplaced hstands]
  decide +kernel

/-- A space in the root makes two words of one that was typed. An apostrophe in it makes the plan fail
over arguments that were accepted. -/
theorem plan_splits_root :
    let typed : Text := "-r:%DOTNET_REPO%/refs"
    let s : Strategy := ⟨.localIlc typed, .disasm⟩
    select {} (ilcSample "my rt" typed).settings = .ok s ∧ splitArgs {} typed = .ok [typed] ∧
      (s.plan {} (ilcSample "my rt" typed)).map (·.args) =
        .ok (["App.dll".toList] ++ Knobs.optionArgs {} [] ++
          ["-r:/my".toList, "rt/refs".toList]) ∧
      (∀ expanded, List.Forall₂ (Text.Expands rootPlaceholder "/my rt") [typed] expanded →
        (s.plan {} (ilcSample "my rt" typed)).map (·.args) ≠
          .ok (["App.dll".toList] ++ Knobs.optionArgs {} [] ++ expanded)) ∧
      s.plan {} (ilcSample "it's" typed) = .error (.arguments ⟨.openQuote⟩) := by
  intro typed s
  have hargs : (s.plan {} (ilcSample "my rt" typed)).map (·.args) =
      .ok (["App.dll".toList] ++ Knobs.optionArgs {} [] ++
        ["-r:/my".toList, "rt/refs".toList]) := by
    decide +kernel
  refine ⟨by decide +kernel, by decide +kernel, hargs, fun expanded hexpanded heq => ?_,
    by decide +kernel⟩
  have hlength := hexpanded.length_eq
  have hsame := List.append_cancel_left (Except.ok.inj (hargs.symm.trans heq))
  rw [← hsame] at hlength
  cases hlength

end Plans

end Strategy

end JitInspect
