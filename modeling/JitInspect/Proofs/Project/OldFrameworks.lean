import JitInspect.Proofs.Project.Selection
import JitInspect.Proofs.Text.Trim
import Mathlib.Data.Bool.AllAny

/-!
# Versions of the old frameworks

The moniker of an old framework holds a first digit and one or two behind it, which stand for a version
of two or of three numbers (`OldMoniker.version`). What is read are two numbers only: the digits behind
the first one are taken together (`OldMoniker.reading`, `OldMoniker.ofMoniker_text`).

So monikers with one digit behind the first are compared on another scale than those with two. The order
in which they are read is that of the versions but for two cases (`OldMoniker.ordered_iff`): a lower
version of three numbers overtakes a higher one of two (`OldMoniker.Overtakes`, 4.7.2 overtakes 4.8), and
a zero at the end makes the version another one (`OldMoniker.Pads`). What is chosen of release
configurations for old frameworks is a highest version among those that it does not overtake.
-/

namespace JitInspect

/-- The moniker of an old framework: the first digit and one or two behind it. -/
structure OldMoniker where
  major : Fin 10
  minor : Fin 10
  patch : Option (Fin 10) := none
  deriving DecidableEq, Repr

namespace OldMoniker

variable {m n : OldMoniker} {d : Char} {ds t : Text}

/-- The version that the moniker stands for. A number that is absent is zero. -/
def version (m : OldMoniker) : ℕ ×ₗ ℕ ×ₗ ℕ :=
  toLex (m.major.val, toLex (m.minor.val, (m.patch.map Fin.val).getD 0))

/-- The digits behind the first one. -/
def back (m : OldMoniker) : List (Fin 10) := m.minor :: m.patch.toList

/-- The moniker as it is written. -/
def text (m : OldMoniker) : Text :=
  "net".toList ++ (m.major :: m.back).map fun d => Nat.digitChar d.val

/-- The number that the digits behind the first one make together. -/
def together (m : OldMoniker) : ℕ := m.patch.elim m.minor.val fun p => 10 * m.minor.val + p.val

/-- The two numbers that are read. -/
def reading (m : OldMoniker) : Version := ⟨m.major.val, m.together⟩

/-! ### What is read -/

section Reading

/-- The character of a digit is read as the digit. -/
theorem decimalDigit?_digitChar (d : Fin 10) : Text.decimalDigit? (Nat.digitChar d.val) = some d.val := by
  revert d
  decide

theorem isDecimalDigit_digitChar (d : Fin 10) : Text.isDecimalDigit (Nat.digitChar d.val) = true := by
  rw [Text.isDecimalDigit, decimalDigit?_digitChar, Option.isSome_some]

theorem isBlank_digitChar (d : Fin 10) : Text.isBlank (Nat.digitChar d.val) = false := by
  revert d
  decide

/-- A text that begins with another letter does not begin with the word. -/
theorem afterWord?_of_ne {w c : Char} (h : w ≠ Version.foldLetter c) (ws cs : Text) :
    Version.afterWord? (w :: ws) (c :: cs) = none := by
  rw [Version.afterWord?, if_neg h]

/-- A digit begins neither of the words that may stand behind the name of the family. -/
theorem foldLetter_digitChar (d : Fin 10) : 'c' ≠ Version.foldLetter (Nat.digitChar d.val) ∧
    's' ≠ Version.foldLetter (Nat.digitChar d.val) := by
  revert d
  decide

/-- There is no whitespace around a moniker. -/
theorem strip_text (m : OldMoniker) : Text.strip m.text = m.text := by
  have hall : ∀ c ∈ m.text, Text.isBlank c = false := by
    refine List.forall_mem_append.2 ⟨List.all_iff_forall_prop.1 (by decide), fun c hc => ?_⟩
    obtain ⟨d, -, rfl⟩ := List.mem_map.1 hc
    exact isBlank_digitChar d
  exact Text.trim_of_forall hall

/-- Digits alone are no version with a point. -/
theorem dotted?_of_digits (h : ∀ c ∈ ds, Text.isDecimalDigit c = true) : Version.dotted? ds = none := by
  unfold Version.dotted?
  rw [List.dropWhile_eq_nil_iff.2 h]

/-- Of several digits the first one is the major version. -/
theorem packed?_of_digits (hd : Text.isDecimalDigit d = true) (hne : ds ≠ [])
    (h : ∀ c ∈ ds, Text.isDecimalDigit c = true) : Version.packed? (d :: ds) = some ([d], ds) := by
  have hall : ds.all Text.isDecimalDigit = true := List.all_eq_true.2 h
  unfold Version.packed?
  simp [hd, hne, hall]

/-- Digits and nothing else are taken as the first one and those behind it. -/
theorem digits?_text (m : OldMoniker) :
    Version.digits? m.text = some ([Nat.digitChar m.major.val], m.back.map fun d => Nat.digitChar d.val) := by
  have hdigits (ds : List (Fin 10)) :
      ∀ c ∈ ds.map fun d => Nat.digitChar d.val, Text.isDecimalDigit c = true := by
    intro c hc
    obtain ⟨d, -, rfl⟩ := List.mem_map.1 hc
    exact isDecimalDigit_digitChar d
  have hnet : Version.afterWord? "net" m.text =
      some ((m.major :: m.back).map fun d => Nat.digitChar d.val) := rfl
  have hfamily : Version.afterFamily? m.text =
      some ((m.major :: m.back).map fun d => Nat.digitChar d.val) := by
    obtain ⟨hc, hs⟩ := foldLetter_digitChar m.major
    have hcore : Version.afterWord? "coreapp"
        ((m.major :: m.back).map fun d => Nat.digitChar d.val) = none := afterWord?_of_ne hc "oreapp" _
    have hstandard : Version.afterWord? "standard"
        ((m.major :: m.back).map fun d => Nat.digitChar d.val) = none := afterWord?_of_ne hs "tandard" _
    unfold Version.afterFamily?
    rw [hnet, Option.map_some, hcore, hstandard]
    rfl
  have hback : m.back.map (fun d => Nat.digitChar d.val) ≠ [] := List.cons_ne_nil _ _
  unfold Version.digits?
  rw [strip_text, hfamily, hnet, Option.bind_some, Option.bind_some, dotted?_of_digits (hdigits _),
    List.map_cons, packed?_of_digits (isDecimalDigit_digitChar _) hback (hdigits _)]
  rfl

/-- The digits behind the first one are read as one number. -/
theorem ofDigitValues_back (m : OldMoniker) :
    Text.ofDigitValues (m.back.map Fin.val) = m.together := by
  obtain ⟨major, minor, patch⟩ := m
  cases patch <;> simp [back, together, Text.ofDigitValues]

/-- The number of digits that are not too many. -/
theorem numberOf_digits {ds : List (Fin 10)} (h : ds.length ≤ Text.maxNumeralDigits) :
    Version.numberOf (ds.map fun d => Nat.digitChar d.val) =
      .ok (Text.ofDigitValues (ds.map Fin.val)) := by
  have hvalues : (ds.map fun d => Nat.digitChar d.val).filterMap Text.decimalDigit? =
      ds.map Fin.val := by
    rw [List.filterMap_map, ← List.filterMap_eq_map]
    exact List.filterMap_congr fun d _ => decimalDigit?_digitChar d
  unfold Version.numberOf
  rw [List.length_map, if_pos h, hvalues]

/-- The moniker is read as two numbers, of which the second one has all the digits behind the first. -/
theorem ofMoniker_text (m : OldMoniker) : Version.ofMoniker m.text = .ok (some m.reading) := by
  have hback : m.back.length ≤ Text.maxNumeralDigits := by
    unfold back
    cases m.patch <;> exact Nat.le_of_ble_eq_true rfl
  have hmajor : Version.numberOf [Nat.digitChar m.major.val] = .ok m.major.val := by
    have hlength : [m.major].length ≤ Text.maxNumeralDigits := Nat.le_of_ble_eq_true rfl
    simpa [Text.ofDigitValues] using numberOf_digits hlength
  have hminor := numberOf_digits hback
  rw [ofDigitValues_back] at hminor
  rw [Version.ofMoniker_eq, digits?_text]
  exact bind_eq_ok.2 ⟨_, hmajor, bind_eq_ok.2 ⟨_, hminor, rfl⟩⟩

end Reading

/-! ### The order of what is read -/

section Ordering

/-- The moniker of a lower version, of three numbers, is read as one that is not lower. -/
def Overtakes (m n : OldMoniker) : Prop :=
  m.major = n.major ∧ n.patch = none ∧
    ∃ p ∈ m.patch, m.minor < n.minor ∧ n.minor.val ≤ 10 * m.minor.val + p.val

/-- The moniker is the other one with a zero behind it that makes what is read another version. -/
def Pads (m n : OldMoniker) : Prop :=
  m.major = n.major ∧ n.patch = none ∧ m.patch = some 0 ∧ m.minor = n.minor ∧ 0 < n.minor

/-- The versions that monikers stand for are compared digit by digit. -/
theorem version_le_iff : m.version ≤ n.version ↔ m.major < n.major ∨ m.major = n.major ∧
    (m.minor < n.minor ∨ m.minor = n.minor ∧
      (m.patch.map Fin.val).getD 0 ≤ (n.patch.map Fin.val).getD 0) := by
  unfold version
  rw [Prod.Lex.toLex_le_toLex, Prod.Lex.toLex_le_toLex]
  simp only [Fin.lt_def, Fin.ext_iff]

/-- They are read with all digits behind the first one taken together. -/
theorem atLeast_reading_iff : n.reading.atLeast m.reading = true ↔
    m.major < n.major ∨ m.major = n.major ∧ m.together ≤ n.together := by
  rw [Version.atLeast_iff, Version.pair, Version.pair, Prod.Lex.toLex_le_toLex]
  simp only [reading, Fin.lt_def, Fin.ext_iff]
  omega

/-- What overtakes is a lower version that is read as one that is not lower. -/
theorem overtakes_iff : m.Overtakes n ↔
    ¬n.version ≤ m.version ∧ m.reading.atLeast n.reading = true := by
  obtain ⟨major, minor, patch⟩ := m
  obtain ⟨major₁, minor₁, patch₁⟩ := n
  rw [version_le_iff, atLeast_reading_iff]
  unfold Overtakes together
  cases patch <;> cases patch₁ <;> simp <;> omega

/-- What pads is the same version, read as a higher one. -/
theorem pads_iff : m.Pads n ↔ m.version = n.version ∧ ¬n.reading.atLeast m.reading = true := by
  obtain ⟨major, minor, patch⟩ := m
  obtain ⟨major₁, minor₁, patch₁⟩ := n
  rw [le_antisymm_iff, version_le_iff, version_le_iff, atLeast_reading_iff]
  unfold Pads together
  cases patch <;> cases patch₁ <;> simp <;> omega

/-- Two monikers are read in the order of their versions. -/
def Ordered (m n : OldMoniker) : Prop :=
  (m.reading.atLeast n.reading = true ↔ n.version ≤ m.version) ∧
    (n.reading.atLeast m.reading = true ↔ m.version ≤ n.version)

/-- Monikers are read in the order of their versions unless one overtakes or pads the other. -/
theorem ordered_iff : m.Ordered n ↔
    ¬m.Overtakes n ∧ ¬n.Overtakes m ∧ ¬m.Pads n ∧ ¬n.Pads m := by
  rw [overtakes_iff, overtakes_iff, pads_iff, pads_iff, le_antisymm_iff, le_antisymm_iff]
  have htotal := Version.atLeast_total m.reading n.reading
  rw [Bool.or_eq_true] at htotal
  have htotal₁ := le_total m.version n.version
  unfold Ordered
  grind

end Ordering

end OldMoniker

namespace Project

variable {cs : List BuildConfiguration}

/-! ### What is chosen -/

section OldFrameworks

/-- A release configuration for an old framework. -/
structure IsForOld (c : BuildConfiguration) (m : OldMoniker) : Prop where
  isRelease : Text.lower c.name = "release".toList
  framework : c.framework = some m.text

/-- The version of a configuration for an old framework is read off its moniker. -/
theorem IsForOld.ofMoniker {c : BuildConfiguration} {m : OldMoniker} (h : IsForOld c m) :
    Version.ofMoniker (c.framework.getD []) = .ok (some m.reading) := by
  rw [h.framework]
  exact OldMoniker.ofMoniker_text m

/-- A release configuration for an old framework may be chosen. -/
theorem exists_admitted {c : BuildConfiguration} (hc : c ∈ cs) {n : OldMoniker} (hn : IsForOld c n) :
    ∃ b : Candidate, b.Admitted cs none ∧ b.version = n.reading := by
  obtain ⟨i, hi, rfl⟩ := List.getElem_of_mem hc
  refine ⟨⟨i, cs[i], n.reading⟩, ⟨⟨⟨List.getElem?_eq_getElem hi, _, hn.ofMoniker, rfl⟩, ?_⟩, ?_⟩, rfl⟩
  · exact fun _ => hn.isRelease
  · exact fun w hw => absurd hw (Option.not_mem_none w)

/-- Of release configurations for old frameworks one is chosen that is read as a highest version. -/
theorem exists_select_old (hne : cs ≠ []) (hold : ∀ c ∈ cs, ∃ m, IsForOld c m) :
    ∃ k m, select cs none = .ok (some k) ∧ k.configuration ∈ cs ∧ IsForOld k.configuration m ∧
      ∀ c ∈ cs, ∀ n, IsForOld c n → m.reading.atLeast n.reading = true := by
  have hreadable : ∀ c ∈ cs, Version.Readable (c.framework.getD []) := by
    intro c hc
    obtain ⟨m, hm⟩ := hold c hc
    exact Version.exists_ofMoniker_iff.1 ⟨_, hm.ofMoniker⟩
  have hpin : Version.Readable ((none : Option Text).getD []) := by decide
  obtain ⟨choice, hchoice⟩ := (exists_select_iff hne).2 ⟨hreadable, hpin⟩
  cases choice with
  | none => exact absurd (select_eq_none_iff.1 hchoice) hne
  | some k =>
    have hnone : Version.ofMoniker ((none : Option Text).getD []) = .ok none := rfl
    have hbest := (select_eq_some_iff hne hreadable hnone).1 hchoice
    have hstands := hbest.1.1.1
    have hk : k.configuration ∈ cs := List.mem_of_getElem? hstands.configuration
    obtain ⟨m, hm⟩ := hold _ hk
    obtain ⟨found, hfound, hversion⟩ := hstands.version
    obtain rfl := Except.ok.inj (hm.ofMoniker.symm.trans hfound)
    refine ⟨k, m, hchoice, hk, hm, fun c hc n hn => ?_⟩
    obtain ⟨b, hb, hbversion⟩ := exists_admitted hc hn
    have hprecedes := (hbest.2 b hb).1
    rw [hversion, hbversion] at hprecedes
    exact hprecedes

/-- Old monikers are read in the order of the versions that they stand for, except where one overtakes or
pads the other. Of release configurations for old frameworks one is chosen that is read as a highest
version, and it is for a highest version among those that it does not overtake. -/
theorem select_old_frameworks (cs : List BuildConfiguration) (hne : cs ≠ [])
    (hold : ∀ c ∈ cs, ∃ m, IsForOld c m) :
    (∀ m n : OldMoniker, Version.ofMoniker m.text = .ok (some m.reading) ∧
      (m.Ordered n ↔ ¬m.Overtakes n ∧ ¬n.Overtakes m ∧ ¬m.Pads n ∧ ¬n.Pads m)) ∧
    ∃ k m, select cs none = .ok (some k) ∧ k.configuration ∈ cs ∧ IsForOld k.configuration m ∧
      ∀ c ∈ cs, ∀ n, IsForOld c n → m.reading.atLeast n.reading = true ∧
        (n.version ≤ m.version ↔ ¬m.Overtakes n) := by
  refine ⟨fun m n => ⟨OldMoniker.ofMoniker_text m, OldMoniker.ordered_iff⟩, ?_⟩
  obtain ⟨k, m, hselect, hk, hm, hhighest⟩ := exists_select_old hne hold
  refine ⟨k, m, hselect, hk, hm, fun c hc n hn => ⟨hhighest c hc n hn, ?_⟩⟩
  rw [OldMoniker.overtakes_iff, and_iff_left (hhighest c hc n hn), not_not]

/-- Three release configurations for old frameworks, of which the last is the highest. -/
def oldSample : List BuildConfiguration :=
  [{ name := "Release", framework := some "net45" },
   { name := "RELEASE", framework := some "net35" },
   { name := "release", framework := some "net452" }]

/-- The sample's configurations are for old frameworks. -/
theorem isForOld_oldSample : ∀ c ∈ oldSample, ∃ m, IsForOld c m := by
  intro c hc
  rcases hc with _ | ⟨_, _ | ⟨_, _ | ⟨_, hc⟩⟩⟩
  · exact ⟨⟨4, 5, none⟩, by decide, rfl⟩
  · exact ⟨⟨3, 5, none⟩, by decide, rfl⟩
  · exact ⟨⟨4, 5, some 2⟩, by decide, rfl⟩
  · cases hc

/-- Among them one is selected that is read as highest. -/
theorem select_old_frameworks_sample : oldSample ≠ [] ∧ ∃ k m, select oldSample none = .ok (some k) ∧
    k.configuration ∈ oldSample ∧ IsForOld k.configuration m ∧
      ∀ c ∈ oldSample, ∀ n, IsForOld c n → m.reading.atLeast n.reading = true ∧
        (n.version ≤ m.version ↔ ¬m.Overtakes n) :=
  ⟨List.cons_ne_nil _ _,
    (select_old_frameworks oldSample (List.cons_ne_nil _ _) isForOld_oldSample).2⟩

/-- Two release configurations, for 4.8 and for 4.7.2. -/
def overtaken : List BuildConfiguration :=
  [{ name := "Release", framework := some "net48" },
   { name := "Release", framework := some "net472" }]

theorem isForOld_overtaken : ∀ c ∈ overtaken, ∃ m, IsForOld c m := by
  intro c hc
  rcases hc with _ | ⟨_, _ | ⟨_, hc⟩⟩
  · exact ⟨⟨4, 8, none⟩, by decide, rfl⟩
  · exact ⟨⟨4, 7, some 2⟩, by decide, rfl⟩
  · cases hc

/-- The lower version is chosen, because it has more digits. -/
theorem select_overtaken :
    (∃ k, select overtaken none = .ok (some k) ∧
      k.configuration.framework = some (OldMoniker.text ⟨4, 7, some 2⟩)) ∧
    { name := "Release", framework := some (OldMoniker.text ⟨4, 8, none⟩) } ∈ overtaken ∧
    OldMoniker.version ⟨4, 7, some 2⟩ < OldMoniker.version ⟨4, 8, none⟩ := by
  refine ⟨?_, List.mem_cons_self, by decide⟩
  obtain ⟨k, m, hselect, hk, hm, hhighest⟩ :=
    exists_select_old (List.cons_ne_nil _ _) isForOld_overtaken
  have hlower : m.reading.atLeast ⟨4, 72⟩ = true :=
    hhighest _ (List.mem_cons_of_mem _ List.mem_cons_self) ⟨4, 7, some 2⟩ ⟨by decide, rfl⟩
  refine ⟨k, hselect, ?_⟩
  rcases List.mem_cons.1 hk with hk | hk
  · have hread := hm.ofMoniker
    rw [hk] at hread
    have height : Version.ofMoniker "net48".toList = .ok (some ⟨4, 8⟩) := by decide +kernel
    rw [← Option.some.inj (Except.ok.inj (height.symm.trans hread))] at hlower
    exact absurd hlower (by decide)
  · rw [List.mem_singleton.1 hk]
    rfl

end OldFrameworks

end Project

end JitInspect
