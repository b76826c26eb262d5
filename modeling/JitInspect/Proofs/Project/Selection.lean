import JitInspect.Project.Resolution
import JitInspect.Proofs.Project.Framework

/-!
# Which configuration is chosen

The candidates of a project are its configurations at their places, with the versions of their
frameworks (`Candidate.StandsIn`). They are tried in a fixed order, higher versions first and of those
with the same version the one that stands first in the project (`Candidate.Precedes`): sorting is
stable, so it leads to this order (`Candidate.pairwise_ranked`).

What is chosen is the best of the candidates that are admitted (`Candidate.IsBest`,
`Candidate.Admitted`), of which there is one only (`Candidate.IsBest.eq`). Nothing is chosen only when
there are no configurations, and the selection fails only on a number with too many digits
(`Project.exists_select_iff`).
-/

namespace JitInspect

namespace Candidate

variable {cs : List BuildConfiguration} {ks l : List Candidate} {a b k : Candidate}
  {wanted : Option Version} {P : Candidate → Prop}

/-! ### The candidates of a project -/

section Candidates

/-- The candidate is the configuration at its place in the project, with the version of its framework.
A configuration without a version counts as one with the version (-1, -1). -/
structure StandsIn (cs : List BuildConfiguration) (k : Candidate) : Prop where
  configuration : cs[k.index]? = some k.configuration
  version : ∃ found, Version.ofMoniker (k.configuration.framework.getD []) = .ok found ∧
    k.version = found.getD ⟨-1, -1⟩

/-- Candidates at one place are the same. -/
theorem StandsIn.eq_of_index (ha : a.StandsIn cs) (hb : b.StandsIn cs) (h : a.index = b.index) :
    a = b := by
  obtain ⟨ia, ca, va⟩ := a
  obtain ⟨ib, cb, vb⟩ := b
  obtain rfl : ia = ib := h
  obtain rfl : ca = cb := Option.some.inj (ha.configuration.symm.trans hb.configuration)
  obtain ⟨found, hfound, rfl : va = _⟩ := ha.version
  obtain ⟨found₁, hfound₁, rfl : vb = _⟩ := hb.version
  obtain rfl : found = found₁ := Except.ok.inj (hfound.symm.trans hfound₁)
  rfl

/-- The candidates are the configurations, each at its place. -/
theorem getElem_ofList (h : ofList cs = .ok ks) : ks.length = cs.length ∧
    ∀ (i : ℕ) (hi : i < ks.length), ks[i].StandsIn cs ∧ ks[i].index = i := by
  obtain ⟨hlength, hget⟩ := List.forall₂_iff_get.1 (forall₂_of_mapM h)
  rw [List.length_zipIdx] at hlength
  refine ⟨hlength.symm, fun i hi => ?_⟩
  have hmade := hget i (by rw [List.length_zipIdx]; omega) hi
  simp only [List.get_eq_getElem, List.getElem_zipIdx, Nat.zero_add] at hmade
  cases hrank : Version.rank cs[i].framework with
  | error e =>
    rw [hrank] at hmade
    cases hmade
  | ok v =>
    rw [hrank] at hmade
    have hk : Candidate.mk i cs[i] v = ks[i] := Except.ok.inj hmade
    rw [← hk]
    exact ⟨⟨List.getElem?_eq_getElem _, Version.rank_eq_ok_iff.1 hrank⟩, rfl⟩

/-- The candidates of a list are those that stand in it. -/
theorem mem_ofList_iff (h : ofList cs = .ok ks) : k ∈ ks ↔ k.StandsIn cs := by
  obtain ⟨hlength, hat⟩ := getElem_ofList h
  constructor
  · intro hk
    obtain ⟨i, hi, rfl⟩ := List.getElem_of_mem hk
    exact (hat i hi).1
  · intro hk
    have hi : k.index < ks.length := by
      rw [hlength]
      exact (List.getElem?_eq_some_iff.1 hk.configuration).1
    obtain ⟨hstands, hindex⟩ := hat k.index hi
    exact hstands.eq_of_index hk hindex ▸ List.getElem_mem hi

theorem pairwise_ofList (h : ofList cs = .ok ks) : ks.Pairwise fun a b => a.index < b.index := by
  obtain ⟨-, hat⟩ := getElem_ofList h
  rw [List.pairwise_iff_getElem]
  intro i j hi hj hij
  rw [(hat i hi).2, (hat j hj).2]
  exact hij

/-- There is a candidate for each configuration. -/
theorem exists_mem_of_mem (h : ofList cs = .ok ks) {c : BuildConfiguration} (hc : c ∈ cs) :
    ∃ k ∈ ks, k.configuration = c := by
  obtain ⟨i, hi, rfl⟩ := List.getElem_of_mem hc
  obtain ⟨hlength, hat⟩ := getElem_ofList h
  obtain ⟨hstands, hindex⟩ := hat i (hlength ▸ hi)
  have hconfiguration := hstands.configuration
  rw [hindex, List.getElem?_eq_getElem hi, Option.some.injEq] at hconfiguration
  exact ⟨ks[i], List.getElem_mem _, hconfiguration.symm⟩

/-- There are candidates unless a number in one of the frameworks is too long. -/
theorem exists_ofList_iff :
    (∃ ks, ofList cs = .ok ks) ↔ ∀ c ∈ cs, Version.Readable (c.framework.getD []) := by
  constructor
  · rintro ⟨ks, hks⟩ c hc
    obtain ⟨k, hk, rfl⟩ := exists_mem_of_mem hks hc
    obtain ⟨found, hfound, -⟩ := ((mem_ofList_iff hks).1 hk).version
    exact Version.exists_ofMoniker_iff.1 ⟨found, hfound⟩
  · intro hreadable
    cases hks : ofList cs with
    | ok ks => exact ⟨ks, rfl⟩
    | error e =>
      obtain ⟨⟨c, i⟩, hmem, hmade⟩ := exists_of_mapM_eq_error hks
      have hc : c ∈ cs := List.fst_mem_of_mem_zipIdx hmem
      obtain ⟨found, hfound⟩ := Version.exists_ofMoniker_iff.2 (hreadable c hc)
      dsimp only at hmade
      rw [Version.rank_eq_ok_iff.2 ⟨found, hfound, rfl⟩] at hmade
      cases hmade

end Candidates

/-! ### The order in which candidates are tried -/

section Ranking

/-- The candidate is tried before the other: its version is not lower, and of two with the same
version it is the one that stands first in the project. -/
def Precedes (a b : Candidate) : Prop :=
  a.version.atLeast b.version = true ∧ (a.version = b.version → a.index ≤ b.index)

@[refl]
theorem Precedes.refl (a : Candidate) : a.Precedes a :=
  ⟨Version.atLeast_refl a.version, fun _ => Nat.le_refl a.index⟩

/-- Candidates with the same version keep their order. -/
theorem filter_ranked (v : Version) :
    (ranked ks).filter (fun k => k.version = v) = ks.filter fun k => k.version = v := by
  have hsorted : (ks.filter fun k => k.version = v).Pairwise
      fun a b => a.version.atLeast b.version = true := by
    refine List.pairwise_of_forall_mem_list fun a ha b hb => ?_
    rw [of_decide_eq_true (List.mem_filter.1 ha).2, of_decide_eq_true (List.mem_filter.1 hb).2]
    exact Version.atLeast_refl v
  have hsub : (ks.filter fun k => k.version = v).Sublist (ranked ks) := by
    unfold ranked
    refine List.sublist_mergeSort ?_ ?_ hsorted List.filter_sublist
    · exact fun _ _ _ => Version.atLeast_trans
    · exact fun _ _ => Version.atLeast_total _ _
  have hlength : ((ranked ks).filter fun k => k.version = v).length =
      (ks.filter fun k => k.version = v).length :=
    ((List.mergeSort_perm ks _).filter _).length_eq
  have hfilter := hsub.filter fun k => decide (k.version = v)
  simp only [List.filter_filter, Bool.and_self] at hfilter
  exact (hfilter.eq_of_length hlength.symm).symm

/-- Ranked candidates precede each other in their order. -/
theorem pairwise_ranked (h : ks.Pairwise fun a b => a.index < b.index) :
    (ranked ks).Pairwise Precedes := by
  rw [List.pairwise_iff_forall_sublist]
  intro a b hab
  have hsorted : (ranked ks).Pairwise fun a b => a.version.atLeast b.version = true := by
    unfold ranked
    refine List.pairwise_mergeSort ?_ ?_ ks
    · exact fun _ _ _ => Version.atLeast_trans
    · exact fun _ _ => Version.atLeast_total _ _
  refine ⟨List.pairwise_iff_forall_sublist.1 hsorted hab, fun hversion => ?_⟩
  have hsame : [a, b].Sublist ks := by
    have hfilter := hab.filter fun k => decide (k.version = b.version)
    rw [filter_ranked] at hfilter
    simp [hversion] at hfilter
    exact hfilter.trans List.filter_sublist
  exact (List.pairwise_iff_forall_sublist.1 h hsame).le

/-- Of candidates in the order in which they are tried, the first one that passes precedes all others
that pass. -/
theorem precedes_of_find? {p : Candidate → Bool} (hl : l.Pairwise Precedes) (h : l.find? p = some a)
    (hb : b ∈ l) (hpass : p b = true) : a.Precedes b := by
  obtain ⟨-, front, back, rfl, hfront⟩ := List.find?_eq_some_iff_append.1 h
  rw [List.pairwise_append, List.pairwise_cons] at hl
  rcases List.mem_append.1 hb with hb | hb
  · have hrefused := hfront b hb
    rw [hpass] at hrefused
    cases hrefused
  · rcases List.mem_cons.1 hb with rfl | hb
    · exact Precedes.refl b
    · exact hl.2.1.1 b hb

/-- The first of an ordered list precedes all others. -/
theorem precedes_of_head? (hl : l.Pairwise Precedes) (h : l.head? = some a) (hb : b ∈ l) :
    a.Precedes b := by
  obtain ⟨back, rfl⟩ := List.head?_eq_some_iff.1 h
  rcases List.mem_cons.1 hb with rfl | hb
  · exact Precedes.refl b
  · exact (List.pairwise_cons.1 hl).1 b hb

end Ranking

/-! ### The candidate that is chosen -/

section Choice

/-- Only releases are eligible, if there are any. -/
theorem mem_eligible_iff : k ∈ eligible ks ↔
    k ∈ ks ∧ ((∃ b ∈ ks, b.isRelease = true) → k.isRelease = true) := by
  unfold eligible
  dsimp only
  split
  case isTrue hnone =>
    have hnone : ∀ b ∈ ks, ¬b.isRelease = true := by
      rw [List.isEmpty_iff, List.filter_eq_nil_iff] at hnone
      exact fun b hb => hnone b (List.mem_mergeSort.2 hb)
    unfold ranked
    rw [List.mem_mergeSort]
    exact ⟨fun hk => ⟨hk, fun ⟨b, hb, hrelease⟩ => absurd hrelease (hnone b hb)⟩, And.left⟩
  case isFalse hsome =>
    have hsome : ∃ b ∈ ks, b.isRelease = true := by
      rw [List.isEmpty_iff, List.filter_eq_nil_iff] at hsome
      push Not at hsome
      obtain ⟨b, hb, hrelease⟩ := hsome
      exact ⟨b, List.mem_mergeSort.1 hb, hrelease⟩
    unfold ranked
    rw [List.mem_filter, List.mem_mergeSort]
    exact and_congr_right fun _ => ⟨fun hrelease _ => hrelease, fun hrelease => hrelease hsome⟩

/-- Eligible candidates precede each other in their order. -/
theorem pairwise_eligible (h : ks.Pairwise fun a b => a.index < b.index) :
    (eligible ks).Pairwise Precedes := by
  unfold eligible
  dsimp only
  split
  · exact pairwise_ranked h
  · exact (pairwise_ranked h).filter _

/-- The candidate may be chosen: it is a release configuration if there is one. -/
def Eligible (cs : List BuildConfiguration) (k : Candidate) : Prop :=
  k.StandsIn cs ∧ ((∃ c ∈ cs, Text.lower c.name = "release".toList) →
    Text.lower k.configuration.name = "release".toList)

/-- The candidate may be chosen for the version that is asked for: its own is not higher, if there is
a candidate of which that is true. -/
def Admitted (cs : List BuildConfiguration) (wanted : Option Version) (k : Candidate) : Prop :=
  k.Eligible cs ∧ ∀ w ∈ wanted, (∃ b : Candidate, b.Eligible cs ∧ w.atLeast b.version = true) →
    w.atLeast k.version = true

/-- The candidate is the best of those of which `P` holds: the others have lower versions, or the same
version and stand behind it in the project. -/
def IsBest (P : Candidate → Prop) (k : Candidate) : Prop :=
  P k ∧ ∀ b : Candidate, P b → k.Precedes b

/-- A candidate is a release by the name of its configuration. -/
theorem isRelease_iff : k.isRelease = true ↔ Text.lower k.configuration.name = "release".toList :=
  decide_eq_true_iff

/-- The eligible candidates of a list, told by the list. -/
theorem mem_eligible_ofList_iff (h : ofList cs = .ok ks) : k ∈ eligible ks ↔ k.Eligible cs := by
  have hrelease : (∃ b ∈ ks, b.isRelease = true) ↔ ∃ c ∈ cs, Text.lower c.name = "release".toList := by
    constructor
    · rintro ⟨b, hb, hrelease⟩
      have hstands := (mem_ofList_iff h).1 hb
      exact ⟨b.configuration, List.mem_of_getElem? hstands.configuration, isRelease_iff.1 hrelease⟩
    · rintro ⟨c, hc, hrelease⟩
      obtain ⟨k, hk, rfl⟩ := exists_mem_of_mem h hc
      exact ⟨k, hk, isRelease_iff.2 hrelease⟩
  rw [mem_eligible_iff, mem_ofList_iff h, hrelease, isRelease_iff]
  exact Iff.rfl

/-- There is always one, unless there is no candidate. -/
theorem exists_mem_eligible (h : ks ≠ []) : ∃ k, k ∈ eligible ks := by
  by_cases hrelease : ∃ b ∈ ks, b.isRelease = true
  · obtain ⟨b, hb, hb'⟩ := hrelease
    exact ⟨b, mem_eligible_iff.2 ⟨hb, fun _ => hb'⟩⟩
  · obtain ⟨b, hb⟩ := List.exists_mem_of_ne_nil ks h
    exact ⟨b, mem_eligible_iff.2 ⟨hb, fun hsome => absurd hsome hrelease⟩⟩

/-- What is chosen is the best candidate that is admitted. -/
theorem isBest_of_choose (h : ofList cs = .ok ks) (hk : choose wanted ks = some k) :
    IsBest (Admitted cs wanted) k := by
  have hmem (b : Candidate) : b ∈ eligible ks ↔ b.Eligible cs := mem_eligible_ofList_iff h
  have hl := pairwise_eligible (pairwise_ofList h)
  cases wanted with
  | none =>
    have hk : (eligible ks).head? = some k := hk
    refine ⟨⟨(hmem k).1 (List.mem_of_head? hk), fun w hw => nomatch hw⟩, fun b hb => ?_⟩
    exact precedes_of_head? hl hk ((hmem b).2 hb.1)
  | some w =>
    unfold choose at hk
    dsimp only at hk
    cases hfind : (eligible ks).find? fun c => w.atLeast c.version with
    | some a =>
      rw [hfind] at hk
      obtain rfl : a = k := Option.some.inj hk
      have ha := (hmem a).1 (List.mem_of_find?_eq_some hfind)
      have hw : w.atLeast a.version = true :=
        List.find?_some (p := fun c : Candidate => w.atLeast c.version) hfind
      refine ⟨⟨ha, fun w₁ hw₁ _ => Option.some.inj hw₁ ▸ hw⟩, fun b hb => ?_⟩
      exact precedes_of_find? hl hfind ((hmem b).2 hb.1) (hb.2 w rfl ⟨a, ha, hw⟩)
    | none =>
      rw [hfind] at hk
      have hk : (eligible ks).head? = some k := hk
      refine ⟨⟨(hmem k).1 (List.mem_of_head? hk), ?_⟩, fun b hb => ?_⟩
      · rintro w₁ hw₁ ⟨b, hb, hpass⟩
        obtain rfl : w = w₁ := Option.some.inj hw₁
        exact absurd hpass (List.find?_eq_none.1 hfind b ((hmem b).2 hb))
      · exact precedes_of_head? hl hk ((hmem b).2 hb.1)

theorem exists_choose (wanted : Option Version) (h : ks ≠ []) :
    ∃ k, choose wanted ks = some k := by
  obtain ⟨k, hk⟩ := exists_mem_eligible h
  obtain ⟨a, back, hl⟩ := List.exists_cons_of_ne_nil (List.ne_nil_of_mem hk)
  have ha : (eligible ks).head? = some a := by rw [hl, List.head?_cons]
  cases wanted with
  | none => exact ⟨a, ha⟩
  | some w =>
    unfold choose
    dsimp only
    cases (eligible ks).find? fun c => w.atLeast c.version with
    | some b => exact ⟨b, rfl⟩
    | none => exact ⟨a, ha⟩

/-- There is one best candidate only. -/
theorem IsBest.eq (ha : IsBest (Admitted cs wanted) a) (hb : IsBest (Admitted cs wanted) b) :
    a = b := by
  obtain ⟨hversion, hindex⟩ := ha.2 b hb.1
  obtain ⟨hversion₁, hindex₁⟩ := hb.2 a ha.1
  have hsame := Version.atLeast_antisymm hversion hversion₁
  exact ha.1.1.1.eq_of_index hb.1.1.1 (Nat.le_antisymm (hindex hsame) (hindex₁ hsame.symm))

end Choice

end Candidate

namespace Project

variable {cs : List BuildConfiguration} {pin : Option Text} {k : Candidate}
  {wanted : Option Version}

/-! ### The selection -/

section Selection

/-- The version that is wanted is that of the pin. -/
theorem wantedVersion_eq : wantedVersion pin = Version.ofMoniker (pin.getD []) := by
  cases pin with
  | none => rfl
  | some t =>
    cases t with
    | nil => rfl
    | cons c t => rfl

/-- No candidates come from no configurations. -/
theorem ofList_eq_nil_iff {ks : List Candidate} (hks : Candidate.ofList cs = .ok ks) :
    ks = [] ↔ cs = [] := by
  rw [← List.length_eq_zero_iff, (Candidate.getElem_ofList hks).1, List.length_eq_zero_iff]

/-- A selection ends well when the versions of all configurations and of the pin can be read. -/
theorem select_eq_ok_iff {choice : Option Candidate} (hcs : cs ≠ []) :
    select cs pin = .ok choice ↔ ∃ ks wanted, Candidate.ofList cs = .ok ks ∧
      Version.ofMoniker (pin.getD []) = .ok wanted ∧ Candidate.choose wanted ks = choice := by
  unfold select
  rw [bind_eq_ok]
  refine exists_congr fun ks => ?_
  constructor
  · rintro ⟨hks, h⟩
    have hne : ¬ks.isEmpty = true := by
      rw [List.isEmpty_iff, ofList_eq_nil_iff hks]
      exact hcs
    rw [if_neg hne, wantedVersion_eq] at h
    obtain ⟨wanted, hw, h⟩ := bind_eq_ok.1 h
    exact ⟨wanted, hks, hw, Except.ok.inj h⟩
  · rintro ⟨wanted, hks, hw, h⟩
    have hne : ¬ks.isEmpty = true := by
      rw [List.isEmpty_iff, ofList_eq_nil_iff hks]
      exact hcs
    refine ⟨hks, ?_⟩
    rw [if_neg hne, wantedVersion_eq]
    exact bind_eq_ok.2 ⟨wanted, hw, congrArg Except.ok h⟩

/-- Nothing is chosen only among no configurations. -/
theorem select_eq_none_iff : select cs pin = .ok none ↔ cs = [] := by
  constructor
  · intro h
    by_contra hcs
    obtain ⟨ks, wanted, hks, -, hchoice⟩ := (select_eq_ok_iff hcs).1 h
    have hne : ks ≠ [] := fun hnil => hcs ((ofList_eq_nil_iff hks).1 hnil)
    obtain ⟨k, hk⟩ := Candidate.exists_choose wanted hne
    rw [hk] at hchoice
    cases hchoice
  · rintro rfl
    rfl

/-- What is chosen is the best candidate that is admitted, when all the versions can be read. -/
theorem select_eq_some_iff (hcs : cs ≠ [])
    (hreadable : ∀ c ∈ cs, Version.Readable (c.framework.getD []))
    (hw : Version.ofMoniker (pin.getD []) = .ok wanted) :
    select cs pin = .ok (some k) ↔ Candidate.IsBest (Candidate.Admitted cs wanted) k := by
  obtain ⟨ks, hks⟩ := Candidate.exists_ofList_iff.2 hreadable
  have hne : ks ≠ [] := fun hnil => hcs ((ofList_eq_nil_iff hks).1 hnil)
  obtain ⟨a, ha⟩ := Candidate.exists_choose wanted hne
  have hbest := Candidate.isBest_of_choose hks ha
  have hselect : select cs pin = .ok (some a) := (select_eq_ok_iff hcs).2 ⟨ks, wanted, hks, hw, ha⟩
  rw [hselect, Except.ok.injEq, Option.some.injEq]
  constructor
  · rintro rfl
    exact hbest
  · exact hbest.eq

/-- What is chosen is a candidate of the project. -/
theorem standsIn_of_select (h : select cs pin = .ok (some k)) : k.StandsIn cs := by
  have hcs : cs ≠ [] := by
    rintro rfl
    cases h
  obtain ⟨ks, wanted, hks, -, hk⟩ := (select_eq_ok_iff hcs).1 h
  exact (Candidate.isBest_of_choose hks hk).1.1.1

/-- The selection fails on a version number that is too long, and on nothing else. -/
theorem exists_select_iff (hcs : cs ≠ []) : (∃ choice, select cs pin = .ok choice) ↔
    (∀ c ∈ cs, Version.Readable (c.framework.getD [])) ∧ Version.Readable (pin.getD []) := by
  rw [← Candidate.exists_ofList_iff, ← Version.exists_ofMoniker_iff]
  constructor
  · rintro ⟨choice, h⟩
    obtain ⟨ks, wanted, hks, hw, -⟩ := (select_eq_ok_iff hcs).1 h
    exact ⟨⟨ks, hks⟩, wanted, hw⟩
  · rintro ⟨⟨ks, hks⟩, wanted, hw⟩
    exact ⟨_, (select_eq_ok_iff hcs).2 ⟨ks, wanted, hks, hw, rfl⟩⟩

/-- Of no configurations nothing is chosen. Of some, the best candidate is chosen that is admitted for
the version asked for, as long as no number in a version is too long. -/
theorem select_chooses_best (cs : List BuildConfiguration) (pin : Option Text) :
    (select cs pin = .ok none ↔ cs = []) ∧
    (cs ≠ [] → (∀ c ∈ cs, Version.Readable (c.framework.getD [])) → Version.Readable (pin.getD []) →
      ∃ wanted k, Version.ofMoniker (pin.getD []) = .ok wanted ∧ select cs pin = .ok (some k) ∧
        Candidate.IsBest (Candidate.Admitted cs wanted) k) := by
  refine ⟨select_eq_none_iff, fun hcs hreadable hpin => ?_⟩
  obtain ⟨wanted, hw⟩ := Version.exists_ofMoniker_iff.2 hpin
  obtain ⟨choice, hchoice⟩ := (exists_select_iff hcs).2 ⟨hreadable, hpin⟩
  cases choice with
  | none => exact absurd (select_eq_none_iff.1 hchoice) hcs
  | some k => exact ⟨wanted, k, hw, hchoice, (select_eq_some_iff hcs hreadable hw).1 hchoice⟩

/-- Five configurations, of which two release configurations have the same version. -/
def sample : List BuildConfiguration :=
  [{ name := "Debug", framework := some "net9.0" },
   { name := "Release", framework := some "net6.0" },
   { name := "release", framework := some "net8.0" },
   { name := "RELEASE", framework := some "net8.0-windows" },
   { name := "Release" }]

/-- The sample's pin is met by one of its configurations. -/
theorem select_chooses_best_sample :
    ∃ wanted k, Version.ofMoniker "net9.0".toList = .ok wanted ∧
      select sample (some "net9.0".toList) = .ok (some k) ∧
        Candidate.IsBest (Candidate.Admitted sample wanted) k :=
  (select_chooses_best sample (some "net9.0".toList)).2 (by decide +kernel) (by decide +kernel)
    (by decide +kernel)

example : (select sample (some "net9.0".toList)).toOption.join.map (·.index) = some 2 := by
  cbv

/-- A configuration whose framework has a number with one digit too many. -/
def overlong : BuildConfiguration :=
  { name := "Release", framework := some ("net".toList ++ List.replicate 4301 '9' ++ ".0".toList) }

/-- A framework with an overlong number keeps the selection from ending well. -/
theorem select_overlong : [overlong] ≠ [] ∧ ¬∃ choice, select [overlong] none = .ok choice := by
  refine ⟨List.cons_ne_nil _ _, fun h => ?_⟩
  have hreadable := ((exists_select_iff (List.cons_ne_nil _ _)).1 h).1 overlong List.mem_cons_self
  have hunreadable : ¬Version.Readable (overlong.framework.getD []) := by decide +kernel
  exact hunreadable hreadable

end Selection

end Project

end JitInspect
