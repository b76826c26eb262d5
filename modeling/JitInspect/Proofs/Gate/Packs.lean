import JitInspect.Proofs.FileTree.Globbing
import JitInspect.Proofs.Text.Order
import JitInspect.RuntimeLayout
import Mathlib.Data.Bool.AllAny
import Mathlib.Data.Prod.Lex

/-!
# Which pack is found

The packs of a runtime are directories that are named by their version, the system and the architecture
(`RuntimeLayout.packName`). Of those for one system and one architecture the one is found whose name comes
last in a dictionary, which is decided by the decimal numbers of the version as they are written
(`RuntimeLayout.packName_lt_iff`). So the pack that is found is at least as new as every pack in the
version of which the numbers have as many digits; of version 9.0 and 10.0 it is the former.
-/

namespace JitInspect

namespace RuntimeLayout

variable {h : Host} {d : Disk} {root : Path} {arch n : Text} {major minor major₁ minor₁ : ℕ}

/-! ### Names of packs -/

section PackNames

/-- The end of the names of packs for the system and the architecture. -/
def packEnd (h : Host) (arch : Text) : Text := "-".toList ++ h.os.name ++ "-Release-" ++ arch

/-- The name of the pack of a version. -/
def packName (h : Host) (arch : Text) (major minor : ℕ) : Text :=
  "net".toList ++ Text.ofNat major ++ "." ++ Text.ofNat minor ++ packEnd h arch

/-- Packs are searched for with one star. -/
theorem packPattern_eq (h : Host) (arch : Text) : packPattern h arch = '*' :: packEnd h arch := by
  unfold packPattern packEnd
  rfl

/-- There is no other wildcard in the pattern. -/
theorem isPlain_packEnd (harch : GlobItem.IsPlain arch) : GlobItem.IsPlain (packEnd h arch) := by
  have hfront : GlobItem.IsPlain ("-".toList ++ h.os.name ++ "-Release-") := by
    cases h.os <;> exact List.all_iff_forall_prop.1 (by decide)
  exact List.forall_mem_append.2 ⟨hfront, harch⟩

/-- The name of a pack ends as the pattern does. -/
theorem packEnd_suffix (h : Host) (arch : Text) (major minor : ℕ) :
    packEnd h arch <:+ packName h arch major minor := List.suffix_append _ _

theorem isName_packName (harch : GlobItem.IsPlain arch) :
    Path.IsName (packName h arch major minor) := by
  refine ⟨List.cons_ne_nil _ _, fun heq => ?_, fun hmem => ?_⟩
  · exact absurd (List.cons.inj heq).1 (by decide)
  · have hdigits (n : ℕ) : Path.separator ∉ Text.ofNat n := fun hslash =>
      absurd (Text.isDigit_of_mem_ofNat hslash) (by decide)
    have hend : Path.separator ∉ packEnd h arch := fun hslash =>
      (isPlain_packEnd harch _ hslash).2.2.2 rfl
    unfold packName at hmem
    simp only [List.mem_append] at hmem
    rcases hmem with (((hnet | hmajor) | hdot) | hminor) | hback
    · exact absurd hnet (by decide)
    · exact hdigits major hmajor
    · exact absurd hdot (by decide)
    · exact hdigits minor hminor
    · exact hend hback

/-- What comes before the digits comes before those of a number. -/
theorem lt_of_mem_ofNat {c d : Char} (hc : c.toNat < 48) (hd : d ∈ Text.ofNat major) : c < d :=
  Text.lt_iff_toNat_lt.2 (hc.trans_le (Text.isDigit_iff.1 (Text.isDigit_of_mem_ofNat hd)).1)

/-- The names of packs are in the order of the numbers as they are written. -/
theorem packName_lt_iff : packName h arch major minor < packName h arch major₁ minor₁ ↔
    Text.ofNat major < Text.ofNat major₁ ∨
      major = major₁ ∧ Text.ofNat minor < Text.ofNat minor₁ := by
  have hshape (major minor : ℕ) : packName h arch major minor = 'n' :: 'e' :: 't' ::
      (Text.ofNat major ++ '.' :: (Text.ofNat minor ++ '-' :: (packEnd h arch).tail)) := by
    unfold packName
    rw [List.append_assoc, List.append_assoc, List.append_assoc]
    rfl
  have hdot (n : ℕ) : ∀ c ∈ Text.ofNat n, '.' < c := fun c hc => lt_of_mem_ofNat (by decide) hc
  have hdash (n : ℕ) : ∀ c ∈ Text.ofNat n, '-' < c := fun c hc => lt_of_mem_ofNat (by decide) hc
  have hsame : Text.ofNat major = Text.ofNat major₁ ↔ major = major₁ :=
    ⟨Text.ofNat_injective, congrArg Text.ofNat⟩
  have hends : ¬(packEnd h arch).tail < (packEnd h arch).tail := List.lt_irrefl _
  rw [hshape, hshape]
  simp only [List.cons_lt_cons_iff, Char.lt_irrefl, true_and, false_or]
  rw [Text.append_cons_lt_iff (hdot _) (hdot _), Text.append_cons_lt_iff (hdash _) (hdash _), hsame]
  simp only [hends, and_false, or_false]

/-- A pack is not older than one of which the name does not come later and of which the numbers have as
many digits. -/
theorem version_le_of_not_lt (hlast : ¬packName h arch major minor < packName h arch major₁ minor₁)
    (hmajor : (Text.ofNat major).length = (Text.ofNat major₁).length)
    (hminor : (Text.ofNat minor).length = (Text.ofNat minor₁).length) :
    toLex (major₁, minor₁) ≤ toLex (major, minor) := by
  rw [packName_lt_iff, Text.ofNat_lt_iff hmajor, Text.ofNat_lt_iff hminor] at hlast
  rw [Prod.Lex.toLex_le_toLex]
  dsimp only
  omega

end PackNames

/-! ### The pack that is found -/

section Finding

/-- The path that comes last of one and those of a list. -/
def lastOf (b : Path) (ps : List Path) : Option Path :=
  ps.foldl (fun best p =>
    match best with
    | none => some p
    | some b => if b.parts < p.parts then some p else some b) (some b)

/-- The path is in the list, and none comes later. -/
structure ComesLast (ps : List Path) (p : Path) : Prop where
  mem : p ∈ ps
  last : ∀ q ∈ ps, ¬p.parts < q.parts

/-- A list that is not empty has a last path. -/
theorem exists_lastOf (b : Path) (ps : List Path) :
    ∃ p, lastOf b ps = some p ∧ ComesLast (b :: ps) p := by
  induction ps generalizing b with
  | nil =>
    refine ⟨b, rfl, List.mem_singleton_self b, fun q hq => ?_⟩
    rw [List.mem_singleton.1 hq]
    exact lt_irrefl _
  | cons q ps ih =>
    by_cases hlater : b.parts < q.parts
    · obtain ⟨p, hp, hmem, hlast⟩ := ih q
      have hstep : lastOf b (q :: ps) = lastOf q ps := by
        unfold lastOf
        rw [List.foldl_cons]
        dsimp only
        rw [if_pos hlater]
      refine ⟨p, hstep.trans hp, List.mem_cons_of_mem _ hmem, List.forall_mem_cons.2 ⟨?_, hlast⟩⟩
      exact fun hpb => hlast q List.mem_cons_self (hpb.trans hlater)
    · obtain ⟨p, hp, hmem, hlast⟩ := ih b
      have hstep : lastOf b (q :: ps) = lastOf b ps := by
        unfold lastOf
        rw [List.foldl_cons]
        dsimp only
        rw [if_neg hlater]
      obtain ⟨hlastb, hlastps⟩ := List.forall_mem_cons.1 hlast
      refine ⟨p, hstep.trans hp, ?_, List.forall_mem_cons.2 ⟨hlastb, List.forall_mem_cons.2
        ⟨fun hpq => hlater ((not_lt.1 hlastb).trans_lt hpq), hlastps⟩⟩⟩
      rcases List.mem_cons.1 hmem with rfl | hmem
      · exact List.mem_cons_self
      · exact List.mem_cons_of_mem _ (List.mem_cons_of_mem _ hmem)

/-- The folder of the packs lists a directory of the name. -/
def Lists (d : Disk) (root : Path) (n : Text) : Prop :=
  (∃ ns, d.names (packFolder root).text = .ok ns ∧ n ∈ ns) ∧
    d.isDirectory ((packFolder root).child n).text = .ok true

/-- What the folder of the packs lists for the system and the architecture is named by a version. Whether
the folder and these entries are directories can be asked, so no name on the way to them is too long and
no directory barred. -/
structure Stocks (h : Host) (d : Disk) (root : Path) (arch : Text) : Prop where
  folder : ∃ answer, d.isDirectory (packFolder root).text = .ok answer
  entries : ∀ ns, d.names (packFolder root).text = .ok ns → ∀ n ∈ ns, packEnd h arch <:+ n →
    (∃ major minor, n = packName h arch major minor) ∧
      ∃ answer, d.isDirectory ((packFolder root).child n).text = .ok answer

/-- The directories among the entries for the system and the architecture, one of which is found. -/
def packsOf (h : Host) (d : Disk) (root : Path) (arch : Text) (ns : List Text) : List Path :=
  ((ns.filter fun n => (packEnd h arch).isSuffixOf n).map (Disk.entryPath (packFolder root))).filter
    fun p => d.isDirectory p.text = .ok true

/-- The pack that is found is the last one of the list. -/
theorem findPack_eq (harch : GlobItem.IsPlain arch) (hstocks : Stocks h d root arch) {ns : List Text}
    (hnames : d.names (packFolder root).text = .ok ns) :
    findPack h d root arch = .ok (match packsOf h d root arch ns with
      | [] => none
      | p :: ps => lastOf p ps) := by
  have hanswers : ∀ p ∈ (ns.filter fun n => (packEnd h arch).isSuffixOf n).map
      (Disk.entryPath (packFolder root)),
      d.isDirectory p.text = .ok (decide (d.isDirectory p.text = .ok true)) := by
    intro p hp
    obtain ⟨n, hn, rfl⟩ := List.mem_map.1 hp
    obtain ⟨hmem, hend⟩ := List.mem_filter.1 hn
    obtain ⟨⟨major, minor, rfl⟩, answer, hanswer⟩ :=
      hstocks.entries ns hnames n hmem (List.isSuffixOf_iff_suffix.1 hend)
    rw [Disk.entryPath_eq_child (isName_packName harch), hanswer]
    cases answer <;> rfl
  have hfolder := Disk.isDirectory_of_names hnames
  unfold findPack
  refine bind_eq_ok.2 ⟨true, hfolder, ?_⟩
  rw [if_pos rfl, packPattern_eq, Disk.glob_star (isPlain_packEnd harch), hnames]
  refine bind_eq_ok.2 ⟨_, rfl, bind_eq_ok.2 ⟨_, filterM_of_forall hanswers, ?_⟩⟩
  refine congrArg Except.ok ?_
  change List.foldl _ none (packsOf h d root arch ns) = _
  cases packsOf h d root arch ns with
  | nil => rfl
  | cons p ps => rfl

/-- The list holds the packs that are there. -/
theorem mem_packsOf (harch : GlobItem.IsPlain arch) (hstocks : Stocks h d root arch) {ns : List Text}
    (hnames : d.names (packFolder root).text = .ok ns) {p : Path} :
    p ∈ packsOf h d root arch ns ↔ ∃ major minor,
      p = (packFolder root).child (packName h arch major minor) ∧
        Lists d root (packName h arch major minor) := by
  unfold packsOf
  rw [List.mem_filter, List.mem_map]
  constructor
  · rintro ⟨⟨n, hn, rfl⟩, hdirectory⟩
    obtain ⟨hmem, hend⟩ := List.mem_filter.1 hn
    obtain ⟨⟨major, minor, rfl⟩, -⟩ :=
      hstocks.entries ns hnames n hmem (List.isSuffixOf_iff_suffix.1 hend)
    rw [Disk.entryPath_eq_child (isName_packName harch)] at hdirectory ⊢
    exact ⟨major, minor, rfl, ⟨ns, hnames, hmem⟩, of_decide_eq_true hdirectory⟩
  · rintro ⟨major, minor, rfl, ⟨ns', hnames', hmem⟩, hdirectory⟩
    obtain rfl : ns = ns' := Except.ok.inj (hnames.symm.trans hnames')
    refine ⟨⟨packName h arch major minor, List.mem_filter.2 ⟨hmem,
      List.isSuffixOf_iff_suffix.2 (packEnd_suffix h arch major minor)⟩,
      Disk.entryPath_eq_child (isName_packName harch)⟩, decide_eq_true hdirectory⟩

/-- The pack that is found is the one that comes last. -/
theorem exists_findPack (harch : GlobItem.IsPlain arch) (hstocks : Stocks h d root arch) {ns : List Text}
    (hnames : d.names (packFolder root).text = .ok ns) :
    ∃ found, findPack h d root arch = .ok found ∧ (found = none ↔ packsOf h d root arch ns = []) ∧
      ∀ p ∈ found, ComesLast (packsOf h d root arch ns) p := by
  refine ⟨_, findPack_eq harch hstocks hnames, ?_⟩
  cases packsOf h d root arch ns with
  | nil => exact ⟨iff_of_true rfl rfl, fun p hp => nomatch hp⟩
  | cons q qs =>
    obtain ⟨p, hp, hlast⟩ := exists_lastOf q qs
    dsimp only
    rw [hp]
    refine ⟨iff_of_false (Option.some_ne_none _) (List.cons_ne_nil _ _), fun p' hp' => ?_⟩
    obtain rfl := Option.some.inj (Option.mem_def.1 hp')
    exact hlast

/-- In a folder that is barred no pack is found. -/
theorem findPack_of_denied (harch : GlobItem.IsPlain arch)
    (hfolder : d.isDirectory (packFolder root).text = .ok true)
    (hnames : d.names (packFolder root).text = .error (.refused .denied (packFolder root).text)) :
    findPack h d root arch = .ok none := by
  unfold findPack
  refine bind_eq_ok.2 ⟨true, hfolder, ?_⟩
  rw [if_pos rfl, packPattern_eq, Disk.glob_star (isPlain_packEnd harch), hnames]
  rfl

/-- The name of the pack that comes last comes last. -/
theorem not_lt_of_comesLast (harch : GlobItem.IsPlain arch) (hstocks : Stocks h d root arch)
    {ns : List Text} (hnames : d.names (packFolder root).text = .ok ns)
    (hlast : ComesLast (packsOf h d root arch ns) ((packFolder root).child (packName h arch major minor)))
    (hlists : Lists d root (packName h arch major₁ minor₁)) :
    ¬packName h arch major minor < packName h arch major₁ minor₁ := by
  intro hlt
  refine hlast.last _ ((mem_packsOf harch hstocks hnames).2 ⟨major₁, minor₁, rfl, hlists⟩) ?_
  rw [Path.child_of_isName _ (isName_packName harch), Path.child_of_isName _ (isName_packName harch)]
  exact List.append_left_lt (List.cons_lt_cons_iff.2 (.inl hlt))

/-- For the packs of one system and one architecture, next to whatever is there for others: the one is
found whose name comes last, and none if there is none. So a pack in the version of which the numbers have
as many digits is not newer. -/
theorem findPack_comes_last (h : Host) (d : Disk) (root : Path) (arch : Text)
    (harch : GlobItem.IsPlain arch) (hstocks : Stocks h d root arch) :
    ∃ found, findPack h d root arch = .ok found ∧
      (found = none ↔ ∀ major minor, ¬Lists d root (packName h arch major minor)) ∧
      ∀ p ∈ found, ∃ major minor, p = (packFolder root).child (packName h arch major minor) ∧
        Lists d root (packName h arch major minor) ∧
        ∀ major₁ minor₁, Lists d root (packName h arch major₁ minor₁) →
          ¬packName h arch major minor < packName h arch major₁ minor₁ ∧
          ((Text.ofNat major).length = (Text.ofNat major₁).length →
            (Text.ofNat minor).length = (Text.ofNat minor₁).length →
              toLex (major₁, minor₁) ≤ toLex (major, minor)) := by
  obtain ⟨answer, hanswer⟩ := hstocks.folder
  cases answer with
  | false =>
    refine ⟨none, ?_, iff_of_true rfl fun major minor hlists => ?_, fun p hp => nomatch hp⟩
    · exact bind_eq_ok.2 ⟨false, hanswer, rfl⟩
    · obtain ⟨ns, hnames, -⟩ := hlists.1
      rw [Disk.isDirectory_of_names hnames] at hanswer
      cases hanswer
  | true =>
    rcases Disk.names_of_isDirectory hanswer with ⟨ns, hnames⟩ | hdenied
    case inr =>
      refine ⟨none, findPack_of_denied harch hanswer hdenied, iff_of_true rfl fun major minor hlists => ?_,
        fun p hp => nomatch hp⟩
      obtain ⟨ns, hnames, -⟩ := hlists.1
      rw [hdenied] at hnames
      cases hnames
    have hmem (p : Path) := mem_packsOf harch hstocks hnames (p := p)
    obtain ⟨found, hfound, hnone, hlast⟩ := exists_findPack harch hstocks hnames
    refine ⟨found, hfound, ?_, fun p hp => ?_⟩
    · rw [hnone, List.eq_nil_iff_forall_not_mem]
      constructor
      · exact fun hempty major minor hlists => hempty _ ((hmem _).2 ⟨major, minor, rfl, hlists⟩)
      · intro hno p hp
        obtain ⟨major, minor, -, hlists⟩ := (hmem p).1 hp
        exact hno major minor hlists
    · obtain ⟨major, minor, rfl, hlists⟩ := (hmem p).1 (hlast p hp).mem
      refine ⟨major, minor, rfl, hlists, fun major₁ minor₁ hlists₁ => ?_⟩
      have hnot := not_lt_of_comesLast harch hstocks hnames (hlast _ hp) hlists₁
      exact ⟨hnot, version_le_of_not_lt hnot⟩

/-- A disk with a runtime at `rt` that has the packs. -/
def packDisk (names : List Text) : Disk where
  tree := names.foldl (fun t n => t.put ["rt", "artifacts", "bin", "runtime", n] .directory)
    ((((FileTree.empty.put ["rt"] .directory).put ["rt", "artifacts"] .directory).put
      ["rt", "artifacts", "bin"] .directory).put ["rt", "artifacts", "bin", "runtime"] .directory)
  cwd := []

/-- The names of the packs of three versions, the last of them for another system. -/
def packNames : List Text :=
  ["net10.0-osx-Release-x64", "net8.0-linux-Release-x64", "net9.0-linux-Release-x64"]

/-- With one digit and with two, that with one digit is found. -/
theorem findPack_comes_last_nine : GlobItem.IsPlain "x64" ∧
    Stocks {} (packDisk packNames) (Path.ofText "rt") "x64" ∧
    findPack {} (packDisk packNames) (Path.ofText "rt") "x64" =
      .ok (some ((packFolder (Path.ofText "rt")).child (packName {} "x64" 9 0))) := by
  have hplain : GlobItem.IsPlain "x64" := List.all_iff_forall_prop.1 (by decide)
  have hnames : (packDisk packNames).names (packFolder (Path.ofText "rt")).text = .ok packNames := by
    decide +kernel
  have hnine : Lists (packDisk packNames) (Path.ofText "rt") (packName {} "x64" 9 0) :=
    ⟨⟨packNames, hnames, by decide +kernel⟩, by decide +kernel⟩
  have hversions : ∀ n ∈ packNames, packEnd {} "x64" <:+ n →
      n = packName {} "x64" 8 0 ∨ n = packName {} "x64" 9 0 := by decide +kernel
  have hstocks : Stocks {} (packDisk packNames) (Path.ofText "rt") "x64" := by
    refine ⟨⟨true, by decide +kernel⟩, fun ns hns n hn hend => ?_⟩
    obtain rfl := Except.ok.inj (hnames.symm.trans hns)
    rcases hversions n hn hend with rfl | rfl
    · exact ⟨⟨8, 0, rfl⟩, true, by decide +kernel⟩
    · exact ⟨⟨9, 0, rfl⟩, true, hnine.2⟩
  refine ⟨hplain, hstocks, ?_⟩
  obtain ⟨found, hfound, hnone, hlast⟩ :=
    findPack_comes_last {} (packDisk packNames) (Path.ofText "rt") "x64" hplain hstocks
  cases found with
  | none => exact absurd hnine (hnone.1 rfl 9 0)
  | some p =>
    obtain ⟨major, minor, rfl, ⟨⟨ns, hns, hmem⟩, -⟩, hnot⟩ := hlast p rfl
    obtain rfl := Except.ok.inj (hnames.symm.trans hns)
    rcases hversions _ hmem (packEnd_suffix ..) with heq | heq
    · have hlt : packName {} "x64" major minor < packName {} "x64" 9 0 := by
        rw [heq]
        decide +kernel
      exact absurd hlt (hnot 9 0 hnine).1
    · rw [hfound, heq]

/-- Of the packs of 9.0 and 10.0 that of the former is found, though the other one is newer. -/
theorem findPack_misses_newest :
    Lists (packDisk ["net9.0-linux-Release-x64", "net10.0-linux-Release-x64"]) (Path.ofText "rt")
        (packName {} "x64" 10 0) ∧
      findPack {} (packDisk ["net9.0-linux-Release-x64", "net10.0-linux-Release-x64"])
          (Path.ofText "rt") "x64" =
        .ok (some ((packFolder (Path.ofText "rt")).child (packName {} "x64" 9 0))) ∧
      toLex (9, 0) < toLex (10, 0) := by
  refine ⟨⟨⟨["net10.0-linux-Release-x64", "net9.0-linux-Release-x64"], ?_, ?_⟩, ?_⟩, ?_, ?_⟩ <;>
    decide +kernel

end Finding

end RuntimeLayout

end JitInspect
