import JitInspect.Proofs.FlowGraph.Attempts
import JitInspect.Proofs.FlowGraph.Folder
import JitInspect.Proofs.Text.Decimal

/-!
# The files of a dump

A dump that is split into an empty directory leaves one file there for each of its phases, and no other
file (`FlowGraph.FilesOf`). A file is named by the place of its phase in the dump and by the name of the
phase. The place alone tells the files apart, since digits stand in front of the first dot
(`FlowGraph.Phase.absoluteOrdinal_eq`), whatever the label says. The name has no slash in it, so that
the file stands in the directory and not somewhere else.

This holds of a disk that refuses some of the writes for reasons of its own as well, as long as a write
that is refused leaves nothing behind (`FlowGraph.StoresIn`). The directory may have been there, or it
is created (`FlowGraph.splitInto_files`).
-/

namespace JitInspect

namespace Disk

variable {d : Disk} {p : Path}

/-! ### Directories that are there -/

section Existing

/-- A directory that is there is not made. -/
theorem run_makeDirectoryIfMissing_of_isDirectory (h : d.isDirectory p.text = .ok true) :
    StateT.run (makeDirectoryIfMissing (·.isDirectory p.text) p.text).run d = (.ok (), d) := by
  obtain ⟨loc, hlocate, hdirectory⟩ := isDirectory_eq_ok_true.1 h
  obtain ⟨mid, hmid, hend⟩ := locate_endsBefore hlocate
  -- The way that does not follow a last link ends at the directory or at a link to it.
  have hthere : ∃ e, d.tree.get? mid = some e := by
    rcases hend with rfl | ⟨target, htarget⟩
    · exact ⟨_, hdirectory⟩
    · exact ⟨_, htarget⟩
  obtain ⟨e, he⟩ := hthere
  have hmake : d.makeDirectory p.text = .error (.refused .present p.text) := by
    unfold makeDirectory
    rw [hmid]
    simp only [he]
  unfold makeDirectoryIfMissing
  rw [Change.run_tryCatch, run_single, hmake]
  dsimp only
  have hget : StateT.run (get : Change Disk).run d = (.ok d, d) := rfl
  rw [Change.run_bind, hget]
  dsimp only
  rw [h]
  rfl

/-- A directory that is there is not created again. -/
theorem run_makePath_of_isDirectory (h : d.isDirectory p.text = .ok true) :
    StateT.run (makePath p).run d = (.ok (), d) := by
  have hself := run_makeDirectoryIfMissing_of_isDirectory h
  unfold makePath
  cases p.parts.length with
  | zero => exact hself
  | succ n => rw [makePathWithin, Change.run_tryCatch, hself]

/-- Nothing is in the directory that the path leads to, whether it is there or not. -/
def IsEmptyAt (d : Disk) (dir : Path) : Prop :=
  ∀ F loc e, d.place dir.text = some F → F <+: loc → d.tree.get? loc = some e → loc = F

end Existing

end Disk

namespace FlowGraph

open Disk

variable {σ : Type} {disk : σ → Disk} {store : Phase → StateM σ (Except LogRecord Phase)}
  {dir : Path} {d d₁ d₂ : Disk} {F : Location} {p q : Phase} {ps : List Phase} {s s₁ : σ}
  {as : List Attempt}

/-! ### Names of files -/

section Names

/-- The name of a file begins with the place of its phase in the dump. -/
theorem Phase.takeWhile_fileName (p : Phase) :
    p.fileName.takeWhile Char.isDigit = Text.ofNat p.absoluteOrdinal := by
  have hname : p.fileName = Text.ofNat p.absoluteOrdinal ++ '.' :: (' ' :: p.name ++ ".dot") := by
    unfold fileName identifier
    rw [List.append_assoc, List.append_assoc]
    rfl
  rw [hname, List.takeWhile_append_of_pos fun c hc => Text.isDigit_of_mem_ofNat hc]
  exact List.append_nil _

/-- So no other phase of the dump has a file of this name. -/
theorem Phase.absoluteOrdinal_eq (h : p.fileName = q.fileName) :
    p.absoluteOrdinal = q.absoluteOrdinal := by
  apply Text.ofNat_injective
  rw [← p.takeWhile_fileName, h, q.takeWhile_fileName]

/-- Phases that are counted have different files. -/
theorem nodup_fileName (h : ps.map Phase.absoluteOrdinal = List.range' 1 ps.length) :
    (ps.map Phase.fileName).Nodup := by
  have hordinals : (ps.map Phase.absoluteOrdinal).Nodup := h ▸ List.nodup_range'
  unfold List.Nodup at hordinals ⊢
  rw [List.pairwise_map] at hordinals ⊢
  refine hordinals.imp ?_
  intro p q hne heq
  exact hne (Phase.absoluteOrdinal_eq heq)

end Names

/-! ### Writing files with different names -/

section Contents

/-- A path that leads to a location still does when the phases have been written. -/
theorem Writes.locate {path : Text} {loc : Location} (h : Writes dir ps d d₁)
    (hlocate : d.locate path = .ok loc) : d₁.locate path = .ok loc := by
  induction h with
  | nil => exact hlocate
  | cons hp hwrite hrest ih =>
    obtain ⟨place, -, hwritable, rfl⟩ := puts_of_writeBytes hwrite
    exact ih (locate_put hwritable hlocate)

/-- Writing the phases changes no access. -/
theorem Writes.barred_eq (h : Writes dir ps d d₁) : d₁.barred = d.barred := by
  induction h with
  | nil => rfl
  | cons hp hwrite hrest ih =>
    obtain ⟨place, -, -, rfl⟩ := puts_of_writeBytes hwrite
    exact ih

/-- If no two phases have files of one name, the path of each leads to a file with its graph. -/
theorem Writes.contents (h : Writes dir ps d d₁) (hdir : dir.Proper)
    (hplace : d.place dir.text = some F) (hlinks : ∀ loc, F <+: loc → d.tree.link? loc = none)
    (hnames : (ps.map Phase.fileName).Nodup) :
    ∀ p ∈ ps, d₁.locate (p.pathIn dir).text = .ok (F ++ [p.fileName]) ∧
      d₁.tree.get? (F ++ [p.fileName]) = some (.file (Text.toUtf8 p.graph)) ∧
      d₁.barred (F ++ [p.fileName]) = false := by
  induction h with
  | nil => exact fun p hp => absurd hp List.not_mem_nil
  | @cons p ps d d₁ d₂ hp hwrite hrest ih =>
    have hplaceRest : d₁.place dir.text = some F := (place_writeBytes hwrite dir.text).trans hplace
    obtain ⟨hlocate, hwritable, hopen, rfl⟩ :=
      hp.written hdir hplace (hlinks _ (List.prefix_append _ _)) hwrite
    have hlinksRest : ∀ loc, F <+: loc → (d.tree.put (F ++ [p.fileName])
        (.file (Text.toUtf8 p.graph))).link? loc = none := by
      intro loc hloc
      rw [hwritable.sameLinks _ loc, hlinks loc hloc]
    obtain ⟨hnew, hnamesRest⟩ := List.nodup_cons.1 hnames
    have hfilled := hrest.filled hdir hplaceRest hlinksRest
    have hkept : ∀ q ∈ ps, F ++ [p.fileName] ≠ F ++ [q.fileName] := by
      intro q hq heq
      have hsame : p.fileName = q.fileName := by simpa using heq
      exact hnew (hsame ▸ List.mem_map_of_mem hq)
    refine List.forall_mem_cons.2 ⟨⟨hrest.locate (locate_put hwritable hlocate), ?_, ?_⟩,
      ih hplaceRest hlinksRest hnamesRest⟩
    · rw [hfilled.others _ hkept]
      exact FileTree.get?_put_self _ (by simp) _
    · rw [hrest.barred_eq]
      exact hopen

/-- Between the two disks the phases have been written into the directory at the location, each into a
file of its own, and nothing else has happened. -/
structure FilesOf (dir : Path) (F : Location) (ps : List Phase) (d d₁ : Disk) : Prop where
  /-- The file of a phase is named by its place in the dump and its name. -/
  named : ∀ p ∈ ps, p.file = some (Path.text ⟨dir.anchor,
    dir.parts ++ [Text.ofNat p.absoluteOrdinal ++ ". " ++ p.name ++ ".dot"]⟩)
  distinct : (ps.map Phase.file).Nodup
  /-- The files in the directory, and further down, are the files of the phases. -/
  files : ∀ loc content, F <+: loc →
    (d₁.tree.get? loc = some (.file content) ↔ ∃ p ∈ ps,
      loc = F ++ [Text.ofNat p.absoluteOrdinal ++ ". " ++ p.name ++ ".dot"] ∧
        content = Text.toUtf8 p.graph)
  /-- The graph of a phase is read from its file. -/
  reads : ∀ p ∈ ps, ∀ file, p.file = some file → d₁.readBytes file = .ok (Text.toUtf8 p.graph)
  /-- Everything else is as it was. -/
  others : ∀ loc, (∀ p ∈ ps, loc ≠ F ++ [p.fileName]) → d₁.tree.get? loc = d.tree.get? loc

/-- Phases that are written into an empty directory, under different names, are all its files. -/
theorem Writes.filesOf (h : Writes dir ps d d₁) (hdir : dir.Proper)
    (hplace : d.place dir.text = some F) (hdirectory : d.tree.get? F = some .directory)
    (hempty : ∀ loc, F <+: loc → loc ≠ F → ∀ e, d.tree.get? loc = some e → e = .directory)
    (hnames : (ps.map Phase.fileName).Nodup) : FilesOf dir F ps d d₁ := by
  -- Below an empty directory there are no links, so that every phase has its file at its name.
  have hlinks : ∀ loc, F <+: loc → d.tree.link? loc = none := by
    intro loc hloc
    unfold FileTree.link?
    by_cases hself : loc = F
    · rw [hself, hdirectory]
    · cases he : d.tree.get? loc with
      | none => rfl
      | some e => rw [hempty loc hloc hself e he]
  have hfilled := h.filled hdir hplace hlinks
  have hcontents := h.contents hdir hplace hlinks hnames
  have hpath : ∀ p ∈ ps, p.pathIn dir = ⟨dir.anchor, dir.parts ++ [p.fileName]⟩ := fun p hp =>
    Phase.pathIn_eq (h.storedIn p hp).no_slash
  refine ⟨?_, ?_, ?_, ?_, hfilled.others⟩
  · intro p hp
    rw [(h.storedIn p hp).file, hpath p hp]
    rfl
  · -- Paths that are written alike lead to one location, and this tells the name.
    unfold List.Nodup at hnames ⊢
    rw [List.pairwise_map] at hnames ⊢
    refine hnames.imp_of_mem ?_
    intro p q hp hq hne heq
    rw [(h.storedIn p hp).file, (h.storedIn q hq).file] at heq
    have hloc := (hcontents p hp).1
    rw [Option.some.inj heq, (hcontents q hq).1] at hloc
    have hsame : q.fileName = p.fileName := by simpa using Except.ok.inj hloc
    exact hne hsame.symm
  · intro loc content hloc
    constructor
    · intro hfile
      by_cases hphase : ∃ p ∈ ps, loc = F ++ [p.fileName]
      · obtain ⟨p, hp, rfl⟩ := hphase
        rw [(hcontents p hp).2.1] at hfile
        cases hfile
        exact ⟨p, hp, rfl, rfl⟩
      · rw [hfilled.others loc fun p hp heq => hphase ⟨p, hp, heq⟩] at hfile
        by_cases hself : loc = F
        · rw [hself, hdirectory] at hfile
          cases hfile
        · have hnone := hempty loc hloc hself _ hfile
          cases hnone
    · rintro ⟨p, hp, rfl, rfl⟩
      exact (hcontents p hp).2.1
  · intro p hp file hfile
    rw [(h.storedIn p hp).file] at hfile
    obtain rfl := Option.some.inj hfile
    exact readBytes_eq_ok.2 ⟨_, hcontents p hp⟩

end Contents

/-! ### Disks that refuse writes -/

section Storing

/-- The store writes a phase into its file of the directory, or it refuses to and leaves the disk
alone. It may have a state besides the disk and refuse for any reason. -/
structure StoresIn (dir : Path) (disk : σ → Disk)
    (store : Phase → StateM σ (Except LogRecord Phase)) : Prop where
  kept : ∀ p s q, ((store p).run s).1 = .ok q → q = { p with file := some (p.pathIn dir).text } ∧
    (disk s).writeBytes (p.pathIn dir).text (Text.toUtf8 p.graph) = .ok (disk ((store p).run s).2)
  refused : ∀ p s w, ((store p).run s).1 = .error w → disk ((store p).run s).2 = disk s

/-- Storing in a folder writes or refuses. -/
theorem storesIn_storeIn (dir : Path) : StoresIn dir id (storeIn dir) := by
  constructor
  · intro p d q h
    rcases storeIn_cases dir p d with ⟨d₁, hwrite, hrun⟩ | ⟨w, hrun⟩
    · rw [hrun] at h ⊢
      exact ⟨(Except.ok.inj h).symm, hwrite⟩
    · rw [hrun] at h
      cases h
  · intro p d w h
    rcases storeIn_cases dir p d with ⟨d₁, -, hrun⟩ | ⟨w, hrun⟩
    · rw [hrun] at h
      cases h
    · rw [hrun]

/-- It hands the phases back. -/
theorem StoresIn.handsBack (h : StoresIn dir disk store) : HandsBack store := by
  intro p s q hq
  obtain ⟨rfl, -⟩ := h.kept p s q hq
  rfl

/-- The phases that are kept are written one after another. -/
theorem Made.writes (h : Made store s as s₁) (hstore : StoresIn dir disk store)
    (hnames : ∀ x ∈ as, Path.separator ∉ x.offered.name) :
    Writes dir (as.filterMap Attempt.kept?) (disk s) (disk s₁) := by
  induction h with
  | nil => exact .nil
  | @cons s s₁ x as houtcome hrest ih =>
    obtain ⟨hname, hnames⟩ := List.forall_mem_cons.1 hnames
    cases hresult : x.outcome with
    | ok q =>
      rw [hresult] at houtcome
      obtain ⟨rfl, hwrite⟩ := hstore.kept x.offered s q houtcome
      rw [List.filterMap_cons_some (Attempt.kept?_eq_some_iff.2 hresult)]
      exact .cons ⟨rfl, hname⟩ hwrite (ih hnames)
    | error w =>
      rw [hresult] at houtcome
      have hnone : x.kept? = none := by rw [Attempt.kept?, hresult]; rfl
      rw [List.filterMap_cons_none hnone, ← hstore.refused x.offered s w houtcome]
      exact ih hnames

/-- A dump that is split into a directory that is empty but for directories leaves the files of its
phases there. -/
theorem filesOf_number (hstore : StoresIn dir disk store) (hdir : dir.Proper) (s : σ)
    (hplace : (disk s).place dir.text = some F) (hdirectory : (disk s).tree.get? F = some .directory)
    (hempty : ∀ loc, F <+: loc → loc ≠ F → ∀ e, (disk s).tree.get? loc = some e → e = .directory)
    (fs : List Text) :
    FilesOf dir F (Split.ofResults ((number store 0 0 fs).run s).1).phases (disk s)
      (disk ((number store 0 0 fs).run s).2) := by
  obtain ⟨as, has⟩ := exists_counted hstore.handsBack fs s
  have hnames : ∀ x ∈ as, Path.separator ∉ x.offered.name := by
    intro x hx
    obtain ⟨before, after, heq⟩ := List.append_of_mem hx
    obtain ⟨_, _, -, -, hoffered⟩ := has.offered before x after heq
    rw [hoffered]
    exact not_mem_fileNameOf x.name
  have hwrites := has.made.writes hstore hnames
  rw [← has.phases] at hwrites
  exact hwrites.filesOf hdir hplace hdirectory hempty (nodup_fileName has.absolute)

end Storing

/-! ### Splitting into an empty directory -/

section Splitting

/-- A directory that is empty, or was created, holds directories at most. -/
theorem exists_place_of_makePath (hempty : d.IsEmptyAt dir)
    (h : StateT.run (makePath dir).run d = (.ok (), d₂)) :
    ∃ F, d.place dir.text = some F ∧ d₂.place dir.text = some F ∧
      d₂.tree.get? F = some .directory ∧
      ∀ loc, F <+: loc → loc ≠ F → ∀ e, d₂.tree.get? loc = some e → e = .directory := by
  obtain ⟨F, hplace, hdirectory⟩ := place_of_makePath h
  have hgrows := grows_makePath dir d
  rw [h] at hgrows
  have hbefore : d.place dir.text = some F := (hgrows.place_eq _).symm.trans hplace
  refine ⟨F, hbefore, hplace, hdirectory, ?_⟩
  intro loc hloc hne e he
  by_contra hother
  exact hne (hempty F loc e hbefore hloc (hgrows.get?_of_ne he hother))

/-- A dump is split into an empty directory, which is there or is created. The directory then holds one
file for each phase, with its graph, and no other file; and apart from the directory itself and those
above it nothing else has changed. A directory that was there is always filled. All this is so also when
the disk refuses some of the writes. -/
theorem splitInto_files (hdir : dir.Proper) (hempty : d.IsEmptyAt dir) (dump : Text) :
    (d.isDirectory dir.text = .ok true → ∃ F s d₁,
        StateT.run (splitInto dir dump).run d = (.ok s, d₁) ∧ d.place dir.text = some F ∧
          FilesOf dir F s.phases d d₁) ∧
      (∀ s d₁, StateT.run (splitInto dir dump).run d = (.ok s, d₁) →
        ∃ F d₂, StateT.run (makePath dir).run d = (.ok (), d₂) ∧
          d.GrowsAt (fun q => q.anchor = dir.anchor ∧ q.parts <+: dir.parts) d₂ ∧
          d.place dir.text = some F ∧ FilesOf dir F s.phases d₂ d₁) ∧
      ∀ (σ : Type) (disk : σ → Disk) (store : Phase → StateM σ (Except LogRecord Phase)),
        StoresIn dir disk store → ∀ s, StateT.run (makePath dir).run d = (.ok (), disk s) →
          ∃ F, d.place dir.text = some F ∧
            FilesOf dir F (Split.ofResults ((number store 0 0 (fragments dump)).run s).1).phases
              (disk s) (disk ((number store 0 0 (fragments dump)).run s).2) := by
  have hrefusing : ∀ (σ : Type) (disk : σ → Disk) (store : Phase → StateM σ (Except LogRecord Phase)),
      StoresIn dir disk store → ∀ s, StateT.run (makePath dir).run d = (.ok (), disk s) →
        ∃ F, d.place dir.text = some F ∧
          FilesOf dir F (Split.ofResults ((number store 0 0 (fragments dump)).run s).1).phases
            (disk s) (disk ((number store 0 0 (fragments dump)).run s).2) := by
    intro σ disk store hstore s hmake
    obtain ⟨F, hbefore, hplace, hdirectory, hrest⟩ := exists_place_of_makePath hempty hmake
    exact ⟨F, hbefore, filesOf_number hstore hdir s hplace hdirectory hrest (fragments dump)⟩
  refine ⟨fun hthere => ?_, fun s d₁ h => ?_, hrefusing⟩
  · have hmake := run_makePath_of_isDirectory hthere
    obtain ⟨F, hplace, hfiles⟩ := hrefusing Disk id (storeIn dir) (storesIn_storeIn dir) d hmake
    refine ⟨F, _, _, ?_, hplace, hfiles⟩
    rw [run_splitInto, hmake]
    rfl
  · have hgrows := growsAt_makePath dir d
    rw [run_splitInto] at h
    rcases hmake : StateT.run (makePath dir).run d with ⟨f | u, d₂⟩
    · rw [hmake] at h
      cases h
    · rw [hmake] at h hgrows
      obtain ⟨hs, rfl⟩ := Prod.mk.inj h
      obtain rfl := Except.ok.inj hs
      obtain ⟨F, hplace, hfiles⟩ := hrefusing Disk id (storeIn dir) (storesIn_storeIn dir) d₂ hmake
      exact ⟨F, d₂, rfl, hgrows, hplace, hfiles⟩

/-- A disk with an empty folder. -/
def emptyFolder : Disk := { tree := FileTree.empty.put ["g"] .directory, cwd := [] }

/-- Labels that look like paths, or repeat, become files of their own in the folder. -/
theorem splitInto_files_of_labels :
    let dir : Path := ⟨.root, ["g"]⟩
    let dump := sampleGraph "../x" ++ sampleGraph "/g/1. .\x5cx.dot" ++ sampleGraph "../x"
    dir.Proper ∧ emptyFolder.IsEmptyAt dir ∧ emptyFolder.isDirectory dir.text = .ok true ∧
      ∃ F s d₁, StateT.run (splitInto dir dump).run emptyFolder = (.ok s, d₁) ∧
        emptyFolder.place dir.text = some F ∧ FilesOf dir F s.phases emptyFolder d₁ ∧
        s.phases.map Phase.file = ([some "/g/1. .._x.dot", some "/g/2. _g_1. ._x.dot.dot",
          some "/g/3. .._x.dot"] : List (Option Text)) := by
  intro dir dump
  have hdir : dir.Proper := List.forall_mem_singleton.2 ⟨by decide, by decide, by decide⟩
  have hempty : emptyFolder.IsEmptyAt dir := by
    intro F loc e hplace hloc hentry
    have hF : emptyFolder.place dir.text = some dir.parts := by decide +kernel
    obtain rfl : dir.parts = F := Option.some.inj (hF.symm.trans hplace)
    obtain ⟨rest, rfl⟩ := hloc
    cases rest with
    | nil => exact List.append_nil _
    | cons n rest =>
      have hinside : emptyFolder.tree.inside dir.parts = .empty := by decide +kernel
      rw [FileTree.get?_append _ _ (List.cons_ne_nil n rest), hinside] at hentry
      cases hentry
  have hthere : emptyFolder.isDirectory dir.text = .ok true := by decide +kernel
  obtain ⟨F, s, d₁, hrun, hplace, hfiles⟩ := (splitInto_files hdir hempty dump).1 hthere
  have hnames : (StateT.run (splitInto dir dump).run emptyFolder).1.toOption.map
      (fun s => s.phases.map Phase.file) = some ([some "/g/1. .._x.dot",
        some "/g/2. _g_1. ._x.dot.dot", some "/g/3. .._x.dot"] : List (Option Text)) := by
    decide +kernel
  rw [hrun] at hnames
  exact ⟨hdir, hempty, hthere, F, s, d₁, hrun, hplace, hfiles, Option.some.inj hnames⟩

end Splitting

end FlowGraph

end JitInspect
