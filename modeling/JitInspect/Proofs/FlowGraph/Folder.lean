import JitInspect.Proofs.FileTree.Places
import JitInspect.Proofs.FlowGraph.Stored

/-!
# Folders of flow graphs

The folders of flow graphs stand side by side in one directory, the root. A root is at a location
(`Disk.Roots`), and whatever stays away from some of its folders leaves them and the way to them alone
(`Disk.Spares`). A dump that is split into a folder of the root fills that folder with the files of its
phases and spares the others (`FlowGraph.holds_of_splitInto`). A folder that is removed is bare, and the
others are spared again (`FlowGraph.bare_of_removeTree`).
-/

namespace JitInspect

/-- The first path is the second one or stands above it. -/
def Path.Above (q p : Path) : Prop := q.anchor = p.anchor ∧ q.parts <+: p.parts

namespace Disk

variable {d d₁ d₂ : Disk} {root : Path} {G loc : Location} {c k : Text} {which : Text → Prop}

/-! ### The root -/

section Roots

/-- The root leads to the location, and no directory above it stands further down. -/
structure Roots (d : Disk) (root : Path) (G : Location) : Prop where
  place : d.place root.text = some G
  apart : ∀ (q : Path) (loc : Location), q.Above root → d.place q.text = some loc → G <+: loc →
    loc = G

/-- The way to the root is the same on both disks, and so is all that is in some of its folders. -/
structure Spares (root : Path) (G : Location) (which : Text → Prop) (d d₁ : Disk) : Prop where
  places : ∀ q : Path, q.Above root → d₁.place q.text = d.place q.text
  entries : ∀ c loc, which c → G ++ [c] <+: loc → d₁.tree.get? loc = d.tree.get? loc

instance : Frame (Spares root G which) where
  refl _ := ⟨fun _ _ => rfl, fun _ _ _ _ => rfl⟩
  trans h h₁ :=
    ⟨fun q hq => (h₁.places q hq).trans (h.places q hq),
      fun c loc hc hloc => (h₁.entries c loc hc hloc).trans (h.entries c loc hc hloc)⟩

theorem Spares.mono {some : Text → Prop} (h : Spares root G which d d₁) (hsome : ∀ c, some c → which c) :
    Spares root G some d d₁ :=
  ⟨h.places, fun c loc hc => h.entries c loc (hsome c hc)⟩

/-- The root stays when folders in it are spared. -/
theorem Roots.of_spares (h : d.Roots root G) (hspares : Spares root G which d d₁) :
    d₁.Roots root G where
  place := (hspares.places root ⟨rfl, List.prefix_refl _⟩).trans h.place
  apart q loc hq hplace := h.apart q loc hq ((hspares.places q hq).symm.trans hplace)

/-- Nothing above the root, nor the root itself, is in one of its folders. -/
theorem Roots.not_in_folder (h : d.Roots root G) {q : Path} (hq : q.Above root)
    (hplace : d.place q.text = some loc) (c : Text) : ¬ G ++ [c] <+: loc := by
  intro hin
  have hG : loc = G := h.apart q loc hq hplace ((List.prefix_append G [c]).trans hin)
  have hlength := hin.length_le
  rw [hG, List.length_append, List.length_singleton] at hlength
  omega

/-- No location is in two folders. -/
theorem eq_of_in_folders (hc : G ++ [c] <+: loc) (hk : G ++ [k] <+: loc) : c = k := by
  obtain ⟨rest, rfl⟩ := hc
  obtain ⟨rest₁, hrest⟩ := hk
  rw [List.append_assoc, List.append_assoc] at hrest
  exact (List.cons.inj (List.append_cancel_left hrest)).1.symm

/-- Nothing is at the location or below it. -/
def Bare (d : Disk) (F : Location) : Prop := ∀ loc, F <+: loc → d.tree.get? loc = none

/-- A place at which no folder is stays bare when it is spared. -/
theorem Bare.of_spares (h : d.Bare (G ++ [c])) (hspares : Spares root G which d d₁) (hc : which c) :
    d₁.Bare (G ++ [c]) :=
  fun loc hloc => (hspares.entries c loc hc hloc).trans (h loc hloc)

/-- No link is at a bare place. -/
theorem Bare.link? (h : d.Bare loc) : d.tree.link? loc = none := by
  rw [FileTree.link?, h loc (List.prefix_refl _)]

/-- A folder that cannot be created leaves all folders alone. -/
theorem Roots.spares_of_makePath_error {f : FileFault} (hroots : d.Roots root G)
    (hname : Path.IsName c)
    (h : StateT.run (makePath (root.child c)).run d = (.error f, d₁)) : Spares root G which d d₁ := by
  have hgrows := growsAt_of_makePath_eq_error h
  refine ⟨fun q _ => hgrows.place_eq q.text, fun k loc _ hloc => ?_⟩
  rcases hgrows.entries loc with hsame | ⟨hnone, hnew⟩
  · exact hsame
  · -- What has been created stands above the root.
    obtain ⟨q, ⟨hanchor, hparts⟩, hplace⟩ := hgrows.places loc hnone (by rw [hnew]; simp)
    rw [Path.child_of_isName root hname] at hanchor hparts
    have habove : q.Above root := ⟨hanchor, by simpa using hparts⟩
    exact absurd hloc (hroots.not_in_folder habove hplace k)

variable (hroots : d.Roots root G) (hproper : root.Proper) (hname : Path.IsName c)
  (hdots : c ≠ ['.', '.'])
include hroots hproper hname hdots

/-- The place of a folder, unless there is a link. -/
theorem Roots.place_folder (hlink : d.tree.link? (G ++ [c]) = none) :
    d.place (root.child c).text = some (G ++ [c]) :=
  place_child hproper hname hdots hroots.place hlink

/-- A folder that is created where nothing was is there, with nothing in it, and the others are spared. -/
theorem Roots.holds_of_makePath (hbare : d.Bare (G ++ [c]))
    (h : StateT.run (makePath (root.child c)).run d = (.ok (), d₁)) :
    d.Grows d₁ ∧ Spares root G (· ≠ c) d d₁ ∧ d₁.tree.get? (G ++ [c]) = some .directory ∧
      ∀ loc, G ++ [c] <+: loc → d₁.tree.get? loc ≠ none → loc = G ++ [c] := by
  have hgrows := growsAt_makePath (root.child c) d
  rw [h] at hgrows
  have hplace := hroots.place_folder hproper hname hdots hbare.link?
  have hcreated : ∀ k loc, G ++ [k] <+: loc → d.tree.get? loc = none → d₁.tree.get? loc ≠ none →
      loc = G ++ [c] := by
    intro k loc hloc hnone hsome
    obtain ⟨q, ⟨hanchor, hparts⟩, hq⟩ := hgrows.places loc hnone hsome
    rw [Path.child_of_isName root hname] at hanchor hparts
    rcases List.prefix_concat_iff.1 hparts with heq | hparts
    · have hself : q = root.child c := by
        rw [Path.child_of_isName root hname, ← heq, ← hanchor]
      rw [hself, hplace] at hq
      exact (Option.some.inj hq).symm
    · exact absurd hloc (hroots.not_in_folder ⟨hanchor, hparts⟩ hq k)
  refine ⟨hgrows.toGrows, ⟨fun q _ => hgrows.place_eq q.text, fun k loc hk hloc => ?_⟩, ?_, ?_⟩
  · rcases hgrows.entries loc with hsame | ⟨hnone, hnew⟩
    · exact hsame
    · have hin := hcreated k loc hloc hnone (by rw [hnew]; simp)
      exact absurd (eq_of_in_folders hloc (hin ▸ List.prefix_refl _)) hk
  · obtain ⟨loc, hloc, hdirectory⟩ := place_of_makePath h
    rw [hgrows.place_eq, hplace] at hloc
    exact Option.some.inj hloc ▸ hdirectory
  · exact fun loc hloc => hcreated c loc hloc (hbare loc hloc)

end Roots

end Disk

namespace FlowGraph

open Disk

variable {d d₁ d₂ : Disk} {root dir : Path} {G F loc : Location} {c : Text} {ps : List Phase}
  {s : Split} {which : Text → Prop}

/-! ### What a folder holds -/

section Holding

/-- At the location is a directory that holds the files of the phases and nothing else. -/
structure Holds (d : Disk) (F : Location) (ps : List Phase) : Prop where
  directory : d.tree.get? F = some .directory
  files : ∀ p ∈ ps, ∃ content, d.tree.get? (F ++ [p.fileName]) = some (.file content)
  only : ∀ loc, F <+: loc → d.tree.get? loc ≠ none → loc = F ∨ ∃ p ∈ ps, loc = F ++ [p.fileName]

/-- A folder that is spared holds its phases. -/
theorem Holds.of_spares (h : Holds d (G ++ [c]) ps) (hspares : Spares root G which d d₁)
    (hc : which c) : Holds d₁ (G ++ [c]) ps where
  directory := (hspares.entries c _ hc (List.prefix_refl _)).trans h.directory
  files p hp := by
    obtain ⟨content, hcontent⟩ := h.files p hp
    exact ⟨content, (hspares.entries c _ hc (List.prefix_append _ _)).trans hcontent⟩
  only loc hloc hsome := h.only loc hloc (hspares.entries c loc hc hloc ▸ hsome)

/-- There is no link in the folder. -/
theorem Holds.link? (h : Holds d F ps) (hloc : F <+: loc) : d.tree.link? loc = none := by
  unfold FileTree.link?
  cases hentry : d.tree.get? loc with
  | none => rfl
  | some e =>
    rcases h.only loc hloc (by rw [hentry]; simp) with rfl | ⟨p, hp, rfl⟩
    · rw [h.directory] at hentry
      cases hentry
      rfl
    · obtain ⟨content, hcontent⟩ := h.files p hp
      rw [hcontent] at hentry
      cases hentry
      rfl

/-- A folder without phases is empty, and so it is not the folder of other phases. -/
theorem Holds.eq_nil (h : Holds d F []) (hps : Holds d F ps) : ps = [] := by
  cases ps with
  | nil => rfl
  | cons p ps =>
    obtain ⟨content, hcontent⟩ := hps.files p List.mem_cons_self
    rcases h.only _ (List.prefix_append F [p.fileName]) (by rw [hcontent]; simp) with heq | ⟨q, hq, -⟩
    · simp at heq
    · exact absurd hq List.not_mem_nil

end Holding

/-! ### Filling a folder -/

section Filling

/-- Both disks are the same but for the files of the phases, which are there on the second one. -/
structure Filled (F : Location) (ps : List Phase) (d d₁ : Disk) : Prop where
  cwd : d₁.cwd = d.cwd
  sameLinks : d.tree.SameLinks d₁.tree
  files : ∀ p ∈ ps, ∃ content, d₁.tree.get? (F ++ [p.fileName]) = some (.file content)
  others : ∀ loc, (∀ p ∈ ps, loc ≠ F ++ [p.fileName]) → d₁.tree.get? loc = d.tree.get? loc

/-- The place of the file of a phase, unless there is a link. -/
theorem Phase.StoredIn.place_pathIn {p : Phase} (hp : p.StoredIn dir) (hdir : dir.Proper)
    (hplace : d.place dir.text = some F) (hlink : d.tree.link? (F ++ [p.fileName]) = none) :
    d.place (p.pathIn dir).text = some (F ++ [p.fileName]) :=
  place_child hdir (Phase.isName_fileName hp.no_slash) (Phase.fileName_ne_dots p) hplace hlink

/-- A phase that is written is put into its file. -/
theorem Phase.StoredIn.written {p : Phase} (hp : p.StoredIn dir) (hdir : dir.Proper)
    (hplace : d.place dir.text = some F) (hlink : d.tree.link? (F ++ [p.fileName]) = none)
    (hwrite : d.writeBytes (p.pathIn dir).text (Text.toUtf8 p.graph) = .ok d₁) :
    d.locate (p.pathIn dir).text = .ok (F ++ [p.fileName]) ∧
      d.tree.Writable (F ++ [p.fileName]) ∧ d.barred (F ++ [p.fileName]) = false ∧
      d₁ = { d with tree := d.tree.put (F ++ [p.fileName]) (.file (Text.toUtf8 p.graph)) } := by
  have hfile := hp.place_pathIn hdir hplace hlink
  obtain ⟨loc, hlocate, hwritable, hopen, hd₁⟩ := writeBytes_eq_ok hwrite
  obtain rfl : loc = F ++ [p.fileName] :=
    Option.some.inj ((place_of_locate hlocate (Or.inl rfl)).symm.trans hfile)
  exact ⟨hlocate, hwritable, hopen, hd₁⟩

/-- The phases of a folder without links are written into files of this folder. -/
theorem Writes.filled (h : Writes dir ps d d₁) (hdir : dir.Proper) (hplace : d.place dir.text = some F)
    (hlinks : ∀ loc, F <+: loc → d.tree.link? loc = none) : Filled F ps d d₁ := by
  induction h with
  | nil => exact ⟨rfl, fun _ => rfl, fun p hp => absurd hp List.not_mem_nil, fun _ _ => rfl⟩
  | @cons p ps d d₁ d₂ hp hwrite hrest ih =>
    have hplaceRest : d₁.place dir.text = some F := (place_writeBytes hwrite dir.text).trans hplace
    obtain ⟨-, hwritable, -, rfl⟩ :=
      hp.written hdir hplace (hlinks _ (List.prefix_append _ _)) hwrite
    have hsame : d.tree.SameLinks (d.tree.put _ (.file (Text.toUtf8 p.graph))) := hwritable.sameLinks _
    obtain ⟨hcwd, hlinksRest, hfiles, hothers⟩ :=
      ih hplaceRest fun loc hloc => (hsame loc).trans (hlinks loc hloc)
    refine ⟨hcwd, fun loc => (hlinksRest loc).trans (hsame loc), ?_, fun loc hloc => ?_⟩
    · refine List.forall_mem_cons.2 ⟨?_, hfiles⟩
      -- A later phase may be written into the same file.
      by_cases hlater : ∃ q ∈ ps, F ++ [p.fileName] = F ++ [q.fileName]
      · obtain ⟨q, hq, heq⟩ := hlater
        exact heq ▸ hfiles q hq
      · refine ⟨Text.toUtf8 p.graph, (hothers _ fun q hq heq => hlater ⟨q, hq, heq⟩).trans ?_⟩
        exact FileTree.get?_put_self _ (by simp) _
    · rw [hothers loc fun q hq => hloc q (List.mem_cons_of_mem p hq)]
      exact FileTree.get?_put_of_ne _ (hloc p List.mem_cons_self) _

/-- A dump that cannot be split leaves all folders alone. -/
theorem spares_of_splitInto_error {dump : Text} {f : FileFault} (hroots : d.Roots root G)
    (hname : Path.IsName c) (h : StateT.run (splitInto (root.child c) dump).run d = (.error f, d₁)) :
    Spares root G which d d₁ :=
  hroots.spares_of_makePath_error hname (makePath_of_splitInto_error h)

variable (hroots : d.Roots root G) (hproper : root.Proper) (hname : Path.IsName c)
  (hdots : c ≠ ['.', '.'])
include hroots hproper hname hdots

/-- A dump that is split into a folder where nothing was fills the folder with its phases, and the
other folders are spared. -/
theorem holds_of_splitInto {dump : Text} (hbare : d.Bare (G ++ [c]))
    (h : StateT.run (splitInto (root.child c) dump).run d = (.ok s, d₁)) :
    Holds d₁ (G ++ [c]) s.phases ∧ Spares root G (· ≠ c) d d₁ := by
  obtain ⟨d₂, hmake, hwrites⟩ := writes_of_splitInto h
  obtain ⟨hgrows, hspares, hdirectory, honly⟩ :=
    hroots.holds_of_makePath hproper hname hdots hbare hmake
  have hempty : Holds d₂ (G ++ [c]) [] :=
    ⟨hdirectory, fun p hp => absurd hp List.not_mem_nil, fun loc hloc hsome => Or.inl (honly loc hloc hsome)⟩
  have hplace := (hroots.of_spares hspares).place_folder hproper hname hdots
    (hempty.link? (List.prefix_refl _))
  have hdir : (root.child c).Proper := (Path.within_child root hname.head?_ne).proper hproper
  have hfilled := hwrites.filled hdir hplace fun loc hloc => hempty.link? hloc
  have hself : ∀ p ∈ s.phases, G ++ [c] ≠ G ++ [c] ++ [p.fileName] := by simp
  refine ⟨⟨(hfilled.others _ hself).trans hdirectory, hfilled.files, fun loc hloc hsome => ?_⟩,
    Frame.trans hspares ⟨fun q _ => place_eq_of_sameLinks hfilled.cwd hfilled.sameLinks q.text,
      fun k loc hk hloc => hfilled.others loc fun p _ heq => ?_⟩⟩
  · by_cases hfile : ∃ p ∈ s.phases, loc = G ++ [c] ++ [p.fileName]
    · exact Or.inr hfile
    · rw [hfilled.others loc fun p hp heq => hfile ⟨p, hp, heq⟩] at hsome
      exact Or.inl (honly loc hloc hsome)
  · exact hk (eq_of_in_folders hloc (heq ▸ List.prefix_append _ _))

end Filling

/-! ### Reading and removing a folder -/

section Removing

variable (hroots : d.Roots root G) (hproper : root.Proper) (hname : Path.IsName c)
  (hdots : c ≠ ['.', '.']) (hholds : Holds d (G ++ [c]) ps)
include hroots hproper hname hdots hholds

/-- The phases that are stored in a folder that holds them lead to their files. -/
theorem Holds.stores {p : Phase} (hp : p ∈ ps) (hstored : p.StoredIn (root.child c)) :
    ∃ file content, p.file = some file ∧ d.Stores file content := by
  obtain ⟨content, hcontent⟩ := hholds.files p hp
  have hdir : (root.child c).Proper := (Path.within_child root hname.head?_ne).proper hproper
  have hplace := hroots.place_folder hproper hname hdots (hholds.link? (List.prefix_refl _))
  exact ⟨_, content, hstored.file, _, hstored.place_pathIn hdir hplace
    (hholds.link? (List.prefix_append _ _)), hcontent⟩

/-- A folder that is removed is bare, and the other folders are spared. -/
theorem bare_of_removeTree (h : d.removeTree (root.child c).text = .ok d₁) :
    d₁.Bare (G ++ [c]) ∧ Spares root G (· ≠ c) d d₁ := by
  have hplace := hroots.place_folder hproper hname hdots (hholds.link? (List.prefix_refl _))
  obtain ⟨loc, hlocate, hdirectory, rfl⟩ := removeTree_eq_ok h
  have hlink : d.tree.link? loc = none := by
    rw [FileTree.link?, hdirectory]
  obtain rfl : loc = G ++ [c] :=
    Option.some.inj ((place_of_locate hlocate (Or.inr hlink)).symm.trans hplace)
  have hsame : d.tree.SameLinks (d.tree.eraseWithin (G ++ [c])) := by
    intro loc
    by_cases hloc : G ++ [c] <+: loc
    · rw [hholds.link? hloc, FileTree.link?, FileTree.get?_eraseWithin_of_prefix _ (by simp) hloc]
    · unfold FileTree.link?
      rw [FileTree.get?_eraseWithin_of_not_prefix _ hloc]
  have hplaces : ∀ path,
      ({ d with tree := d.tree.eraseWithin (G ++ [c]) } : Disk).place path = d.place path :=
    place_eq_of_sameLinks rfl hsame
  refine ⟨fun loc hloc => FileTree.get?_eraseWithin_of_prefix _ (by simp) hloc,
    fun q _ => hplaces q.text, fun k loc hk hloc => ?_⟩
  exact FileTree.get?_eraseWithin_of_not_prefix _ fun hin => hk (eq_of_in_folders hloc hin)

end Removing

end FlowGraph

end JitInspect
