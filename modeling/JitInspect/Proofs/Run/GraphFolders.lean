import JitInspect.Proofs.FlowGraph.Folder
import JitInspect.Proofs.Run.Presentation
import JitInspect.Proofs.Text.Hex
import JitInspect.Session.Basic

/-!
# The folders of flow graphs that runs leave

A run that splits a dump leaves one new folder behind, whose name is the identifier that the run has
drawn; every other run leaves no folder (`Request.FolderLeft`). A result owns the folder that holds its
phases (`RunResult.Owns`); it owns only one, and none if it has no phases. To discard a result is to
remove the folder that it owns.

What the folders hold is kept in an inventory (`Workshop.Inventory`), which every run extends and every
discarding cuts down.
-/

namespace JitInspect

open JitInspect.Action

/-- The name is that of a folder of flow graphs. -/
def IsGraphName (c : Text) : Prop := ∃ n, c = Text.hex identifierLength n

/-- Where the folder of an identifier is, when the folders stand at the location. -/
def graphLocation (G : Location) (n : ℕ) : Location := G ++ [Text.hex identifierLength n]

variable {ws : Workshop} {r : Request} {G : Location} {w w₁ : World} {d d₁ : Disk} {x : RunResult}
  {n m : ℕ} {ps : List FlowGraph.Phase}

/-- An identifier is one name. -/
theorem isName_identifier (n : ℕ) : Path.IsName (Text.hex identifierLength n) :=
  Text.isName_hex (by decide)

theorem identifier_ne_dots (n : ℕ) : Text.hex identifierLength n ≠ ['.', '.'] :=
  Text.hex_ne_dots (by decide)

/-- Nothing is done to the folders of flow graphs, nor to the way to them. -/
abbrev Workshop.Spares (ws : Workshop) (G : Location) (d d₁ : Disk) : Prop :=
  Disk.Spares ws.graphs G IsGraphName d d₁

/-- Nothing is done to the folders of flow graphs but to one of them. -/
abbrev Workshop.SparesAllBut (ws : Workshop) (G : Location) (n : ℕ) (d d₁ : Disk) : Prop :=
  Disk.Spares ws.graphs G (fun c => IsGraphName c ∧ c ≠ Text.hex identifierLength n) d d₁

/-- Sparing the folders with other names is sparing all but one. -/
theorem Workshop.sparesAllBut_of_others
    (h : Disk.Spares ws.graphs G (· ≠ Text.hex identifierLength n) d d₁) : ws.SparesAllBut G n d d₁ :=
  h.mono fun _ hc => hc.2

/-- Who spares all folders spares all but one. -/
theorem Workshop.Spares.allBut (h : ws.Spares G d d₁) (n : ℕ) : ws.SparesAllBut G n d d₁ :=
  Disk.Spares.mono h fun _ hc => hc.1

/-! ### The inventory of the folders -/

section Inventory

/-- The inventory of the folders: which of them hold which phases. The others are bare. -/
structure Workshop.Inventory (G : Location) (d : Disk) (listed : ℕ → List FlowGraph.Phase → Prop) :
    Prop where
  holds : ∀ n ps, listed n ps → FlowGraph.Holds d (graphLocation G n) ps
  bare : ∀ n, (∀ ps, ¬ listed n ps) → d.Bare (graphLocation G n)

namespace Workshop.Inventory

variable {listed : ℕ → List FlowGraph.Phase → Prop}

/-- An inventory holds as long as the folders are spared. -/
theorem of_spares (h : Inventory G d listed) (hspares : ws.Spares G d d₁) : Inventory G d₁ listed where
  holds n ps hn := (h.holds n ps hn).of_spares hspares ⟨n, rfl⟩
  bare n hn := (h.bare n hn).of_spares hspares ⟨n, rfl⟩

theorem congr {others : ℕ → List FlowGraph.Phase → Prop} (h : Inventory G d listed)
    (hsame : ∀ n ps, listed n ps ↔ others n ps) : Inventory G d others where
  holds n ps hn := h.holds n ps ((hsame n ps).2 hn)
  bare n hn := h.bare n fun ps hps => hn ps ((hsame n ps).1 hps)

/-- One folder is filled. -/
theorem fill (h : Inventory G d listed) (hspares : ws.SparesAllBut G n d d₁)
    (hholds : FlowGraph.Holds d₁ (graphLocation G n) ps) (hfresh : ∀ qs, ¬ listed n qs) :
    Inventory G d₁ fun m qs => listed m qs ∨ m = n ∧ qs = ps where
  holds m qs hm := by
    rcases hm with hm | ⟨rfl, rfl⟩
    · have hne : m ≠ n := fun heq => hfresh qs (heq ▸ hm)
      exact (h.holds m qs hm).of_spares hspares ⟨⟨m, rfl⟩, fun heq => hne (Text.hex_injective heq)⟩
    · exact hholds
  bare m hm := by
    have hne : m ≠ n := fun heq => hm ps (Or.inr ⟨heq, rfl⟩)
    exact (h.bare m fun qs hqs => hm qs (Or.inl hqs)).of_spares hspares
      ⟨⟨m, rfl⟩, fun heq => hne (Text.hex_injective heq)⟩

/-- One folder is emptied. -/
theorem empty (h : Inventory G d listed) (hspares : ws.SparesAllBut G n d d₁)
    (hbare : d₁.Bare (graphLocation G n)) : Inventory G d₁ fun m qs => listed m qs ∧ m ≠ n where
  holds m qs hm := (h.holds m qs hm.1).of_spares hspares
    ⟨⟨m, rfl⟩, fun heq => hm.2 (Text.hex_injective heq)⟩
  bare m hm := by
    by_cases hne : m = n
    · exact hne ▸ hbare
    · exact (h.bare m fun qs hqs => hm qs ⟨hqs, hne⟩).of_spares hspares
        ⟨⟨m, rfl⟩, fun heq => hne (Text.hex_injective heq)⟩

end Workshop.Inventory

end Inventory

/-! ### What a run leaves -/

section Runs

namespace Request

/-- What a run leaves in the folders of flow graphs: nothing, or one new folder with its phases. The
latter is what a run leaves that is completed and was asked for flow graphs. -/
inductive FolderLeft (ws : Workshop) (G : Location) (r : Request) (w : World) :
    Except Failure RunResult → World → Prop where
  | none {e : Except Failure RunResult} {w₁ : World} (hspares : ws.Spares G w.disk w₁.disk)
      (hids : w.identifiers ≤ w₁.identifiers)
      (hnone : ∀ x, e = .ok x → x.phases = [] ∧
        ¬ (x.status = .completed ∧ r.settings.flowGraphs = true)) : FolderLeft ws G r w e w₁
  | new {x : RunResult} {w₁ : World} (hids : w.identifiers < w₁.identifiers)
      (hcompleted : x.status = .completed ∧ r.settings.flowGraphs = true)
      (hspares : ws.SparesAllBut G w₁.identifiers w.disk w₁.disk)
      (hstored : ∀ p ∈ x.phases, p.StoredIn (ws.graphFolder w₁.identifiers))
      (hholds : FlowGraph.Holds w₁.disk (graphLocation G w₁.identifiers) x.phases) :
      FolderLeft ws G r w (.ok x) w₁

/-- Cleaning up draws no identifier. -/
theorem identifiers_cleanUpAfter (ws : Workshop) (r : Request) (e : Except Failure RunResult)
    (w : World) : ((r.cleanUpAfter ws e).perform w).2.identifiers = w.identifiers := by
  obtain ⟨log, hclean⟩ := perform_cleanUp w
  cases e with
  | ok x =>
    change (cleanUp.perform w).2.identifiers = _
    rw [hclean]
  | error f =>
    change ((if r.keepsFiles ws f then pure () else cleanUp : Action Unit).perform w).2.identifiers = _
    by_cases hkeeps : r.keepsFiles ws f = true
    · rw [if_pos hkeeps]
      rfl
    · rw [if_neg hkeeps, hclean]

/-- What is done before a run presents its result, and what is done behind that, stays away from the
folders of flow graphs. -/
structure Minds (ws : Workshop) (G : Location) (r : Request) (w : World) : Prop where
  prepares : ws.Spares G w.disk ((r.prepare ws).perform { w with toDelete := [] }).2.disk
  cleansUp : ws.Spares G (r.performStages ws w).2.disk ((r.run ws).perform w).2.disk

/-- What is left stays left when the folders are spared before and behind. -/
theorem FolderLeft.widen {e : Except Failure RunResult} {v v₁ : World}
    (h : r.FolderLeft ws G v e v₁) (hbefore : ws.Spares G w.disk v.disk)
    (hidsBefore : w.identifiers ≤ v.identifiers) (hbehind : ws.Spares G v₁.disk w₁.disk)
    (hidsBehind : w₁.identifiers = v₁.identifiers) : r.FolderLeft ws G w e w₁ := by
  cases h with
  | none hspares hids hnone =>
    refine .none (Disk.Frame.trans hbefore (Disk.Frame.trans hspares hbehind)) ?_ hnone
    exact hidsBehind ▸ Nat.le_trans hidsBefore hids
  | new hids hcompleted hspares hstored hholds =>
    refine .new (hidsBehind ▸ Nat.lt_of_le_of_lt hidsBefore hids) hcompleted ?_ ?_ ?_
    · rw [hidsBehind]
      exact Disk.Frame.trans (hbefore.allBut _) (Disk.Frame.trans hspares (hbehind.allBut _))
    · rw [hidsBehind]
      exact hstored
    · rw [hidsBehind]
      exact hholds.of_spares hbehind ⟨_, rfl⟩

/-- What a run hands back when it has failed has no phases, and the run is not completed. -/
theorem handBack_error {f : Failure} (h : r.handBack ws (.error f) = .ok x) :
    x.phases = [] ∧ ¬ (x.status = .completed ∧ r.settings.flowGraphs = true) := by
  rcases handBack_eq_ok h with hok | ⟨hphases, hstatus⟩
  · cases hok
  · exact ⟨hphases, fun hcompleted => hstatus hcompleted.1⟩

/-- What the presentation of a result leaves. -/
theorem folderLeft_of_presented {file : Option Text} {e : Except Failure RunResult}
    (hproper : ws.graphs.Proper) (hroots : w.disk.Roots ws.graphs G)
    (hbare : w.disk.Bare (graphLocation G (w.identifiers + 1)))
    (hfile : file.isSome = r.settings.flowGraphs) (h : Presented ws file w e w₁) :
    r.FolderLeft ws G w (r.handBack ws e) w₁ := by
  cases h with
  | unsplit hdisk hids hnone =>
    refine .none (hdisk ▸ Disk.Frame.refl _) hids fun x hx => ?_
    cases e with
    | error f => exact handBack_error hx
    | ok y =>
      obtain rfl := Except.ok.inj hx
      obtain ⟨hphases, hnofile⟩ := hnone y rfl
      refine ⟨hphases, fun hcompleted => ?_⟩
      rw [hnofile hcompleted.1, hcompleted.2] at hfile
      cases hfile
  | failed hids hsplit =>
    refine .none ?_ (hids ▸ Nat.le_succ _) fun x hx => handBack_error hx
    exact FlowGraph.spares_of_splitInto_error hroots (isName_identifier _) hsplit
  | split hsome hids hsplit hstatus hphases =>
    obtain ⟨hholds, hothers⟩ := FlowGraph.holds_of_splitInto hroots hproper (isName_identifier _)
      (identifier_ne_dots _) hbare hsplit
    have hgraphs : r.settings.flowGraphs = true := by
      rw [← hfile, Option.isSome_iff_ne_none]
      exact hsome
    refine .new (hids ▸ Nat.lt_succ_self _) ⟨hstatus, hgraphs⟩ ?_ ?_ ?_
    · rw [hids]
      exact Workshop.sparesAllBut_of_others hothers
    · rw [hids, hphases]
      exact FlowGraph.storedIn_of_splitInto hsplit
    · rw [hids, hphases]
      exact hholds

/-- What a run leaves that minds the folders, when none of those to come is there. -/
theorem folderLeft_run (hproper : ws.graphs.Proper) (hroots : w.disk.Roots ws.graphs G)
    (hbare : ∀ n, w.identifiers < n → w.disk.Bare (graphLocation G n)) (hminds : r.Minds ws G w) :
    r.FolderLeft ws G w ((r.run ws).perform w).1 ((r.run ws).perform w).2 := by
  have hprepares := hminds.prepares
  have hdraws := drawsInOrder_prepare ws r { w with toDelete := [] }
  have hids : ((r.run ws).perform w).2.identifiers = (r.performStages ws w).2.identifiers := by
    rw [perform_run_eq]
    exact identifiers_cleanUpAfter ws r _ _
  have hback : ((r.run ws).perform w).1 = r.handBack ws (r.performStages ws w).1 := by
    rw [perform_run_eq]
  rw [hback]
  rcases performStages_cases ws r w with ⟨f, hfails, hworld⟩ | ⟨j, file, l, v, hprepared, hstages⟩
  · have hleft : r.FolderLeft ws G (r.performStages ws w).2 (r.handBack ws (.error f))
        (r.performStages ws w).2 :=
      .none (Disk.Frame.refl _) (Nat.le_refl _) fun x hx => handBack_error hx
    rw [hfails]
    refine hleft.widen ?_ ?_ hminds.cleansUp hids
    · rw [hworld]
      exact hprepares
    · rw [hworld]
      exact hdraws
  · rw [hprepared] at hprepares hdraws
    have hbareNext : v.disk.Bare (graphLocation G (v.identifiers + 1)) :=
      (hbare _ (Nat.lt_succ_of_le hdraws)).of_spares hprepares ⟨_, rfl⟩
    have hpresented := presented_present ws j file l v
    rw [← hstages] at hpresented
    exact (folderLeft_of_presented hproper (hroots.of_spares hprepares) hbareNext
      (file_of_prepare hprepared) hpresented).widen hprepares hdraws hminds.cleansUp hids

end Request

end Runs

/-! ### Owners of folders -/

section Owners

namespace RunResult

/-- The folder of the identifier holds the phases of the result, of which there are some. -/
structure Owns (ws : Workshop) (x : RunResult) (n : ℕ) : Prop where
  nonempty : x.phases ≠ []
  stored : ∀ p ∈ x.phases, p.StoredIn (ws.graphFolder n)

/-- The folder of a run is written properly. -/
theorem proper_graphFolder (hproper : ws.graphs.Proper) (n : ℕ) : (ws.graphFolder n).Proper :=
  (Path.within_child ws.graphs (isName_identifier n).head?_ne).proper hproper

/-- A result owns one folder only. -/
theorem Owns.unique (hproper : ws.graphs.Proper) (hn : x.Owns ws n) (hm : x.Owns ws m) : n = m := by
  obtain ⟨p, ps, hphases⟩ := List.exists_cons_of_ne_nil hn.nonempty
  have hp : p ∈ x.phases := hphases ▸ List.mem_cons_self
  have hfolder : ws.graphFolder n = ws.graphFolder m := by
    refine Option.some.inj ?_
    rw [← (hn.stored p hp).parent_eq (proper_graphFolder hproper n),
      (hm.stored p hp).parent_eq (proper_graphFolder hproper m)]
  unfold Workshop.graphFolder at hfolder
  rw [Path.child_of_isName _ (isName_identifier n), Path.child_of_isName _ (isName_identifier m),
    Path.mk.injEq] at hfolder
  exact Text.hex_injective (List.cons.inj (List.append_cancel_left hfolder.2)).1

/-- It is the one folder that is removed with the result. -/
theorem Owns.folders_eq (h : x.Owns ws n) (hproper : ws.graphs.Proper) :
    x.folders = [ws.graphFolder n] := by
  have hall : ∀ qs : List FlowGraph.Phase, (∀ p ∈ qs, p.StoredIn (ws.graphFolder n)) →
      (qs.filterMap fun p => p.file.map fun f => (Path.ofText f).parent) =
        List.replicate qs.length (ws.graphFolder n) := by
    intro qs hqs
    induction qs with
    | nil => rfl
    | cons p qs ih =>
      obtain ⟨hp, hqs⟩ := List.forall_mem_cons.1 hqs
      simp only [List.filterMap_cons, hp.parent_eq (proper_graphFolder hproper n), ih hqs]
      rfl
  unfold folders
  rw [hall _ h.stored]
  obtain ⟨k, hk⟩ := Nat.exists_eq_succ_of_ne_zero (mt List.length_eq_zero_iff.1 h.nonempty)
  rw [hk, List.replicate_succ, List.eraseDups_cons, List.filter_eq_nil_iff.2, List.eraseDups_nil]
  intro folder hfolder
  simp [List.eq_of_mem_replicate hfolder]

/-- A result without phases is discarded by doing nothing, -/
theorem perform_discard_of_nil (h : x.phases = []) (w : World) :
    x.discard.perform w = (.ok (), w) := by
  unfold discard folders
  rw [h]
  rfl

/-- and a result with phases by removing its folder, if nothing hinders that. -/
theorem Owns.perform_discard (h : x.Owns ws n) (hproper : ws.graphs.Proper)
    (hremove : w.disk.removeTree (ws.graphFolder n).text = .ok d) :
    x.discard.perform w = (.ok (), { w with disk := d }) := by
  have hfolder : (removeFolder (ws.graphFolder n)).perform w = (.ok (), { w with disk := d }) := by
    unfold removeFolder
    rw [perform_bind_of_ok (perform_get w), hremove]
    rfl
  unfold discard
  rw [h.folders_eq hproper]
  exact perform_bind_of_ok hfolder

/-- The folders of the result can be removed. -/
def Removable (x : RunResult) (d : Disk) : Prop :=
  ∀ folder ∈ x.folders, ∃ d₁, d.removeTree folder.text = .ok d₁

/-- The phases of a result with phases are in one folder. -/
def Housed (ws : Workshop) (x : RunResult) : Prop := x.phases ≠ [] → ∃ n, x.Owns ws n

/-- A result that is discarded takes its folder out of the inventory, and nothing else. -/
theorem inventory_discard {listed : ℕ → List FlowGraph.Phase → Prop} (hproper : ws.graphs.Proper)
    (hroots : w.disk.Roots ws.graphs G) (h : Workshop.Inventory G w.disk listed) (hhoused : x.Housed ws)
    (hholds : ∀ n, x.Owns ws n → listed n x.phases) (hremovable : x.Removable w.disk) :
    ∃ d, x.discard.perform w = (.ok (), { w with disk := d }) ∧ d.Roots ws.graphs G ∧
      Workshop.Inventory G d fun n ps => listed n ps ∧ ¬ x.Owns ws n := by
  by_cases hphases : x.phases = []
  · have hnot : ∀ n, ¬ x.Owns ws n := fun n hn => hn.nonempty hphases
    refine ⟨w.disk, perform_discard_of_nil hphases w, hroots, ?_⟩
    exact ⟨fun n ps hn => h.holds n ps hn.1, fun n hn => h.bare n fun ps hps => hn ps ⟨hps, hnot n⟩⟩
  · obtain ⟨n, hn⟩ := hhoused hphases
    obtain ⟨d, hremove⟩ := hremovable (ws.graphFolder n) (by rw [hn.folders_eq hproper]; simp)
    obtain ⟨hbare, hothers⟩ := FlowGraph.bare_of_removeTree hroots hproper (isName_identifier n)
      (identifier_ne_dots n) (h.holds n _ (hholds n hn)) hremove
    have hempty := h.empty (Workshop.sparesAllBut_of_others hothers) hbare
    have hsame : ∀ m, x.Owns ws m ↔ m = n := fun m =>
      ⟨fun hm => hm.unique hproper hn, fun heq => heq ▸ hn⟩
    refine ⟨d, hn.perform_discard hproper hremove, hroots.of_spares hothers, ?_⟩
    simp only [hsame]
    exact hempty

end RunResult

end Owners

end JitInspect
