import JitInspect.Proofs.Run.GraphFolders
import JitInspect.Proofs.Session.Turns
import Mathlib.Logic.Relation

/-!
# The folders of flow graphs in a session

A session that runs requests is followed from moment to moment (`Session.Moment.Step`). While a run is
at work others may begin, be cancelled or give up waiting; what the run does until it has a result, and
what others do to the disk, is arbitrary, as long as it stays away from the folders of flow graphs.

The folder that holds the phases of the result that is shown is there at every moment, and the folders
of all results that were replaced or superseded are gone. One kind of folder remains for good: a run
that has split a dump without a single phase has created its folder, but its result has no phase that
would lead to it (`Session.Moment.reaches_keepsFolders`, `Session.Moment.folder_remains`).
-/

namespace JitInspect

open Relation

namespace Session

/-- What may happen in a session while a run is at work: a run begins, the latest one is cancelled, or
a run no longer waits. -/
inductive Stirs : Session → Session → Prop where
  | start (s : Session) : Stirs s s.start
  | cancel (s : Session) : Stirs s s.cancel
  | leave (s : Session) (run : ℕ) : Stirs s (s.leave run)

/-- A session in a world, and the identifiers of the runs whose dumps had no phase. -/
structure Moment where
  session : Session
  world : World
  barren : List ℕ := []

namespace Moment

variable {ws : Workshop} {G : Location} {m m₁ : Moment} {s s₁ s₂ : Session} {w w₁ w₂ : World}
  {r : Request} {x : RunResult} {run n : ℕ} {ps : List FlowGraph.Phase} {barren : List ℕ}

/-! ### Steps -/

section Steps

/-- The barren runs when one more has ended with the result. It is one of them if it has split a dump
and there was no phase in it. -/
def barrenBehind (barren : List ℕ) (r : Request) (x : RunResult) (n : ℕ) : List ℕ :=
  if (x.status = .completed ∧ r.settings.flowGraphs = true) ∧ x.phases = [] then n :: barren
  else barren

/-- What happens from moment to moment. A folder that is to be removed can be removed. -/
inductive Step (ws : Workshop) (G : Location) : Moment → Moment → Prop where
  /-- A run begins, or the latest one is cancelled, or a run gives up waiting. -/
  | stirs {m : Moment} {s : Session} (h : Stirs m.session s) : Step ws G m { m with session := s }
  /-- The run that has waited longest is admitted. -/
  | admits {m : Moment} (hfree : m.session.admitted = none) :
      Step ws G m { m with session := m.session.admitNext }
  /-- A run that was cancelled while it waited returns without having worked. -/
  | skips {m : Moment} {run : ℕ} {s : Session} {w : World} (hadmitted : m.session.admitted = some run)
      (hcancelled : m.session.isCancelled run = true)
      (hremovable : ∀ useless, (m.session.release.conclude run .cancelledEarly).2 = some useless →
        useless.Removable m.world.disk)
      (hconcludes : (m.session.release.concludeWith run .cancelledEarly).perform m.world = (.ok s, w)) :
      Step ws G m { m with session := s, world := w }
  /-- A run does its work and returns its result. -/
  | works {m : Moment} {run : ℕ} {r : Request} {x : RunResult} {s s₁ : Session} {w w₁ : World}
      (hadmitted : m.session.admitted = some run) (hactive : m.session.isCancelled run = false)
      (hminds : r.Minds ws G m.world) (hrun : (r.run ws).perform m.world = (.ok x, w))
      (hmeanwhile : ReflTransGen Stirs m.session s)
      (hremovable : ∀ useless, (s.release.conclude run x).2 = some useless → useless.Removable w.disk)
      (hconcludes : (s.release.concludeWith run x).perform w = (.ok s₁, w₁)) :
      Step ws G m ⟨s₁, w₁, barrenBehind m.barren r x w.identifiers⟩
  /-- The work of a run is interrupted. -/
  | breaks {m : Moment} {run : ℕ} {r : Request} {f : Failure} {s : Session} {w : World}
      (hadmitted : m.session.admitted = some run) (hactive : m.session.isCancelled run = false)
      (hminds : r.Minds ws G m.world) (hrun : (r.run ws).perform m.world = (.error f, w))
      (hmeanwhile : ReflTransGen Stirs m.session s) :
      Step ws G m { m with session := s.release, world := w }
  /-- Something happens elsewhere in the world. -/
  | elsewhere {m : Moment} {w : World} (hspares : ws.Spares G m.world.disk w.disk)
      (hids : m.world.identifiers ≤ w.identifiers) : Step ws G m { m with world := w }

/-- The moments that the first one leads to. -/
abbrev Reaches (ws : Workshop) (G : Location) : Moment → Moment → Prop := ReflTransGen (Step ws G)

end Steps

/-! ### What the folders hold -/

section Listing

/-- What the folders should hold: the phases of the result that is shown, and nothing in the folders of
barren runs. -/
def listed (ws : Workshop) (m : Moment) (n : ℕ) (ps : List FlowGraph.Phase) : Prop :=
  (∃ x, m.session.lastResult = some x ∧ x.Owns ws n ∧ ps = x.phases) ∨ n ∈ m.barren ∧ ps = []

/-- The folders hold what they should hold, and all of them are folders of identifiers that have been
drawn. -/
structure Tidy (ws : Workshop) (G : Location) (m : Moment) : Prop where
  roots : m.world.disk.Roots ws.graphs G
  inventory : Workshop.Inventory G m.world.disk (m.listed ws)
  housed : ∀ x, m.session.lastResult = some x → x.Housed ws
  drawn : ∀ n ps, m.listed ws n ps → n ≤ m.world.identifiers

/-- The list depends on no more of the session than the result that is shown. -/
theorem listed_congr (hshown : s.lastResult = m.session.lastResult) (w : World) :
    listed ws ⟨s, w, m.barren⟩ = m.listed ws := by
  unfold listed
  simp only [hshown]

/-- Folders stay tidy as long as the result that is shown stays and other folders only are changed. -/
theorem Tidy.of_shown (h : Tidy ws G m) (hshown : s.lastResult = m.session.lastResult)
    (hspares : ws.Spares G m.world.disk w.disk) (hids : m.world.identifiers ≤ w.identifiers) :
    Tidy ws G ⟨s, w, m.barren⟩ where
  roots := h.roots.of_spares hspares
  inventory := by
    rw [listed_congr hshown]
    exact h.inventory.of_spares hspares
  housed x hx := h.housed x (hshown ▸ hx)
  drawn n ps hn := by
    rw [listed_congr hshown] at hn
    exact Nat.le_trans (h.drawn n ps hn) hids

/-- No folder has been made for the next identifiers. -/
theorem Tidy.not_listed (h : Tidy ws G m) (hn : m.world.identifiers < n) : ¬ m.listed ws n ps :=
  fun hlisted => Nat.not_le_of_lt hn (h.drawn n ps hlisted)

/-- A stir of the session leaves the last result. -/
theorem lastResult_of_stirs (h : Stirs s s₁) : s₁.lastResult = s.lastResult := by
  have hcancel : ∀ c : Session, c.cancel.lastResult = c.lastResult := fun c =>
    congrArg (·.2.2) (Schedule.showing_cancel c)
  cases h with
  | start => exact hcancel s
  | cancel => exact hcancel s
  | leave => rfl

theorem lastResult_of_meanwhile (h : ReflTransGen Stirs s s₁) : s₁.lastResult = s.lastResult := by
  induction h with
  | refl => rfl
  | tail _ hlast ih => exact (lastResult_of_stirs hlast).trans ih

/-- The result that is no longer of use is the one that comes back, or the one that was shown. -/
theorem conclude_cases (s : Session) (run : ℕ) (x : RunResult) :
    (s.conclude run x = (s, some x)) ∨
      ((s.conclude run x).1.lastResult = some x ∧ (s.conclude run x).2 = s.lastResult) := by
  unfold Session.conclude
  by_cases hlatest : run ≠ s.begun
  · rw [if_pos hlatest]
    exact Or.inl rfl
  · rw [if_neg hlatest]
    exact Or.inr ⟨rfl, rfl⟩

end Listing

/-! ### A run is concluded -/

section Concluding

/-- A run has come back with the result. The folder that it has left for its phases, if there are any,
is in the inventory. -/
structure Pending (ws : Workshop) (G : Location) (m : Moment) (x : RunResult) : Prop where
  roots : m.world.disk.Roots ws.graphs G
  inventory : Workshop.Inventory G m.world.disk fun n ps =>
    m.listed ws n ps ∨ x.Owns ws n ∧ ps = x.phases
  housed : ∀ u, m.session.lastResult = some u → u.Housed ws
  returned : x.Housed ws
  drawn : ∀ n ps, m.listed ws n ps ∨ x.Owns ws n ∧ ps = x.phases → n ≤ m.world.identifiers
  fresh : ∀ n ps, x.Owns ws n → ¬ m.listed ws n ps

/-- A result that has no phases has left nothing that is not listed. -/
theorem Tidy.pending (h : Tidy ws G m) (hphases : x.phases = []) : Pending ws G m x := by
  have hnot : ∀ n, ¬ x.Owns ws n := fun n hn => hn.nonempty hphases
  have hsame : ∀ n ps, m.listed ws n ps ↔ m.listed ws n ps ∨ x.Owns ws n ∧ ps = x.phases := fun n ps =>
    ⟨Or.inl, fun hn => hn.resolve_right fun hown => hnot n hown.1⟩
  exact ⟨h.roots, h.inventory.congr hsame, h.housed, fun hne => absurd hphases hne,
    fun n ps hn => h.drawn n ps ((hsame n ps).2 hn), fun n ps hn => absurd hn (hnot n)⟩

/-- The result comes back because a later run has begun. Its own folder goes. -/
theorem Pending.tidy_of_superseded (hproper : ws.graphs.Proper) (h : Pending ws G m x)
    (hsuperseded : m.session.conclude run x = (m.session, some x)) (hremovable : x.Removable m.world.disk)
    (hconcludes : (m.session.concludeWith run x).perform m.world = (.ok s₁, w₁)) :
    Tidy ws G ⟨s₁, w₁, m.barren⟩ := by
  obtain ⟨d, hdiscard, hroots, hafter⟩ := RunResult.inventory_discard hproper h.roots h.inventory
    h.returned (fun n hn => Or.inr ⟨hn, rfl⟩) hremovable
  rw [Schedule.perform_concludeWith_of_discard (by rw [hsuperseded]) hdiscard, hsuperseded] at hconcludes
  cases hconcludes
  refine ⟨hroots, hafter.congr fun n ps => ?_, h.housed, fun n ps hn => h.drawn n ps (Or.inl hn)⟩
  constructor
  · rintro ⟨hlisted | ⟨howns, -⟩, hnot⟩
    · exact hlisted
    · exact absurd howns hnot
  · exact fun hlisted => ⟨Or.inl hlisted, fun howns => h.fresh n ps howns hlisted⟩

/-- The result is shown, and what is left is what the one before it does not own. -/
theorem Pending.tidy_of_shown (h : Pending ws G m x) {s : Session} {w : World}
    (hshown : s.lastResult = some x) (hids : w.identifiers = m.world.identifiers)
    (hroots : w.disk.Roots ws.graphs G)
    (hinventory : Workshop.Inventory G w.disk fun n ps =>
      x.Owns ws n ∧ ps = x.phases ∨ n ∈ m.barren ∧ ps = []) : Tidy ws G ⟨s, w, m.barren⟩ := by
  have hlisted : ∀ n ps, listed ws ⟨s, w, m.barren⟩ n ps ↔
      x.Owns ws n ∧ ps = x.phases ∨ n ∈ m.barren ∧ ps = [] := by
    intro n ps
    unfold listed
    simp only [hshown, Option.some.injEq, exists_eq_left']
  refine ⟨hroots, hinventory.congr fun n ps => (hlisted n ps).symm, fun u hu => ?_, fun n ps hn => ?_⟩
  · rw [hshown] at hu
    exact Option.some.inj hu ▸ h.returned
  · rw [hids]
    rcases (hlisted n ps).1 hn with hown | hbarren
    · exact h.drawn n ps (Or.inr hown)
    · exact h.drawn n ps (Or.inl (Or.inr hbarren))

/-- The result is shown in place of an older one, whose folder goes. -/
theorem Pending.tidy_of_replaced (hproper : ws.graphs.Proper) (h : Pending ws G m x) {old : RunResult}
    (hlast : m.session.lastResult = some old) (hremovable : old.Removable m.world.disk)
    (hshown : (m.session.conclude run x).1.lastResult = some x)
    (huseless : (m.session.conclude run x).2 = some old)
    (hconcludes : (m.session.concludeWith run x).perform m.world = (.ok s₁, w₁)) :
    Tidy ws G ⟨s₁, w₁, m.barren⟩ := by
  obtain ⟨d, hdiscard, hroots, hafter⟩ := RunResult.inventory_discard hproper h.roots h.inventory
    (h.housed old hlast) (fun n hn => Or.inl (Or.inl ⟨old, hlast, hn, rfl⟩)) hremovable
  rw [Schedule.perform_concludeWith_of_discard huseless hdiscard] at hconcludes
  cases hconcludes
  have hbarren : ∀ n ∈ m.barren, ¬ old.Owns ws n := by
    intro n hn howns
    have hempty := h.inventory.holds n [] (Or.inl (Or.inr ⟨hn, rfl⟩))
    have hfull := h.inventory.holds n old.phases (Or.inl (Or.inl ⟨old, hlast, howns, rfl⟩))
    exact howns.nonempty (hempty.eq_nil hfull)
  refine h.tidy_of_shown hshown rfl hroots (hafter.congr fun n ps => ?_)
  constructor
  · rintro ⟨(⟨u, hu, howns, -⟩ | hlisted) | hown, hnot⟩
    · rw [hlast] at hu
      exact absurd (Option.some.inj hu ▸ howns) hnot
    · exact Or.inr hlisted
    · exact Or.inl hown
  · rintro (hown | hlisted)
    · refine ⟨Or.inr hown, fun howns => ?_⟩
      exact h.fresh n old.phases hown.1 (Or.inl ⟨old, hlast, howns, rfl⟩)
    · exact ⟨Or.inl (Or.inr hlisted), hbarren n hlisted.1⟩

/-- Whichever result is no longer of use, its folder goes and the others stay. -/
theorem Pending.tidy (hproper : ws.graphs.Proper) (h : Pending ws G m x)
    (hremovable : ∀ useless, (m.session.conclude run x).2 = some useless →
      useless.Removable m.world.disk)
    (hconcludes : (m.session.concludeWith run x).perform m.world = (.ok s₁, w₁)) :
    Tidy ws G ⟨s₁, w₁, m.barren⟩ := by
  rcases conclude_cases m.session run x with hsuperseded | ⟨hshown, huseless⟩
  · exact h.tidy_of_superseded hproper hsuperseded (hremovable x (by rw [hsuperseded])) hconcludes
  · cases hlast : m.session.lastResult with
    | none =>
      rw [Schedule.perform_concludeWith_of_none (huseless.trans hlast)] at hconcludes
      cases hconcludes
      refine h.tidy_of_shown hshown rfl h.roots (h.inventory.congr fun n ps => ?_)
      unfold listed
      rw [hlast]
      constructor
      · rintro ((⟨u, hu, -⟩ | hbarren) | hown)
        · cases hu
        · exact Or.inr hbarren
        · exact Or.inl hown
      · exact fun hn => hn.symm.imp_left Or.inr
    | some old =>
      have hold := huseless.trans hlast
      exact h.tidy_of_replaced hproper hlast (hremovable old hold) hshown hold hconcludes

end Concluding

/-! ### Every moment -/

section Moments

/-- A run starts from an inventory without the folders of identifiers to come. -/
theorem Tidy.folderLeft (hproper : ws.graphs.Proper) (h : Tidy ws G m) (hminds : r.Minds ws G m.world) :
    r.FolderLeft ws G m.world ((r.run ws).perform m.world).1 ((r.run ws).perform m.world).2 := by
  refine Request.folderLeft_run hproper h.roots (fun n hn => ?_) hminds
  exact h.inventory.bare n fun ps => h.not_listed hn

/-- A run that comes back with a result has its folder in the inventory, and if there is no phase in it,
the run is barren. -/
theorem Tidy.pending_of_run (hproper : ws.graphs.Proper) (h : Tidy ws G m)
    (hminds : r.Minds ws G m.world) (hrun : (r.run ws).perform m.world = (.ok x, w))
    (hshown : s.lastResult = m.session.lastResult) :
    Pending ws G ⟨s, w, barrenBehind m.barren r x w.identifiers⟩ x := by
  have hleft := h.folderLeft hproper hminds
  rw [hrun] at hleft
  have hhoused : ∀ u, s.lastResult = some u → u.Housed ws := fun u hu => h.housed u (hshown ▸ hu)
  cases hleft with
  | none hspares hids hnone =>
    obtain ⟨hphases, hbarren⟩ := hnone x rfl
    have hsame : barrenBehind m.barren r x w.identifiers = m.barren := if_neg fun hc => hbarren hc.1
    rw [hsame]
    exact (h.of_shown hshown hspares hids).pending hphases
  | new hids hcompleted hspares hstored hholds =>
    have hfresh : ∀ ps, ¬ m.listed ws w.identifiers ps := fun ps => h.not_listed hids
    have hfilled := h.inventory.fill hspares hholds hfresh
    have hdrawn : ∀ n ps, m.listed ws n ps ∨ n = w.identifiers ∧ ps = x.phases → n ≤ w.identifiers := by
      rintro n ps (hn | ⟨rfl, -⟩)
      · exact Nat.le_trans (h.drawn n ps hn) (Nat.le_of_lt hids)
      · exact Nat.le_refl _
    -- The folder is listed as one of the barren ones, or as that of the result.
    by_cases hphases : x.phases = []
    · have hbarren : barrenBehind m.barren r x w.identifiers = w.identifiers :: m.barren :=
        if_pos ⟨hcompleted, hphases⟩
      have hlisted : ∀ n ps, m.listed ws n ps ∨ n = w.identifiers ∧ ps = x.phases ↔
          listed ws ⟨s, w, w.identifiers :: m.barren⟩ n ps := by
        intro n ps
        unfold listed
        simp only [hshown, hphases, List.mem_cons]
        grind
      rw [hbarren]
      refine Tidy.pending ⟨h.roots.of_spares hspares, hfilled.congr hlisted, hhoused, fun n ps hn => ?_⟩
        hphases
      exact hdrawn n ps ((hlisted n ps).2 hn)
    · have hbarren : barrenBehind m.barren r x w.identifiers = m.barren := if_neg fun hc => hphases hc.2
      have hown : x.Owns ws w.identifiers := ⟨hphases, hstored⟩
      have hlisted : ∀ n ps, m.listed ws n ps ∨ n = w.identifiers ∧ ps = x.phases ↔
          listed ws ⟨s, w, m.barren⟩ n ps ∨ x.Owns ws n ∧ ps = x.phases := by
        intro n ps
        have hself : x.Owns ws n ↔ n = w.identifiers :=
          ⟨fun hn => hn.unique hproper hown, fun heq => heq ▸ hown⟩
        rw [listed_congr hshown, hself]
      rw [hbarren]
      refine ⟨h.roots.of_spares hspares, hfilled.congr hlisted, hhoused, fun _ => ⟨_, hown⟩,
        fun n ps hn => hdrawn n ps ((hlisted n ps).2 hn), fun n ps hn => ?_⟩
      rw [listed_congr hshown, hn.unique hproper hown]
      exact hfresh ps

/-- Whatever happens, the folders stay tidy. -/
theorem Tidy.step (hproper : ws.graphs.Proper) (h : Tidy ws G m) (hstep : Step ws G m m₁) :
    Tidy ws G m₁ := by
  cases hstep with
  | stirs hstirs => exact h.of_shown (lastResult_of_stirs hstirs) (Disk.Frame.refl _) (Nat.le_refl _)
  | admits => exact h.of_shown rfl (Disk.Frame.refl _) (Nat.le_refl _)
  | skips _ _ hremovable hconcludes =>
    have hreleased : Tidy ws G ⟨m.session.release, m.world, m.barren⟩ :=
      h.of_shown rfl (Disk.Frame.refl _) (Nat.le_refl _)
    exact Pending.tidy (m := ⟨m.session.release, m.world, m.barren⟩) hproper (hreleased.pending rfl)
      hremovable hconcludes
  | @works run r x s _ w _ _ _ hminds hrun hmeanwhile hremovable hconcludes =>
    have hshown : s.lastResult = m.session.lastResult := lastResult_of_meanwhile hmeanwhile
    have hpending := h.pending_of_run (s := s.release) hproper hminds hrun hshown
    exact hpending.tidy hproper hremovable hconcludes
  | @breaks run r f s w _ _ hminds hrun hmeanwhile =>
    have hshown : s.lastResult = m.session.lastResult := lastResult_of_meanwhile hmeanwhile
    have hleft := h.folderLeft hproper hminds
    rw [hrun] at hleft
    cases hleft with
    | none hspares hids => exact h.of_shown (s := s.release) hshown hspares hids
  | elsewhere hspares hids => exact h.of_shown rfl hspares hids

theorem Tidy.reaches (hproper : ws.graphs.Proper) (h : Tidy ws G m) (hreaches : Reaches ws G m m₁) :
    Tidy ws G m₁ := by
  induction hreaches with
  | refl => exact h
  | tail _ hlast ih => exact ih.step hproper hlast

/-- What is in the folders of flow graphs at a moment. -/
structure KeepsFolders (ws : Workshop) (G : Location) (m : Moment) : Prop where
  /-- The folder of the result that is shown holds the files of its phases and nothing else, and every
  phase leads to its file. -/
  shown : ∀ x, m.session.lastResult = some x → x.phases ≠ [] → ∃ n, x.Owns ws n ∧
    FlowGraph.Holds m.world.disk (graphLocation G n) x.phases ∧
    ∀ p ∈ x.phases, ∃ file content, p.file = some file ∧ m.world.disk.Stores file content
  /-- The folders of barren runs are empty. -/
  barren : ∀ n ∈ m.barren, FlowGraph.Holds m.world.disk (graphLocation G n) []
  /-- No other folder is there. -/
  others : ∀ n ∉ m.barren, (∀ x, m.session.lastResult = some x → ¬ x.Owns ws n) →
    m.world.disk.Bare (graphLocation G n)

/-- However the runs of a session supersede one another and whatever becomes of them, at every moment the
folder of the result that is shown is there and no other one, but for those of barren runs. -/
theorem reaches_keepsFolders (hproper : ws.graphs.Proper) (hroots : w.disk.Roots ws.graphs G)
    (hbare : ∀ n, w.disk.Bare (graphLocation G n)) (hreaches : Reaches ws G ⟨{}, w, []⟩ m) :
    m.KeepsFolders ws G := by
  have hnone : ∀ n ps, ¬ listed ws ⟨{}, w, []⟩ n ps := by
    rintro n ps (⟨x, hx, -⟩ | ⟨hn, -⟩)
    · cases hx
    · exact absurd hn List.not_mem_nil
  have hstart : Tidy ws G ⟨{}, w, []⟩ := by
    refine ⟨hroots, ⟨fun n ps hn => absurd hn (hnone n ps), fun n _ => hbare n⟩, ?_,
      fun n ps hn => absurd hn (hnone n ps)⟩
    intro x hx
    cases hx
  have htidy := hstart.reaches hproper hreaches
  refine ⟨fun x hx hphases => ?_, fun n hn => ?_, fun n hn hnot => ?_⟩
  · obtain ⟨n, hown⟩ := htidy.housed x hx hphases
    have hholds := htidy.inventory.holds n x.phases (Or.inl ⟨x, hx, hown, rfl⟩)
    refine ⟨n, hown, hholds, fun p hp => ?_⟩
    exact hholds.stores htidy.roots hproper (isName_identifier n) (identifier_ne_dots n) hp
      (hown.stored p hp)
  · exact htidy.inventory.holds n [] (Or.inr ⟨hn, rfl⟩)
  · refine htidy.inventory.bare n ?_
    rintro ps (⟨x, hx, hown, -⟩ | ⟨hbarren, -⟩)
    · exact hnot x hx hown
    · exact hn hbarren

end Moments

/-! ### A run with a phase and one without -/

section Samples

/-- A request for the flow graphs of the program that a project runs. -/
def graphRequest : Request :=
  { Request.sample with
    settings := { runApp := true, dump := true, flowGraphs := true, dotPath := "/dot" } }

/-- The program that the project runs writes the dump. -/
def dumping (dump : Text) : Outcome :=
  { effect := fun _ => Disk.single (·.writeBytes "/tmp/jitscope_2.dot" (Text.toUtf8 dump)) }

/-- A world in which the run of the request comes to the dump. -/
def dumpWorld (dump : Text) : World :=
  { disk :=
      { tree := ((FileTree.empty.put ["tmp"] .directory).put ["p"] .directory).put ["dot"] (.file [])
        cwd := [] }
    outcomes := [{}, dumping dump] }

/-- A dump with one phase. -/
def phaseDump : Text := "digraph FlowGraph \x7b\n    graph [label = \"Square\\nafter Pre-import\"];\n\x7d\n"

/-- What lies above the sample's folder. -/
theorem above_sample {q : Path} (h : q.Above (Workshop.graphs .sample)) :
    q = ⟨.root, []⟩ ∨ q = ⟨.root, [("graphs" : Text)]⟩ := by
  obtain ⟨anchor, parts⟩ := q
  obtain ⟨hanchor, hparts⟩ := h
  obtain rfl : anchor = .root := hanchor
  rcases List.prefix_concat_iff.1 (show parts <+: [] ++ [("graphs" : Text)] from hparts) with rfl | hnil
  · exact Or.inr rfl
  · rw [List.prefix_nil.1 hnil]
    exact Or.inl rfl

/-- A run whose dump names no phase is completed and leaves its folder, although there is no phase in the
result that is shown. -/
theorem folder_remains :
    ∃ x s w, (Session.perform .sample {} graphRequest).perform (dumpWorld "digraph FlowGraph \x7b\n\x7d\n") =
        (.ok (x, s), w) ∧
      x.status = .completed ∧ s.lastResult = some x ∧ x.phases = [] ∧
      w.disk.tree.get? (graphLocation ["graphs"] 1) = some .directory := by
  have hends : ∀ p : Except Failure (RunResult × Session) × World,
      (match p.1 with
        | .ok (x, s) => decide (x.status = .completed ∧ s.lastResult = some x ∧ x.phases = [])
        | .error _ => false) = true →
      p.2.disk.tree.get? (graphLocation ["graphs"] 1) = some .directory →
      ∃ x s w, p = (.ok (x, s), w) ∧ x.status = .completed ∧ s.lastResult = some x ∧
        x.phases = [] ∧ w.disk.tree.get? (graphLocation ["graphs"] 1) = some .directory := by
    rintro ⟨f | ⟨x, s⟩, w⟩ hresult hdisk
    · cases hresult
    · obtain ⟨hstatus, hlast, hphases⟩ := of_decide_eq_true hresult
      exact ⟨x, s, w, rfl, hstatus, hlast, hphases, hdisk⟩
  exact hends _ (by decide +kernel) (by decide +kernel)

/-- The folders of the sample are spared if the names in their directory stay the same. -/
theorem spares_sample {d d₁ : Disk} (hroot : d₁.place "/" = d.place "/")
    (hgraphs : d₁.place "/graphs" = d.place "/graphs")
    (hinside : d₁.tree.inside [("graphs" : Text)] = d.tree.inside [("graphs" : Text)]) :
    Workshop.Spares .sample ["graphs"] d d₁ := by
  refine ⟨fun q hq => ?_, fun c loc _ hloc => ?_⟩
  · rcases above_sample hq with rfl | rfl
    · exact hroot
    · exact hgraphs
  · obtain ⟨rest, rfl⟩ := hloc
    have hne : [c] ++ rest ≠ [] := by simp
    rw [List.append_assoc, FileTree.get?_append _ _ hne, FileTree.get?_append _ _ hne, hinside]

/-- The sample's folder is written properly. -/
theorem proper_sample : Path.Proper (Workshop.graphs .sample) := by
  intro n hn
  rw [List.mem_singleton.1 hn]
  exact ⟨by decide, by decide, by decide⟩

theorem roots_dumpWorld :
    (dumpWorld phaseDump).disk.Roots (Workshop.graphs .sample) [("graphs" : Text)] := by
  refine ⟨by decide +kernel, fun q loc hq hplace hin => ?_⟩
  rcases above_sample hq with rfl | rfl
  · have hroot : (dumpWorld phaseDump).disk.place (Path.text ⟨.root, []⟩) = some [] := by
      decide +kernel
    rw [hroot] at hplace
    obtain rfl := Option.some.inj hplace
    exact absurd hin (by decide)
  · have hgraphs : (dumpWorld phaseDump).disk.place (Path.text ⟨.root, [("graphs" : Text)]⟩) =
        some [("graphs" : Text)] := by
      decide +kernel
    rw [hgraphs] at hplace
    exact (Option.some.inj hplace).symm

/-- No folder in it is there. -/
theorem bare_dumpWorld (n : ℕ) :
    (dumpWorld phaseDump).disk.Bare (graphLocation [("graphs" : Text)] n) := by
  rintro loc ⟨rest, rfl⟩
  have hne : [Text.hex Action.identifierLength n] ++ rest ≠ [] := by simp
  have hinside : (dumpWorld phaseDump).disk.tree.inside [("graphs" : Text)] = .empty := by
    decide +kernel
  rw [graphLocation, List.append_assoc, FileTree.get?_append _ _ hne, hinside]
  rfl

/-- The sample's request stays away from the folders. -/
theorem minds_graphRequest :
    graphRequest.Minds .sample [("graphs" : Text)] (dumpWorld phaseDump) where
  prepares := spares_sample (by decide +kernel) (by decide +kernel) (by decide +kernel)
  cleansUp := spares_sample (by decide +kernel) (by decide +kernel) (by decide +kernel)

/-- It ends with one phase. -/
theorem run_graphRequest : ∃ x w,
    (graphRequest.run .sample).perform (dumpWorld phaseDump) = (.ok x, w) ∧ x.phases.length = 1 := by
  have hends : ∀ p : Except Failure RunResult × World,
      p.1.toOption.any (fun x => x.phases.length = 1) = true →
        ∃ x w, p = (.ok x, w) ∧ x.phases.length = 1 := by
    rintro ⟨f | x, w⟩ hresult
    · cases hresult
    · exact ⟨x, w, rfl, of_decide_eq_true hresult⟩
  exact hends _ (by decide +kernel)

/-- A run with one phase leads to a moment at which its folder is there and no other one. -/
theorem reaches_keepsFolders_of_run :
    ∃ m x, Reaches .sample [("graphs" : Text)] ⟨{}, dumpWorld phaseDump, []⟩ m ∧
      m.session.lastResult = some x ∧ x.phases.length = 1 ∧ m.barren = [] ∧
      m.KeepsFolders .sample [("graphs" : Text)] := by
  obtain ⟨x, w, hrun, hlength⟩ := run_graphRequest
  have huseless : ((Session.start {}).release.conclude 1 x).2 = none := rfl
  have hbarren : barrenBehind [] graphRequest x w.identifiers = [] :=
    if_neg fun hc => absurd hlength (by rw [hc.2]; decide)
  have hbegins : Step .sample [("graphs" : Text)] ⟨{}, dumpWorld phaseDump, []⟩
      ⟨Session.start {}, dumpWorld phaseDump, []⟩ := .stirs (.start {})
  have hworks : Step .sample [("graphs" : Text)] ⟨Session.start {}, dumpWorld phaseDump, []⟩
      ⟨((Session.start {}).release.conclude 1 x).1, w, barrenBehind [] graphRequest x w.identifiers⟩ :=
    .works rfl rfl minds_graphRequest hrun .refl (fun u hu => by rw [huseless] at hu; cases hu)
      (Schedule.perform_concludeWith_of_none huseless w)
  have hreaches := (ReflTransGen.single hbegins).tail hworks
  exact ⟨_, x, hreaches, rfl, hlength, hbarren,
    reaches_keepsFolders proper_sample roots_dumpWorld bare_dumpWorld hreaches⟩

end Samples

end Moment

end Session

end JitInspect
