import JitInspect.FileTree.Disk
import Mathlib.Tactic.Common

/-!
# Ways name by name

What a walk over names may do is told by a relation with one case for each thing that a name can lead
to (`FileTree.WalksTo`): nowhere else, one level up, into a directory, or over a link; or it is the last
name, and then it may lead to a file, to nothing, or to a link that is not followed. A walk comes to a
location just when the relation holds (`FileTree.walkWith_eq_ok_iff`). So what becomes of ways when the
tree is changed is shown case by case, by induction on the relation.

A written path leads to where its names lead from the root or from the working directory
(`Disk.locate_eq_ok`).
-/

namespace JitInspect

namespace FileTree

variable {t : FileTree} {barred : Location → Bool}
  {enter : Location → List Text → Except PathFault Location} {followLast : Bool}
  {goal loc : Location} {n : Text} {ns : List Text}

/-- The name is looked up in the directory: it is no dots, the directory is not barred, and the name is
not too long. -/
structure IsLookedUp (barred : Location → Bool) (loc : Location) (n : Text) : Prop where
  ne_dot : n ≠ ['.']
  ne_dots : n ≠ ['.', '.']
  isOpen : barred loc = false
  fits : tooLong n = false

/-- The names lead from the directory to the goal. -/
inductive WalksTo (t : FileTree) (barred : Location → Bool)
    (enter : Location → List Text → Except PathFault Location) (followLast : Bool)
    (goal : Location) : Location → List Text → Prop where
  | arrives : WalksTo t barred enter followLast goal goal []
  | stays {loc : Location} {ns : List Text} (h : WalksTo t barred enter followLast goal loc ns) :
      WalksTo t barred enter followLast goal loc (['.'] :: ns)
  | rises {loc : Location} {ns : List Text} (hopen : barred loc = false)
      (h : WalksTo t barred enter followLast goal loc.dropLast ns) :
      WalksTo t barred enter followLast goal loc (['.', '.'] :: ns)
  | enters {loc : Location} {n : Text} {ns : List Text} (hname : IsLookedUp barred loc n)
      (hentry : t.get? (loc ++ [n]) = some .directory)
      (h : WalksTo t barred enter followLast goal (loc ++ [n]) ns) :
      WalksTo t barred enter followLast goal loc (n :: ns)
  /-- The last name leads to a file or to nothing. -/
  | ends {loc : Location} {n : Text} (hname : IsLookedUp barred loc n) (hgoal : loc ++ [n] = goal)
      (hentry : t.get? (loc ++ [n]) = none ∨ ∃ content, t.get? (loc ++ [n]) = some (.file content)) :
      WalksTo t barred enter followLast goal loc [n]
  /-- The last name leads to a link, which is not followed. -/
  | stops {loc : Location} {n target : Text} (hname : IsLookedUp barred loc n)
      (hgoal : loc ++ [n] = goal) (hentry : t.get? (loc ++ [n]) = some (.link target))
      (hlast : followLast = false) : WalksTo t barred enter followLast goal loc [n]
  | follows {loc : Location} {n target : Text} {ns : List Text} (hname : IsLookedUp barred loc n)
      (hentry : t.get? (loc ++ [n]) = some (.link target)) (hmore : ns ≠ [] ∨ followLast = true)
      (henter : enter (startOf loc target) (steps target ++ ns) = .ok goal) :
      WalksTo t barred enter followLast goal loc (n :: ns)

namespace IsLookedUp

variable (h : IsLookedUp barred loc n)
include h

/-- The walk goes on in a directory. -/
theorem walkWith_of_directory (hentry : t.get? (loc ++ [n]) = some .directory) :
    t.walkWith barred enter followLast loc (n :: ns) =
      t.walkWith barred enter followLast (loc ++ [n]) ns := by
  rw [walkWith, if_neg h.ne_dot, if_neg (by simp [h.isOpen]), if_neg h.ne_dots,
    if_neg (by simp [h.fits]), hentry]

/-- It ends at a file. -/
theorem walkWith_of_file {content : Bytes} (hentry : t.get? (loc ++ [n]) = some (.file content)) :
    t.walkWith barred enter followLast loc (n :: ns) =
      if ns.isEmpty then .ok (loc ++ [n]) else .error .notDirectory := by
  rw [walkWith, if_neg h.ne_dot, if_neg (by simp [h.isOpen]), if_neg h.ne_dots,
    if_neg (by simp [h.fits]), hentry]

/-- It ends where nothing is. -/
theorem walkWith_of_none (hentry : t.get? (loc ++ [n]) = none) :
    t.walkWith barred enter followLast loc (n :: ns) =
      if ns.isEmpty then .ok (loc ++ [n]) else .error .missing := by
  rw [walkWith, if_neg h.ne_dot, if_neg (by simp [h.isOpen]), if_neg h.ne_dots,
    if_neg (by simp [h.fits]), hentry]

/-- A link is followed unless it stands at the end of a way on which the last one is not. -/
theorem walkWith_of_link {target : Text} (hentry : t.get? (loc ++ [n]) = some (.link target)) :
    t.walkWith barred enter followLast loc (n :: ns) =
      if ns.isEmpty && !followLast then .ok (loc ++ [n])
      else enter (startOf loc target) (steps target ++ ns) := by
  rw [walkWith, if_neg h.ne_dot, if_neg (by simp [h.isOpen]), if_neg h.ne_dots,
    if_neg (by simp [h.fits]), hentry]

end IsLookedUp

/-- What a walk comes to is in the relation. -/
theorem walksTo_of_walkWith (hwalk : t.walkWith barred enter followLast loc ns = .ok goal) :
    t.WalksTo barred enter followLast goal loc ns := by
  induction ns generalizing loc with
  | nil =>
    obtain rfl := Except.ok.inj hwalk
    exact .arrives
  | cons n ns ih =>
    by_cases hdot : n = ['.']
    · rw [walkWith, if_pos hdot] at hwalk
      subst hdot
      exact .stays (ih hwalk)
    by_cases hbarred : barred loc = true
    · rw [walkWith, if_neg hdot, if_pos hbarred] at hwalk
      cases hwalk
    by_cases hdots : n = ['.', '.']
    · rw [walkWith, if_neg hdot, if_neg hbarred, if_pos hdots] at hwalk
      subst hdots
      exact .rises (Bool.eq_false_iff.2 hbarred) (ih hwalk)
    by_cases hlong : tooLong n = true
    · rw [walkWith, if_neg hdot, if_neg hbarred, if_neg hdots, if_pos hlong] at hwalk
      cases hwalk
    have hname : IsLookedUp barred loc n :=
      ⟨hdot, hdots, Bool.eq_false_iff.2 hbarred, Bool.eq_false_iff.2 hlong⟩
    cases hentry : t.get? (loc ++ [n]) with
    | none =>
      rw [hname.walkWith_of_none hentry] at hwalk
      cases ns with
      | nil => exact .ends hname (Except.ok.inj hwalk) (Or.inl hentry)
      | cons m ms => cases hwalk
    | some e =>
      cases e with
      | file content =>
        rw [hname.walkWith_of_file hentry] at hwalk
        cases ns with
        | nil => exact .ends hname (Except.ok.inj hwalk) (Or.inr ⟨content, hentry⟩)
        | cons m ms => cases hwalk
      | directory =>
        rw [hname.walkWith_of_directory hentry] at hwalk
        exact .enters hname hentry (ih hwalk)
      | link target =>
        rw [hname.walkWith_of_link hentry] at hwalk
        cases ns with
        | cons m ms => exact .follows hname hentry (Or.inl (List.cons_ne_nil m ms)) hwalk
        | nil =>
          cases followLast with
          | true => exact .follows hname hentry (Or.inr rfl) hwalk
          | false => exact .stops hname (Except.ok.inj hwalk) hentry rfl

/-- A walk comes to the goal just when the names lead there. -/
theorem walkWith_eq_ok_iff : t.walkWith barred enter followLast loc ns = .ok goal ↔
    t.WalksTo barred enter followLast goal loc ns := by
  refine ⟨walksTo_of_walkWith, fun h => ?_⟩
  induction h with
  | arrives => rfl
  | stays _ ih => rwa [walkWith, if_pos rfl]
  | rises hopen _ ih => rwa [walkWith, if_neg (by decide), if_neg (by simp [hopen]), if_pos rfl]
  | enters hname hentry _ ih => rwa [hname.walkWith_of_directory hentry]
  | ends hname hgoal hentry =>
    rcases hentry with hnone | ⟨content, hfile⟩
    · rw [hname.walkWith_of_none hnone]
      exact congrArg Except.ok hgoal
    · rw [hname.walkWith_of_file hfile]
      exact congrArg Except.ok hgoal
  | stops hname hgoal hentry hlast =>
    rw [hname.walkWith_of_link hentry, hlast]
    exact congrArg Except.ok hgoal
  | follows hname hentry hmore henter =>
    rw [hname.walkWith_of_link hentry, if_neg (by simp; tauto)]
    exact henter

end FileTree

namespace Disk

variable {d : Disk} {path : Text}

/-- A path leads somewhere if it can be followed from a directory, is not too long and holds no null
character. -/
theorem locate_eq_ok {loc : Location} {followLast : Bool} :
    d.locate path followLast = .ok loc ↔
      nullChar ∉ path ∧ path ≠ [] ∧ (Text.toUtf8 path).length ≤ maxPathBytes ∧
        d.tree.get? (FileTree.startOf d.cwd path) = some .directory ∧
        d.tree.walk d.barred followLast maxLinks (FileTree.startOf d.cwd path) (FileTree.steps path) =
          .ok loc := by
  unfold locate FileTree.locate
  by_cases hnull : nullChar ∈ path
  · simp [hnull]
  by_cases hempty : path = []
  · simp [hempty]
  by_cases hlong : maxPathBytes < (Text.toUtf8 path).length
  · simp [hnull, hempty, hlong, Nat.not_le_of_lt hlong]
  by_cases hstart : d.tree.get? (FileTree.startOf d.cwd path) = some .directory
  · cases hwalk : d.tree.walk d.barred followLast maxLinks (FileTree.startOf d.cwd path)
      (FileTree.steps path) <;> simp [hnull, hempty, Nat.le_of_not_lt hlong, hlong, hstart, hwalk]
  · simp [hnull, hempty, hlong, hstart]

/-- What a path leads to is what is where it leads. -/
theorem look_eq_ok {e : Entry} {followLast : Bool} :
    d.look path followLast = .ok e ↔
      ∃ loc, d.locate path followLast = .ok loc ∧ d.tree.get? loc = some e := by
  unfold look locate FileTree.look
  by_cases hnull : path.contains nullChar = true
  · rw [if_pos hnull, if_pos hnull]
    simp
  · rw [if_neg hnull, if_neg hnull]
    cases d.tree.locate d.barred d.cwd path followLast with
    | error fault => simp
    | ok loc =>
      cases he : d.tree.get? loc with
      | none => simp [he]
      | some e₁ => simp [he]

/-- The answer is yes if the path leads to an entry for which it is. -/
theorem ask_eq_ok_true {question : Entry → Bool} :
    d.ask question path = .ok true ↔
      ∃ loc e, d.locate path = .ok loc ∧ d.tree.get? loc = some e ∧ question e = true := by
  have hlook : d.ask question path = .ok true ↔ ∃ e, d.look path = .ok e ∧ question e = true := by
    unfold ask
    cases d.look path with
    | ok e => simp
    | error f =>
      -- Two faults are passed on; for the others the answer is no.
      cases f with
      | refused fault p => cases fault <;> simp
      | _ => simp
  rw [hlook]
  constructor
  · rintro ⟨e, he, hyes⟩
    obtain ⟨loc, hloc, hentry⟩ := look_eq_ok.1 he
    exact ⟨loc, e, hloc, hentry, hyes⟩
  · rintro ⟨loc, e, hloc, hentry, hyes⟩
    exact ⟨e, look_eq_ok.2 ⟨loc, hloc, hentry⟩, hyes⟩

end Disk

end JitInspect
