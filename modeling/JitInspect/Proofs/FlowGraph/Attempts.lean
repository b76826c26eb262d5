import JitInspect.Proofs.FlowGraph.Numbering
import JitInspect.Proofs.FlowGraph.Stored

/-!
# How phases are counted

A dump is split by offering the phases of its pieces to a store, one after another. The store may keep
a phase or refuse it, for whatever reason and at any moment. Splitting is told by its attempts
(`FlowGraph.Attempt`): which piece an attempt is for, which phase was offered, and what came of it.

A phase is offered with two numbers, and both count what was kept before: in the whole dump, and from
the beginning of its tier (`Attempt.TierFrom`). So a phase that is refused takes no number, and a tier
begins with its first piece also when the graph of this piece is lost. The main statement says so of
phases that stay in memory, of phases that are written into a directory, and of every store that hands
back what it keeps (`FlowGraph.phases_counted`).
-/

namespace JitInspect

namespace FlowGraph

/-- A try to keep the phase that a piece names. -/
structure Attempt where
  piece : Text
  name : Text
  /-- The phase that the store was asked to keep. -/
  offered : Phase
  /-- The phase that was kept, or the warning that it was not. -/
  outcome : Except LogRecord Phase

namespace Attempt

/-- The phase that was kept, if one was. -/
def kept? (x : Attempt) : Option Phase := x.outcome.toOption

/-- Whether a phase was kept. -/
def isKept (x : Attempt) : Bool := x.kept?.isSome

/-- What an attempt keeps is the phase that was made. -/
theorem kept?_eq_some_iff {x : Attempt} {p : Phase} : x.kept? = some p ↔ x.outcome = .ok p := by
  unfold kept?
  cases x.outcome with
  | ok q => exact ⟨fun h => congrArg Except.ok (Option.some.inj h), fun h =>
      congrArg some (Except.ok.inj h)⟩
  | error w => exact ⟨nofun, nofun⟩

/-- The number of phases that are kept in the tier behind the attempt, by the number in front of it. -/
def tally (o : ℕ) (x : Attempt) : ℕ := inTier o x.name + if x.isKept then 1 else 0

/-- The attempts `tier` and then `x` are those from the latest one at which a tier begins, or all of
them if there is none. Those in front of them are `above`. -/
structure TierFrom (above tier : List Attempt) (x : Attempt) : Prop where
  opens : above = [] ∨ ∃ y, (tier ++ [x]).head? = some y ∧ y.name = initialPhase
  goesOn : ∀ y ∈ (tier ++ [x]).tail, y.name ≠ initialPhase

end Attempt

variable {σ : Type} {store : Phase → StateM σ (Except LogRecord Phase)} {s s₁ : σ} {o a : ℕ}
  {f name : Text} {fs : List Text} {e : LabelFault} {x : Attempt} {as : List Attempt}

/-! ### Attempts one after another -/

section Made

/-- The store was asked to keep the offered phases one after another, and nothing else was done. -/
inductive Made (store : Phase → StateM σ (Except LogRecord Phase)) : σ → List Attempt → σ → Prop where
  | nil {s : σ} : Made store s [] s
  | cons {s s₁ : σ} {x : Attempt} {as : List Attempt}
      (houtcome : ((store x.offered).run s).1 = x.outcome)
      (hrest : Made store ((store x.offered).run s).2 as s₁) : Made store s (x :: as) s₁

/-- The pieces that are not blank and name a phase, each with the name. -/
def named (fs : List Text) : List (Text × Text) :=
  fs.filterMap fun f => if Text.blank f then none else (phaseName f).toOption.map fun n => (f, n)

/-- The store keeps a phase as it is, but for the file in which it is stored. -/
def HandsBack (store : Phase → StateM σ (Except LogRecord Phase)) : Prop :=
  ∀ p s q, ((store p).run s).1 = .ok q → { q with file := p.file } = p

theorem named_cons_of_blank (h : Text.blank f = true) : named (f :: fs) = named fs :=
  List.filterMap_cons_none (if_pos h)

theorem named_cons_of_error (hf : phaseName f = .error e) : named (f :: fs) = named fs := by
  refine List.filterMap_cons_none ?_
  rw [hf]
  exact ite_self none

theorem named_cons_of_ok (h : Text.blank f = false) (hf : phaseName f = .ok name) :
    named (f :: fs) = (f, name) :: named fs := by
  refine List.filterMap_cons_some ?_
  rw [hf, h]
  rfl

/-- Phases that stay in memory are handed back. -/
theorem handsBack_pure : HandsBack (σ := Unit) fun p => pure (.ok p) := by
  intro p s q h
  obtain rfl : p = q := Except.ok.inj h
  rfl

/-- Phases that are written into a directory are handed back with their files. -/
theorem handsBack_storeIn (dir : Path) : HandsBack (storeIn dir) := by
  intro p d q h
  rcases storeIn_cases dir p d with ⟨d₁, -, hrun⟩ | ⟨w, hrun⟩
  · rw [hrun] at h
    obtain rfl := Except.ok.inj h
    rfl
  · rw [hrun] at h
    cases h

end Made

/-! ### The attempts of a splitting -/

section Attempts

/-- A blank piece stores nothing. -/
theorem run_number_of_blank (h : Text.blank f = true) (s : σ) :
    (number store o a (f :: fs)).run s = (number store o a fs).run s := by
  rw [number, if_pos h]

/-- A malformed piece stores nothing and gives a warning. -/
theorem run_number_of_error (h : Text.blank f = false) (hf : phaseName f = .error e) (s : σ) :
    (number store o a (f :: fs)).run s =
      (.error e.warning :: ((number store o a fs).run s).1, ((number store o a fs).run s).2) := by
  rw [number, if_neg (Bool.eq_false_iff.1 h), hf]
  rfl

/-- A piece that names a phase is offered, and the counting goes on by what came of it. -/
theorem run_number_of_ok (h : Text.blank f = false) (hf : phaseName f = .ok name) (s : σ) :
    (number store o a (f :: fs)).run s =
      let tried := (store (phaseOf o a name f)).run s
      let kept := if tried.1.toOption.isSome then 1 else 0
      let rest := (number store (inTier o name + kept) (a + kept) fs).run tried.2
      (tried.1 :: rest.1, rest.2) := by
  rw [number, if_neg (Bool.eq_false_iff.1 h), hf]
  dsimp only
  rw [StateT.run_bind]
  rcases htried : (store (phaseOf o a name f)).run s with ⟨w | p, s₁⟩
  all_goals
    unfold phaseOf inTier at htried
    rw [htried]
    rfl

/-- Splitting comes to the attempts for the pieces that name phases. Each is offered with the numbers
of those that were kept before. -/
theorem exists_attempts (store : Phase → StateM σ (Except LogRecord Phase)) (fs : List Text)
    (o a : ℕ) (s : σ) :
    ∃ as, Made store s as ((number store o a fs).run s).2 ∧
      as.map (fun x => (x.piece, x.name)) = named fs ∧
      (Split.ofResults ((number store o a fs).run s).1).phases = as.filterMap Attempt.kept? ∧
      ∀ before x after, as = before ++ x :: after →
        x.offered = phaseOf (before.foldl Attempt.tally o) (a + before.countP Attempt.isKept)
          x.name x.piece := by
  induction fs generalizing o a s with
  | nil => exact ⟨[], .nil, rfl, rfl, fun before x after h => by simp at h⟩
  | cons f fs ih =>
    cases hblank : Text.blank f with
    | true =>
      rw [run_number_of_blank hblank, named_cons_of_blank hblank]
      exact ih o a s
    | false =>
      cases hf : phaseName f with
      | error e =>
        rw [run_number_of_error hblank hf, named_cons_of_error hf]
        exact ih o a s
      | ok name =>
        rw [run_number_of_ok hblank hf, named_cons_of_ok hblank hf]
        generalize htried : (store (phaseOf o a name f)).run s = tried
        obtain ⟨outcome, s₁⟩ := tried
        let x : Attempt := ⟨f, name, phaseOf o a name f, outcome⟩
        obtain ⟨as, hmade, hpieces, hphases, hoffered⟩ :=
          ih (Attempt.tally o x) (a + if x.isKept then 1 else 0) s₁
        refine ⟨x :: as, .cons (by rw [htried]) (by rw [htried]; exact hmade), ?_, ?_, ?_⟩
        · rw [List.map_cons, hpieces]
        · rw [List.filterMap_cons, ← hphases]
          cases outcome <;> rfl
        · intro before y after heq
          cases before with
          | nil =>
            obtain ⟨rfl, -⟩ := List.cons.inj heq
            rfl
          | cons z before =>
            obtain ⟨rfl, hrest⟩ := List.cons.inj heq
            have hcount : a + List.countP Attempt.isKept (x :: before) =
                a + (if x.isKept then 1 else 0) + before.countP Attempt.isKept := by
              rw [List.countP_cons]
              omega
            rw [List.foldl_cons, hcount]
            exact hoffered before y after hrest

end Attempts

/-! ### Tiers -/

section Tiers

/-- The number of phases in front of an attempt in its tier is the number of those that were kept from
the beginning of the tier on. The induction takes the attempts in front away from the end, because a
tier is looked for from there. -/
theorem exists_tier (before : List Attempt) (x : Attempt) :
    ∃ above tier, before = above ++ tier ∧ Attempt.TierFrom above tier x ∧
      inTier (before.foldl Attempt.tally 0) x.name = tier.countP Attempt.isKept := by
  induction before using List.reverseRecOn generalizing x with
  | nil =>
    refine ⟨[], [], rfl, ⟨Or.inl rfl, fun y hy => absurd hy List.not_mem_nil⟩, ?_⟩
    exact ite_self 0
  | append_singleton before y ih =>
    by_cases hx : x.name = initialPhase
    · refine ⟨before ++ [y], [], (List.append_nil _).symm, ⟨Or.inr ⟨x, rfl, hx⟩, ?_⟩, if_pos hx⟩
      exact fun y hy => absurd hy List.not_mem_nil
    · obtain ⟨above, tier, rfl, hfrom, hcount⟩ := ih y
      have hne : tier ++ [y] ≠ [] := List.append_ne_nil_of_right_ne_nil tier (List.cons_ne_nil y [])
      refine ⟨above, tier ++ [y], List.append_assoc _ _ _, ⟨?_, ?_⟩, ?_⟩
      · rw [List.head?_append_of_ne_nil _ hne]
        exact hfrom.opens
      · rw [List.tail_append_of_ne_nil hne]
        intro z hz
        rcases List.mem_append.1 hz with hz | hz
        · exact hfrom.goesOn z hz
        · exact List.mem_singleton.1 hz ▸ hx
      · rw [inTier, if_neg hx, List.foldl_concat, Attempt.tally, hcount, List.countP_append,
          List.countP_singleton]

/-- The phases that were kept are numbered one after another. -/
theorem map_absoluteOrdinal_kept
    (hoffered : ∀ before x after, as = before ++ x :: after →
      x.offered.absoluteOrdinal = a + before.countP Attempt.isKept + 1)
    (hkept : ∀ x ∈ as, ∀ p, x.kept? = some p → p.absoluteOrdinal = x.offered.absoluteOrdinal) :
    (as.filterMap Attempt.kept?).map Phase.absoluteOrdinal =
      List.range' (a + 1) (as.filterMap Attempt.kept?).length := by
  induction as generalizing a with
  | nil => rfl
  | cons x as ih =>
    obtain ⟨hx, has⟩ := List.forall_mem_cons.1 hkept
    have hself : x.offered.absoluteOrdinal = a + 1 := hoffered [] x as rfl
    have hrest : ∀ before y after, as = before ++ y :: after →
        y.offered.absoluteOrdinal =
          (a + if x.isKept then 1 else 0) + before.countP Attempt.isKept + 1 := by
      intro before y after heq
      rw [hoffered (x :: before) y after (by rw [heq]; rfl), List.countP_cons]
      omega
    have hcount := ih hrest has
    cases hphase : x.kept? with
    | none =>
      have hnot : x.isKept = false := by rw [Attempt.isKept, hphase]; rfl
      rw [hnot] at hcount
      rw [List.filterMap_cons_none hphase]
      exact hcount
    | some p =>
      have his : x.isKept = true := by rw [Attempt.isKept, hphase]; rfl
      rw [his] at hcount
      rw [List.filterMap_cons_some hphase, List.map_cons, List.length_cons, List.range'_succ,
        hx p hphase, hself]
      exact congrArg _ hcount

end Tiers

/-! ### Counted phases -/

section Counted

/-- The phases `ps` are what a splitting has kept of the pieces. -/
structure Counted (store : Phase → StateM σ (Except LogRecord Phase)) (s : σ) (fs : List Text)
    (as : List Attempt) (ps : List Phase) (s₁ : σ) : Prop where
  made : Made store s as s₁
  /-- There is an attempt for each piece that names a phase, in their order. -/
  pieces : as.map (fun x => (x.piece, x.name)) = named fs
  /-- The phases are those of the attempts that succeeded, in their order. -/
  phases : ps = as.filterMap Attempt.kept?
  /-- The numbers with which a phase is offered follow those of the phases that were kept before, in
  its tier and in the dump. -/
  offered : ∀ before x after, as = before ++ x :: after →
    ∃ above tier, before = above ++ tier ∧ Attempt.TierFrom above tier x ∧
      x.offered = ⟨tier.countP Attempt.isKept + 1, before.countP Attempt.isKept + 1,
        fileNameOf x.name, graphOf x.piece, none, none⟩
  /-- A phase is kept as it was offered, but for its file. -/
  kept : ∀ x ∈ as, ∀ p, x.kept? = some p → { p with file := none } = x.offered
  absolute : ps.map Phase.absoluteOrdinal = List.range' 1 ps.length

/-- A phase that was kept is the one that was offered, but for its file. -/
theorem Made.handsBack (h : Made store s as s₁) (hstore : HandsBack store) :
    ∀ x ∈ as, ∀ p, x.kept? = some p → { p with file := x.offered.file } = x.offered := by
  induction h with
  | nil => exact fun x hx => absurd hx List.not_mem_nil
  | @cons s s₁ x as houtcome hrest ih =>
    refine List.forall_mem_cons.2 ⟨fun p hp => hstore x.offered s p ?_, ih⟩
    rw [houtcome]
    exact Attempt.kept?_eq_some_iff.1 hp

/-- The phases of the pieces are counted, whichever of them the store refuses. -/
theorem exists_counted (hstore : HandsBack store) (fs : List Text) (s : σ) :
    ∃ as, Counted store s fs as (Split.ofResults ((number store 0 0 fs).run s).1).phases
      ((number store 0 0 fs).run s).2 := by
  obtain ⟨as, hmade, hpieces, hphases, hoffered⟩ := exists_attempts store fs 0 0 s
  have hall : ∀ before x after, as = before ++ x :: after →
      ∃ above tier, before = above ++ tier ∧ Attempt.TierFrom above tier x ∧
        x.offered = ⟨tier.countP Attempt.isKept + 1, before.countP Attempt.isKept + 1,
          fileNameOf x.name, graphOf x.piece, none, none⟩ := by
    intro before x after heq
    obtain ⟨above, tier, hsplit, hfrom, hcount⟩ := exists_tier before x
    refine ⟨above, tier, hsplit, hfrom, ?_⟩
    rw [hoffered before x after heq, phaseOf, hcount, Nat.zero_add]
  have hback := hmade.handsBack hstore
  have hkept : ∀ x ∈ as, ∀ p, x.kept? = some p → { p with file := none } = x.offered := by
    intro x hx p hp
    obtain ⟨before, after, heq⟩ := List.append_of_mem hx
    obtain ⟨_, _, -, -, hx'⟩ := hall before x after heq
    have hfile : x.offered.file = none := by rw [hx']
    rw [← hfile]
    exact hback x hx p hp
  refine ⟨as, hmade, hpieces, hphases, hall, hkept, ?_⟩
  rw [hphases]
  refine map_absoluteOrdinal_kept (a := 0) (fun before x after heq => ?_) fun x hx p hp => ?_
  · rw [hoffered before x after heq]
    rfl
  · rw [← hkept x hx p hp]

/-- The phases of a dump are counted in the dump and in their tiers by what was kept, whether they stay
in memory, are written into a directory, or go to a store that refuses any of them. -/
theorem phases_counted (dump : Text) :
    (∃ as, Counted (σ := Unit) (fun p => pure (.ok p)) () (fragments dump) as (split dump).phases ()) ∧
      (∀ (dir : Path) (d : Disk) (s : Split) (d₁ : Disk),
        StateT.run (splitInto dir dump).run d = (.ok s, d₁) →
          ∃ d₂ as, StateT.run (Disk.makePath dir).run d = (.ok (), d₂) ∧
            Counted (storeIn dir) d₂ (fragments dump) as s.phases d₁) ∧
      ∀ (σ : Type) (store : Phase → StateM σ (Except LogRecord Phase)), HandsBack store →
        ∀ s, ∃ as, Counted store s (fragments dump) as
          (Split.ofResults ((number store 0 0 (fragments dump)).run s).1).phases
          ((number store 0 0 (fragments dump)).run s).2 := by
  refine ⟨exists_counted handsBack_pure (fragments dump) (), fun dir d s d₁ h => ?_,
    fun σ store hstore => exists_counted hstore (fragments dump)⟩
  rw [run_splitInto] at h
  rcases hmake : StateT.run (Disk.makePath dir).run d with ⟨f | u, d₂⟩
  · rw [hmake] at h
    cases h
  · rw [hmake] at h
    obtain ⟨hs, rfl⟩ := Prod.mk.inj h
    obtain rfl := Except.ok.inj hs
    obtain ⟨as, has⟩ := exists_counted (handsBack_storeIn dir) (fragments dump) d₂
    exact ⟨d₂, as, rfl, has⟩

/-- A store that keeps phases in memory, unless the next sign tells it to refuse. -/
def keepBySigns (p : Phase) : StateM (List Bool) (Except LogRecord Phase) := fun signs =>
  (if signs.headD false then .error ⟨.warning, []⟩ else .ok p, signs.tail)

/-- A disk with a folder in which the name of the second file is taken by a directory. -/
def takenName : Disk where
  tree := (FileTree.empty.put ["g"] .directory).put ["g", "2. Pre-import.dot"] .directory
  cwd := []

/-- The first graph of a tier is lost, on a disk and by a sign, and still begins the tier: the phase
behind it is the first one in the tier, and the second one in the dump. -/
theorem phases_counted_of_lost_graph :
    let dump := sampleGraph "A" ++ sampleGraph "Pre-import" ++ sampleGraph "B"
    let numbers : List (ℕ × ℕ × Text) := [(1, 1, "A"), (1, 2, "B")]
    (∃ s d₁, StateT.run (splitInto ⟨.root, ["g"]⟩ dump).run takenName = (.ok s, d₁) ∧
        s.phases.map (fun p => (p.ordinal, p.absoluteOrdinal, p.name)) = numbers ∧
        ∃ d₂ as, Counted (storeIn ⟨.root, ["g"]⟩) d₂ (fragments dump) as s.phases d₁) ∧
      HandsBack keepBySigns ∧
        ∃ as ps signs, ps.map (fun p => (p.ordinal, p.absoluteOrdinal, p.name)) = numbers ∧
          Counted keepBySigns [false, true] (fragments dump) as ps signs := by
  intro dump numbers
  have hback : HandsBack keepBySigns := by
    intro p signs q h
    rcases signs with _ | ⟨refuses, signs⟩
    · cases h
      rfl
    · cases refuses <;> cases h
      rfl
  obtain ⟨-, hdisk, hstore⟩ := phases_counted dump
  have hnumbers : (StateT.run (splitInto ⟨.root, ["g"]⟩ dump).run takenName).1.toOption.map
      (fun s => s.phases.map fun p => (p.ordinal, p.absoluteOrdinal, p.name)) = some numbers := by
    decide +kernel
  refine ⟨?_, hback, ?_⟩
  · rcases hrun : StateT.run (splitInto ⟨.root, ["g"]⟩ dump).run takenName with ⟨f | s, d₁⟩
    · rw [hrun] at hnumbers
      cases hnumbers
    · rw [hrun] at hnumbers
      obtain ⟨d₂, as, -, has⟩ := hdisk _ _ s d₁ hrun
      exact ⟨s, d₁, rfl, Option.some.inj hnumbers, d₂, as, has⟩
  · obtain ⟨as, has⟩ := hstore _ keepBySigns hback [false, true]
    exact ⟨as, _, _, by decide +kernel, has⟩

end Counted

end FlowGraph

end JitInspect
