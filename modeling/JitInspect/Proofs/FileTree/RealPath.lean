import JitInspect.Proofs.FileTree.Absolute
import JitInspect.Proofs.FileTree.Places
import Mathlib.Data.Nat.Find

/-!
# Real paths

A path that has a place has it as its real path (`Disk.realPath_of_place`). The two are found in
different ways: a place by following a link each time it is met, over a limited number of them, a real
path by remembering where each link leads. What is remembered is right (`FileTree.Right`), and a link
that is still being followed leads nowhere over the links that are left (`FileTree.Deep`), so that it is
not met again. So a path that has a place never leads back to itself.

In a tree in which everything stands in a directory and is called by a name that can be read back
(`FileTree.Orderly`), the real path of something leads over no link. So a path that leads to something
can always be resolved, and is resolved to where it leads (`Disk.resolve_of_locate`).
-/

namespace JitInspect

namespace FileTree

variable {t : FileTree} {barred : Location → Bool} {known known₁ : KnownLinks} {links : List Location}
  {loc goal goal₁ place : Location} {ns ms : List Text} {n target : Text} {k k₁ : ℕ}

/-- A link is an entry of the tree. -/
theorem link?_eq_some_iff : t.link? loc = some target ↔ t.get? loc = some (.link target) := by
  unfold link?
  constructor
  · intro h
    split at h
    case h_1 found hfound => rw [hfound, Option.some.inj h]
    case h_2 => cases h
  · intro h
    rw [h]

/-! ### Where names lead over some links -/

section Leading

/-- The names lead from the location to the goal over at most so many links. -/
inductive Leads (t : FileTree) : ℕ → Location → List Text → Location → Prop
  | nil {k : ℕ} {loc : Location} : Leads t k loc [] loc
  | dot {k : ℕ} {loc goal : Location} {ns : List Text} (h : Leads t k loc ns goal) :
      Leads t k loc (['.'] :: ns) goal
  | up {k : ℕ} {loc goal : Location} {ns : List Text} (h : Leads t k loc.dropLast ns goal) :
      Leads t k loc (['.', '.'] :: ns) goal
  | step {k : ℕ} {loc goal : Location} {n : Text} {ns : List Text} (hdot : n ≠ ['.'])
      (hdots : n ≠ ['.', '.']) (hlink : t.link? (loc ++ [n]) = none)
      (h : Leads t k (loc ++ [n]) ns goal) : Leads t k loc (n :: ns) goal
  | link {k : ℕ} {loc goal : Location} {n target : Text} {ns : List Text} (hdot : n ≠ ['.'])
      (hdots : n ≠ ['.', '.']) (hlink : t.link? (loc ++ [n]) = some target)
      (h : Leads t k (startOf loc target) (steps target ++ ns) goal) : Leads t (k + 1) loc (n :: ns) goal

/-- Where a path has its place it leads, if what is behind a link does. -/
theorem leads_of_placeWith {enter : Location → List Text → Option Location}
    (henter : ∀ loc n ns target, n ≠ ['.'] → n ≠ ['.', '.'] → t.link? (loc ++ [n]) = some target →
      enter (startOf loc target) (steps target ++ ns) = some goal → Leads t k loc (n :: ns) goal)
    (h : t.placeWith enter loc ns = some goal) : Leads t k loc ns goal := by
  induction ns generalizing loc with
  | nil =>
    obtain rfl : loc = goal := Option.some.inj h
    exact .nil
  | cons n ns ih =>
    rw [placeWith] at h
    by_cases hdot : n = ['.']
    · rw [if_pos hdot] at h
      exact hdot ▸ .dot (ih h)
    rw [if_neg hdot] at h
    by_cases hdots : n = ['.', '.']
    · rw [if_pos hdots] at h
      exact hdots ▸ .up (ih h)
    rw [if_neg hdots] at h
    cases hlink : t.link? (loc ++ [n]) with
    | none =>
      rw [hlink] at h
      exact .step hdot hdots hlink (ih h)
    | some target =>
      rw [hlink] at h
      exact henter loc n ns target hdot hdots hlink h

/-- Names lead to their place. -/
theorem leads_of_placeOver (h : t.placeOver k loc ns = some goal) : Leads t k loc ns goal := by
  induction k generalizing loc ns with
  | zero => exact leads_of_placeWith (fun _ _ _ _ _ _ _ hno => by cases hno) h
  | succ k ih =>
    exact leads_of_placeWith (fun _ _ _ _ hdot hdots hlink h => .link hdot hdots hlink (ih h)) h

namespace Leads

theorem mono (h : Leads t k loc ns goal) (hle : k ≤ k₁) : Leads t k₁ loc ns goal := by
  induction h generalizing k₁ with
  | nil => exact .nil
  | dot _ ih => exact .dot (ih hle)
  | up _ ih => exact .up (ih hle)
  | step hdot hdots hlink _ ih => exact .step hdot hdots hlink (ih hle)
  | link hdot hdots hlink _ ih =>
    obtain ⟨j, rfl⟩ := Nat.exists_eq_add_of_le' (Nat.le_of_add_left_le hle)
    exact .link hdot hdots hlink (ih (Nat.le_of_add_le_add_right hle))

/-- A single point changes nothing on the way. -/
theorem of_dot (h : Leads t k loc (['.'] :: ns) goal) : Leads t k loc ns goal := by
  cases h with
  | dot h => exact h
  | step hdot _ _ _ => exact absurd rfl hdot
  | link hdot _ _ _ => exact absurd rfl hdot

/-- Two points lead to the directory above. -/
theorem of_up (h : Leads t k loc (['.', '.'] :: ns) goal) : Leads t k loc.dropLast ns goal := by
  cases h with
  | up h => exact h
  | step _ hdots _ _ => exact absurd rfl hdots
  | link _ hdots _ _ => exact absurd rfl hdots

/-- A name that is no dots leads to what it names, or over one link. -/
theorem of_name (h : Leads t k loc (n :: ns) goal) (hdot : n ≠ ['.']) (hdots : n ≠ ['.', '.']) :
    (t.link? (loc ++ [n]) = none ∧ Leads t k (loc ++ [n]) ns goal) ∨
      ∃ j target, k = j + 1 ∧ t.link? (loc ++ [n]) = some target ∧
        Leads t j (startOf loc target) (steps target ++ ns) goal := by
  cases h with
  | dot _ => exact absurd rfl hdot
  | up _ => exact absurd rfl hdots
  | step _ _ hlink h => exact Or.inl ⟨hlink, h⟩
  | link _ _ hlink h => exact Or.inr ⟨_, _, rfl, hlink, h⟩

/-- The names lead to one place only, however many links may be followed. -/
theorem unique (h : Leads t k loc ns goal) (h₁ : Leads t k₁ loc ns goal₁) : goal = goal₁ := by
  induction h generalizing k₁ with
  | nil =>
    cases h₁
    rfl
  | dot _ ih => exact ih h₁.of_dot
  | up _ ih => exact ih h₁.of_up
  | step hdot hdots hlink _ ih =>
    rcases h₁.of_name hdot hdots with ⟨-, h₁⟩ | ⟨_, _, -, hlink₁, -⟩
    · exact ih h₁
    · cases hlink.symm.trans hlink₁
  | link hdot hdots hlink _ ih =>
    rcases h₁.of_name hdot hdots with ⟨hlink₁, -⟩ | ⟨_, _, -, hlink₁, h₁⟩
    · cases hlink.symm.trans hlink₁
    · obtain rfl := Option.some.inj (hlink.symm.trans hlink₁)
      exact ih h₁

/-- Names that lead somewhere lead there over where the first of them lead. -/
theorem append (h : Leads t k loc (ns ++ ms) goal) :
    ∃ mid, Leads t k loc ns mid ∧ Leads t k mid ms goal := by
  generalize hnames : ns ++ ms = names at h
  induction h generalizing ns with
  | nil =>
    obtain ⟨rfl, rfl⟩ := List.append_eq_nil_iff.1 hnames
    exact ⟨_, .nil, .nil⟩
  | dot h ih =>
    cases ns with
    | nil =>
      obtain rfl : ms = _ := hnames
      exact ⟨_, .nil, .dot h⟩
    | cons n ns =>
      obtain ⟨rfl, hrest⟩ := List.cons.inj hnames
      obtain ⟨mid, hfront, hback⟩ := ih hrest
      exact ⟨mid, .dot hfront, hback⟩
  | up h ih =>
    cases ns with
    | nil =>
      obtain rfl : ms = _ := hnames
      exact ⟨_, .nil, .up h⟩
    | cons n ns =>
      obtain ⟨rfl, hrest⟩ := List.cons.inj hnames
      obtain ⟨mid, hfront, hback⟩ := ih hrest
      exact ⟨mid, .up hfront, hback⟩
  | step hdot hdots hlink h ih =>
    cases ns with
    | nil =>
      obtain rfl : ms = _ := hnames
      exact ⟨_, .nil, .step hdot hdots hlink h⟩
    | cons n ns =>
      obtain ⟨rfl, hrest⟩ := List.cons.inj hnames
      obtain ⟨mid, hfront, hback⟩ := ih hrest
      exact ⟨mid, .step hdot hdots hlink hfront, hback⟩
  | link hdot hdots hlink h ih =>
    cases ns with
    | nil =>
      obtain rfl : ms = _ := hnames
      exact ⟨_, .nil, .link hdot hdots hlink h⟩
    | cons n ns =>
      obtain ⟨rfl, rfl⟩ := List.cons.inj hnames
      obtain ⟨mid, hfront, hback⟩ := ih (List.append_assoc _ _ _)
      exact ⟨mid, .link hdot hdots hlink hfront, hback.mono (Nat.le_succ _)⟩

open Classical in
/-- There is a fewest number of links over which the names lead somewhere. -/
theorem exists_fewest (h : Leads t k loc ns goal) :
    ∃ j ≤ k, Leads t j loc ns goal ∧ ∀ i < j, ∀ goal₁, ¬Leads t i loc ns goal₁ := by
  have hsome : ∃ j goal₁, Leads t j loc ns goal₁ := ⟨k, goal, h⟩
  obtain ⟨goal₁, hgoal₁⟩ := Nat.find_spec hsome
  obtain rfl := h.unique hgoal₁
  exact ⟨Nat.find hsome, Nat.find_min' hsome ⟨goal, h⟩, hgoal₁, fun i hi goal₁ hi₁ =>
    Nat.find_min hsome hi ⟨goal₁, hi₁⟩⟩

end Leads

/-- The names of a written path lead where its pieces lead, of which the empty ones say nothing. -/
theorem leads_of_steps (h : Leads t k loc (steps target) goal) :
    Leads t k loc ((Text.splitOn ['/'] target).filter (· ≠ [])) goal := by
  obtain ⟨front, last, hpieces⟩ :=
    (List.eq_nil_or_concat (Text.splitOn ['/'] target)).resolve_left (by
      rw [Text.splitOn_singleton]
      exact List.splitOn_ne_nil _ _)
  unfold steps at h
  simp only [hpieces, List.concat_eq_append, List.dropLast_concat, List.getLast?_concat,
    Option.getD_some] at h
  rw [hpieces, List.concat_eq_append, List.filter_append]
  by_cases hlast : last = []
  · -- The dot that stands for an empty last piece leads no further.
    rw [if_pos (by simpa using hlast)] at h
    obtain ⟨mid, hfront, hdot⟩ := h.append
    cases hdot.of_dot
    simpa [hlast] using hfront
  · rw [if_neg (by simpa using hlast)] at h
    simpa [hlast] using h

end Leading

/-! ### What is remembered of links -/

section Remembering

/-- The links that are remembered lead to these locations. -/
def Right (t : FileTree) (known : KnownLinks) : Prop :=
  ∀ place target goal, t.link? place = some target → known.lookup place = some (some goal) →
    ∃ k, Leads t k (startOf place.dropLast target) (steps target) goal

/-- The links that are being followed lead nowhere over fewer links. -/
def Deep (t : FileTree) (k : ℕ) (known : KnownLinks) : Prop :=
  ∀ place target goal j, t.link? place = some target → known.lookup place = some none → j < k →
    ¬Leads t j (startOf place.dropLast target) (steps target) goal

theorem lookup_cons_of_ne {p : Location} {found : Option Location} (hne : p ≠ place) :
    List.lookup p ((place, found) :: known) = known.lookup p := by
  rw [List.lookup_cons, beq_eq_false_iff_ne.2 hne]

/-- What is known stays right when a link is entered. -/
theorem Right.enter (h : Right t known) : Right t ((place, none) :: known) := by
  intro p target goal hlink hknown
  by_cases hp : p = place
  · rw [hp, List.lookup_cons_self] at hknown
    cases hknown
  · rw [lookup_cons_of_ne hp] at hknown
    exact h p target goal hlink hknown

/-- When a link has been followed, where it leads is known. -/
theorem Right.leave (h : Right t known) (hlink : t.link? place = some target)
    (hgoal : Leads t k (startOf place.dropLast target) (steps target) goal) :
    Right t ((place, some goal) :: known) := by
  intro p target₁ goal₁ hlink₁ hknown
  by_cases hp : p = place
  · subst hp
    rw [List.lookup_cons_self] at hknown
    rw [hlink] at hlink₁
    obtain rfl := Option.some.inj hlink₁
    obtain rfl := Option.some.inj (Option.some.inj hknown)
    exact ⟨k, hgoal⟩
  · rw [lookup_cons_of_ne hp] at hknown
    exact h p target₁ goal₁ hlink₁ hknown

/-- A link can be followed over the fewest links that lead somewhere: over fewer it leads nowhere. -/
theorem Deep.enter (h : Deep t k known) (hlink : t.link? place = some target) (hle : k₁ ≤ k)
    (hfewest : ∀ j < k₁, ∀ goal, ¬Leads t j (startOf place.dropLast target) (steps target) goal) :
    Deep t k₁ ((place, none) :: known) := by
  intro p target₁ goal j hlink₁ hknown hj
  by_cases hp : p = place
  · subst hp
    rw [hlink] at hlink₁
    obtain rfl := Option.some.inj hlink₁
    exact hfewest j hj goal
  · rw [lookup_cons_of_ne hp] at hknown
    exact h p target₁ goal j hlink₁ hknown (hj.trans_le hle)

/-- The links that are open count, and nothing else that is known. -/
theorem Deep.of_lookup (h : Deep t k known)
    (hopen : ∀ p, known₁.lookup p = some none → known.lookup p = some none) : Deep t k known₁ :=
  fun p target goal j hlink hknown => h p target goal j hlink (hopen p hknown)

/-- The search comes to the goal. What it remembers is right, and it is following no link that it was not
following before. -/
structure Comes (t : FileTree) (links : List Location) (known : KnownLinks) (goal : Location)
    (result : Except Text Location × KnownLinks) : Prop where
  goal : result.1 = .ok goal
  following : Following t result.2 links
  right : Right t result.2
  noMore : ∀ p, result.2.lookup p = some none → known.lookup p = some none

namespace Comes

variable {result : Except Text Location × KnownLinks}

theorem of_lookup (h : Comes t links known₁ goal result)
    (hopen : ∀ p, known₁.lookup p = some none → known.lookup p = some none) :
    Comes t links known goal result :=
  ⟨h.goal, h.following, h.right, fun p hp => hopen p (h.noMore p hp)⟩

/-- When a link has been followed it is no longer among those that are being followed. -/
theorem noMore_leave (h : Comes t (place :: links) ((place, none) :: known) goal result) (p : Location)
    (hp : List.lookup p ((place, some goal) :: result.2) = some none) : known.lookup p = some none := by
  by_cases hplace : p = place
  · rw [hplace, List.lookup_cons_self] at hp
    cases hp
  · rw [lookup_cons_of_ne hplace] at hp
    have hbefore := h.noMore p hp
    rwa [lookup_cons_of_ne hplace] at hbefore

end Comes

/-- The search comes to where the names lead, if each link that is met is followed to where it leads. -/
theorem comes_realWith {enter : KnownLinks → Location → Text → Except Text Location × KnownLinks}
    (henter : ∀ {known place target goal j}, t.link? place = some target →
      Following t known (place :: links) → Right t known → Deep t j known →
      Leads t j (startOf place.dropLast target) (steps target) goal →
      Comes t (place :: links) known goal (enter known place.dropLast target))
    (hfollowing : Following t known links) (hright : Right t known) (hdeep : Deep t k known)
    (hleads : Leads t k loc (ns.filter (· ≠ [])) goal) :
    Comes t links known goal (realWith t enter known loc ns) := by
  induction ns generalizing known loc with
  | nil =>
    cases hleads
    exact ⟨rfl, hfollowing, hright, fun _ hp => hp⟩
  | cons n ns ih =>
    rw [realWith]
    by_cases hnil : n = []
    · rw [if_pos (by simp [hnil])]
      rw [List.filter_cons_of_neg (by simpa using hnil)] at hleads
      exact ih hfollowing hright hdeep hleads
    rw [List.filter_cons_of_pos (by simpa using hnil)] at hleads
    by_cases hdot : n = ['.']
    · rw [if_pos (by simp [hdot])]
      exact ih hfollowing hright hdeep (hdot ▸ hleads).of_dot
    rw [if_neg (by simp [hnil, hdot])]
    by_cases hdots : n = ['.', '.']
    · rw [if_pos hdots]
      exact ih hfollowing hright hdeep (hdots ▸ hleads).of_up
    rw [if_neg hdots]
    dsimp only
    rcases hleads.of_name hdot hdots with ⟨hlink, hleads⟩ | ⟨j, target, rfl, hlink, hleads⟩
    · split
      case h_1 target htarget =>
        rw [link?_eq_some_iff.2 htarget] at hlink
        cases hlink
      case h_2 => exact ih hfollowing hright hdeep hleads
    rw [link?_eq_some_iff.1 hlink]
    obtain ⟨mid, hfront, hback⟩ := hleads.append
    have hfront : Leads t j (startOf (loc ++ [n]).dropLast target) (steps target) mid := by
      rwa [List.dropLast_concat]
    have hback := hback.mono (Nat.le_succ j)
    dsimp only
    split
    case h_1 goal₁ hknown =>
      obtain ⟨i, hgoal⟩ := hright _ _ _ hlink hknown
      obtain rfl := hfront.unique hgoal
      exact ih hfollowing hright hdeep hback
    case h_2 hknown => exact absurd hfront (hdeep _ _ _ _ hlink hknown (Nat.lt_succ_self j))
    case h_3 hknown =>
      -- The link is followed over the fewest links, so that what is being followed stays deep.
      obtain ⟨i, hi, hfewest, hnone⟩ := hfront.exists_fewest
      have hcomes := henter hlink (hfollowing.enter (link?_eq_some_iff.1 hlink) hknown) hright.enter
        (hdeep.enter hlink (hi.trans (Nat.le_succ j)) hnone) hfewest
      rw [List.dropLast_concat] at hcomes
      generalize enter ((loc ++ [n], none) :: known) loc target = result at hcomes
      have hopen := hcomes.noMore_leave
      obtain ⟨found, known₁⟩ := result
      obtain ⟨rfl : found = _, hfollowing₁, hright₁, -⟩ := hcomes
      exact (ih (hfollowing₁.leave mid) (hright₁.leave hlink hfront) (hdeep.of_lookup hopen) hback).of_lookup
        hopen

/-- The depth that is left and the links that are being followed together exceed the size of the tree,
so the depth is not used up. -/
theorem comes_realFrom {depth : ℕ} (hfollowing : Following t known links) (hright : Right t known)
    (hdeep : Deep t k known) (hleads : Leads t k loc (ns.filter (· ≠ [])) goal)
    (hdepth : links.length + depth = t.size + 1) :
    Comes t links known goal (realFrom t depth known loc ns) := by
  induction depth generalizing known links loc ns goal k with
  | zero =>
    have hlength := length_le_size hfollowing.nodup hfollowing.isLink
    omega
  | succ depth ih =>
    refine comes_realWith (fun _ hfollowing hright hdeep hleads => ?_) hfollowing hright hdeep hleads
    refine ih hfollowing hright hdeep (leads_of_steps hleads) ?_
    rw [List.length_cons]
    omega

/-- The real path of what leads to a location is the path of the location. -/
theorem realPath_of_leads {cwd : Location} {p : Path} (hp : p.Proper)
    (hleads : Leads t k (if p.isAbsolute then [] else cwd) p.parts goal) :
    t.realPath cwd p = Path.ofLocation goal := by
  have hparts : p.parts.filter (· ≠ []) = p.parts := by
    rw [List.filter_eq_self]
    intro n hn
    simpa using (hp n hn).ne_nil
  have hright : Right t [] := fun _ _ _ _ hknown => nomatch hknown
  have hdeep : Deep t k [] := fun _ _ _ _ _ hknown => nomatch hknown
  have hcomes := comes_realFrom (Following.nil t) hright hdeep (hparts.symm ▸ hleads)
    (Nat.zero_add (t.size + 1))
  unfold realPath
  dsimp only
  rw [hcomes.goal]
  rfl

end Remembering

/-! ### Orderly trees -/

section Order

/-- Whatever is in the tree stands in a directory and is called by a name that can be read back. -/
structure Orderly (t : FileTree) : Prop where
  closed : t.Closed
  names : ∀ loc e, t.get? loc = some e → ∀ n ∈ loc, Path.IsName n ∧ n ≠ ['.', '.']

/-- An empty tree is in order. -/
theorem orderly_empty : Orderly empty := by
  refine ⟨closed_empty, fun loc e he => ?_⟩
  cases loc with
  | nil => exact fun n hn => absurd hn List.not_mem_nil
  | cons m ns => cases he

/-- What is put into a directory under a name that can be read back keeps the tree orderly. -/
theorem Orderly.put {dir : Location} {e : Entry} (h : t.Orderly) (hdir : t.get? dir = some .directory)
    (hname : Path.IsName n) (hdots : n ≠ ['.', '.']) (hplace : t.get? (dir ++ [n]) ≠ some .directory) :
    (t.put (dir ++ [n]) e).Orderly := by
  refine ⟨h.closed.put (by rwa [List.dropLast_concat]) hplace, fun loc e₁ he₁ => ?_⟩
  by_cases hloc : loc = dir ++ [n]
  · rw [hloc]
    exact List.forall_mem_append.2
      ⟨h.names dir _ hdir, List.forall_mem_singleton.2 ⟨hname, hdots⟩⟩
  · rw [get?_put_of_ne t hloc] at he₁
    exact h.names loc e₁ he₁

/-- Above something there are directories. -/
theorem Closed.get?_of_prefix {e : Entry} (h : t.Closed) (he : t.get? (loc ++ ns) = some e)
    (hns : ns ≠ []) : t.get? loc = some .directory := by
  induction ns using List.reverseRecOn generalizing e with
  | nil => exact absurd rfl hns
  | append_singleton ns n ih =>
    have hparent := h _ _ he
    rw [← List.append_assoc, List.dropLast_concat] at hparent
    by_cases hnil : ns = []
    · rwa [hnil, List.append_nil] at hparent
    · exact ih hparent hnil

/-- A way on which there is no link does not lead back to itself. -/
theorem walkWith_ne_linkLoop {enter : Location → List Text → Except PathFault Location}
    {followLast : Bool} (hnames : ∀ n ∈ ns, n ≠ ['.'] ∧ n ≠ ['.', '.'])
    (hlinks : ∀ ms, ms <+: ns → t.link? (loc ++ ms) = none) :
    t.walkWith barred enter followLast loc ns ≠ .error .linkLoop := by
  induction ns generalizing loc with
  | nil => exact fun h => by cases h
  | cons n ns ih =>
    obtain ⟨hdot, hdots⟩ := hnames n List.mem_cons_self
    have hback : t.walkWith barred enter followLast (loc ++ [n]) ns ≠ .error .linkLoop := by
      refine ih (fun m hm => hnames m (List.mem_cons_of_mem _ hm)) fun ms hms => ?_
      rw [List.append_assoc]
      exact hlinks (n :: ms) (List.cons_prefix_cons.2 ⟨rfl, hms⟩)
    rw [walkWith, if_neg hdot]
    by_cases hbarred : barred loc = true
    · rw [if_pos hbarred]
      exact fun h => by cases h
    rw [if_neg hbarred, if_neg hdots]
    by_cases hlong : tooLong n = true
    · rw [if_pos hlong]
      exact fun h => by cases h
    rw [if_neg hlong]
    have hlink : t.link? (loc ++ [n]) = none :=
      hlinks [n] (List.cons_prefix_cons.2 ⟨rfl, List.nil_prefix⟩)
    cases he : t.get? (loc ++ [n]) with
    | none => cases ns <;> exact fun h => by cases h
    | some e =>
      cases e with
      | directory => exact hback
      | file content => cases ns <;> exact fun h => by cases h
      | link target =>
        rw [link?_eq_some_iff.2 he] at hlink
        cases hlink

/-- In an orderly tree the path of something that is no link leads over no link. -/
theorem Orderly.look_ne_linkLoop {e : Entry} {cwd : Location} (h : t.Orderly)
    (he : t.get? loc = some e) (hlink : t.link? loc = none) :
    t.look barred cwd (Path.ofLocation loc).text ≠ .error .linkLoop := by
  have hproper : (Path.ofLocation loc).Proper := fun n hn => (h.names loc e he n hn).1
  have hlocate : t.locate barred cwd (Path.ofLocation loc).text ≠ .error .linkLoop := by
    unfold locate
    split
    · exact fun h => by cases h
    split
    · exact fun h => by cases h
    dsimp only
    rw [startOf_text hproper]
    by_cases hnil : loc = []
    · subst hnil
      exact fun h => by cases h
    rw [steps_text hproper hnil]
    refine walkWith_ne_linkLoop (fun n hn => ⟨(hproper n hn).ne_dot, (h.names loc e he n hn).2⟩) ?_
    rintro ms ⟨back, hloc : _ = loc⟩
    change t.link? ms = none
    by_cases hback : back = []
    · rwa [← hloc, hback, List.append_nil] at hlink
    · rw [← hloc] at he
      rw [link?, h.closed.get?_of_prefix he hback]
  unfold look
  split
  case h_1 f hf =>
    intro hloop
    exact hlocate (hf.trans (congrArg _ (Except.error.inj hloop)))
  case h_2 => split <;> exact fun h => by cases h

end Order

end FileTree

namespace Disk

variable {d : Disk} {p : Path} {loc : Location} {e : Entry}

/-- A path that has a place has it as its real path. -/
theorem realPath_of_place (hp : p.Proper) (h : d.place p.text = some loc) :
    d.tree.realPath d.cwd p = Path.ofLocation loc := by
  rw [place_text hp] at h
  exact FileTree.realPath_of_leads hp (FileTree.leads_of_placeOver h)

/-- A path that leads to something is resolved to where it leads. -/
theorem resolve_of_locate (horderly : d.tree.Orderly) (hp : p.Proper) (hloc : d.locate p.text = .ok loc)
    (he : d.tree.get? loc = some e) (hlink : d.tree.link? loc = none) :
    d.resolve p = .ok (Path.ofLocation loc) := by
  have hnull : ¬p.text.contains nullChar = true := by
    simpa using (locate_eq_ok.1 hloc).1
  unfold resolve
  rw [if_neg hnull, realPath_of_place hp (place_of_locate hloc (Or.inl rfl))]
  dsimp only
  split
  case h_1 hloop => exact absurd hloop (horderly.look_ne_linkLoop he hlink)
  case h_2 => rfl

end Disk

end JitInspect
