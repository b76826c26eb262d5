import JitInspect.FileTree.Disk
import JitInspect.Proofs.FileTree.Written
import Mathlib.Data.List.Perm.Subperm

/-!
# Absolute paths

An absolute path names a location: where no links are, two dots lead one level up (`Path.location`). A
name behind a path leads one level further down, whatever the path consists of
(`Path.location_child`).

A path that is resolved is absolute (`Disk.isAbsolute_of_resolve`). The links on its way are followed
one within another; those that are being followed at a time are different ones (`FileTree.Following`),
so there are never more of them than names in the tree, and the depth that the search is given is
never used up. So the search comes to a location, or to what is left of a path that leads back to
itself, which is absolute.
-/

namespace JitInspect

namespace Path

variable {p q : Path} {n : Text}

/-! ### Locations that paths name -/

section Locations

/-- The location that an absolute path names where no links are. -/
def location (p : Path) : Location := FileTree.normalize [] p.parts

/-- A last name that does not lead upward is the last name of the location. -/
theorem normalize_concat (loc : Location) (ns : List Text) (hn : n ≠ ['.', '.']) :
    FileTree.normalize loc (ns ++ [n]) = FileTree.normalize loc ns ++ [n] := by
  induction ns generalizing loc with
  | nil => simp [FileTree.normalize, hn]
  | cons m ns ih =>
    rw [List.cons_append, FileTree.normalize, FileTree.normalize]
    split
    · exact ih loc.dropLast
    · exact ih (loc ++ [m])

/-- The location of a child. -/
theorem location_child (p : Path) (hname : IsName n) (hn : n ≠ ['.', '.']) :
    (p.child n).location = p.location ++ [n] := by
  rw [child_of_isName p hname]
  exact normalize_concat [] p.parts hn

/-- The last name of a child. -/
theorem name_child (p : Path) (hname : IsName n) : (p.child n).name = n := by
  rw [child_of_isName p hname, name, List.getLast?_concat, Option.getD_some]

/-- A name behind the second of two joined paths is a name behind both. -/
theorem append_child (p q : Path) (hname : IsName n) : p ++ q.child n = (p ++ q).child n := by
  rw [child_of_isName _ hname, child_of_isName _ hname]
  change append p ⟨q.anchor, q.parts ++ [n]⟩ = ⟨(append p q).anchor, (append p q).parts ++ [n]⟩
  unfold append
  change (if q.isAbsolute = true then _ else _) = _
  split
  · rfl
  · rw [List.append_assoc]

theorem isAbsolute_append (hp : p.isAbsolute = true) (q : Path) : (p ++ q).isAbsolute = true := by
  change (append p q).isAbsolute = true
  unfold append
  split
  case isTrue hq => exact hq
  case isFalse => exact hp

end Locations

end Path

namespace FileTree

variable {t : FileTree} {known : KnownLinks} {links : List Location} {loc place : Location}
  {a b target : Text} {ns : List Text} {e : Entry}

/-! ### How many locations there are -/

section Counting

/-- An entry that is found is listed. -/
theorem mem_entriesFrom_of_find (h : t.find loc = some e) (top : Location) :
    (top ++ loc, e) ∈ t.entriesFrom top := by
  induction t generalizing loc top with
  | empty => cases loc <;> cases h
  | node m old below beside ihBelow ihBeside =>
    cases loc with
    | nil => cases h
    | cons n ns =>
      rw [find] at h
      rw [entriesFrom, List.mem_append, List.mem_append]
      split at h
      case isTrue hm =>
        subst hm
        split at h
        case isTrue hns =>
          rw [List.isEmpty_iff.1 hns, h]
          exact Or.inl (Or.inl List.mem_cons_self)
        case isFalse hns =>
          have hmem := ihBelow h (top ++ [m])
          rw [List.append_assoc] at hmem
          exact Or.inl (Or.inr hmem)
      case isFalse hm => exact Or.inr (ihBeside h top)

/-- There are not more entries than the tree is large. -/
theorem length_entriesFrom_le (t : FileTree) (top : Location) :
    (t.entriesFrom top).length ≤ t.size := by
  induction t generalizing top with
  | empty => exact Nat.le_refl 0
  | node m old below beside ihBelow ihBeside =>
    have hbelow := ihBelow (top ++ [m])
    have hbeside := ihBeside top
    have hold : (old.toList.map fun e => (top ++ [m], e)).length ≤ 1 := by
      cases old <;> simp
    rw [entriesFrom, List.length_append, List.length_append, size]
    omega

/-- There are no more links than names in the tree. -/
theorem length_le_size (hnodup : links.Nodup)
    (hlinks : ∀ p ∈ links, ∃ target, t.get? p = some (.link target)) : links.length ≤ t.size := by
  have hsub : links ⊆ (t.entriesFrom []).map Prod.fst := by
    intro p hp
    obtain ⟨target, htarget⟩ := hlinks p hp
    cases p with
    | nil => cases htarget
    | cons n ns => exact List.mem_map.2 ⟨_, mem_entriesFrom_of_find htarget [], rfl⟩
  have hlength := (List.subperm_of_subset hnodup hsub).length_le
  rw [List.length_map] at hlength
  exact hlength.trans (length_entriesFrom_le t [])

end Counting

/-! ### Following links -/

section Links

/-- These links are being followed: it is not known yet where they lead. -/
structure Following (t : FileTree) (known : KnownLinks) (links : List Location) : Prop where
  nodup : links.Nodup
  isLink : ∀ p ∈ links, ∃ target, t.get? p = some (.link target)
  isOpen : ∀ p ∈ links, known.lookup p = some none

theorem Following.nil (t : FileTree) : Following t [] [] :=
  ⟨List.nodup_nil, fun _ hp => absurd hp List.not_mem_nil, fun _ hp => absurd hp List.not_mem_nil⟩

/-- A link that is not known can be followed as well. -/
theorem Following.enter (h : Following t known links) (hlink : t.get? place = some (.link target))
    (hnew : known.lookup place = none) : Following t ((place, none) :: known) (place :: links) := by
  have hplace : place ∉ links := by
    intro hmem
    rw [h.isOpen place hmem] at hnew
    cases hnew
  refine ⟨List.nodup_cons.2 ⟨hplace, h.nodup⟩, ?_, ?_⟩
  · exact List.forall_mem_cons.2 ⟨⟨target, hlink⟩, h.isLink⟩
  · refine List.forall_mem_cons.2 ⟨List.lookup_cons_self, fun p hp => ?_⟩
    have hne : (p == place) = false := beq_eq_false_iff_ne.2 fun heq => hplace (heq ▸ hp)
    rw [List.lookup_cons, hne]
    exact h.isOpen p hp

/-- It becomes known where the link leads that was followed last. -/
theorem Following.leave (h : Following t known (place :: links)) (goal : Location) :
    Following t ((place, some goal) :: known) links := by
  obtain ⟨hplace, hnodup⟩ := List.nodup_cons.1 h.nodup
  refine ⟨hnodup, fun p hp => h.isLink p (List.mem_cons_of_mem _ hp), fun p hp => ?_⟩
  have hne : (p == place) = false := beq_eq_false_iff_ne.2 fun heq => hplace (heq ▸ hp)
  rw [List.lookup_cons, hne]
  exact h.isOpen p (List.mem_cons_of_mem _ hp)

/-- The search has come to a location, and the links are still being followed, or it has ended with an
absolute path that is left. -/
def Arrives (t : FileTree) (links : List Location) : Except Text Location × KnownLinks → Prop
  | (.ok _, known) => Following t known links
  | (.error written, _) => Text.startsWith written ['/'] = true

/-- Joined texts begin as the first one does. -/
theorem startsWith_joinWritten (h : Text.startsWith a ['/'] = true) :
    Text.startsWith (joinWritten a b) ['/'] = true := by
  unfold joinWritten
  split
  case isTrue hb => exact hb
  case isFalse =>
    obtain ⟨rest, rfl⟩ := Text.startsWith_iff.1 h
    split
    · exact Text.startsWith_iff.2 ⟨rest ++ b, List.append_assoc ..⟩
    · exact Text.startsWith_iff.2 ⟨rest ++ '/' :: b, List.append_assoc ..⟩

/-- One search arrives when the searches behind the links that it meets do. -/
theorem arrives_realWith {enter : KnownLinks → Location → Text → Except Text Location × KnownLinks}
    (henter : ∀ {known place loc target}, Following t known (place :: links) →
      Arrives t (place :: links) (enter known loc target))
    (h : Following t known links) : Arrives t links (realWith t enter known loc ns) := by
  induction ns generalizing known loc with
  | nil => exact h
  | cons n ns ih =>
    rw [realWith]
    split
    · exact ih h
    split
    · exact ih h
    dsimp only
    split
    case h_1 target hlink =>
      split
      case h_1 goal hgoal => exact ih h
      case h_2 hopen => exact startsWith_joinWritten (Text.startsWith_iff.2 ⟨_, rfl⟩)
      case h_3 hnew =>
        have harrives : Arrives t ((loc ++ [n]) :: links) (enter _ loc target) :=
          henter (h.enter hlink hnew)
        split
        case h_1 goal known₁ hresult =>
          rw [hresult] at harrives
          exact ih (Following.leave harrives goal)
        case h_2 written known₁ hresult =>
          rw [hresult] at harrives
          exact startsWith_joinWritten harrives
    case h_2 => exact ih h

/-- The depth that is left and the links that are being followed together exceed the size of the tree,
so the depth is not used up. -/
theorem arrives_realFrom {depth : ℕ} (h : Following t known links)
    (hdepth : links.length + depth = t.size + 1) :
    Arrives t links (realFrom t depth known loc ns) := by
  induction depth generalizing known links loc ns with
  | zero =>
    have hlength := length_le_size h.nodup h.isLink
    omega
  | succ depth ih =>
    refine arrives_realWith (fun hinner => ih hinner ?_) h
    rw [List.length_cons]
    omega

end Links

/-! ### The real path -/

section RealPath

/-- A text that begins with a slash is an absolute path. -/
theorem isAbsolute_ofText (h : Text.startsWith a ['/'] = true) : (Path.ofText a).isAbsolute = true := by
  obtain ⟨rest, rfl⟩ := Text.startsWith_iff.1 h
  unfold Path.ofText Path.isAbsolute Path.anchorOf
  rw [decide_eq_true_eq, List.singleton_append, List.takeWhile_cons_of_pos (by decide)]
  split
  case h_1 hnone => cases hnone
  case h_2 => simp
  case h_3 => simp

/-- A real path is absolute. -/
theorem isAbsolute_realPath (t : FileTree) (cwd : Location) (p : Path) :
    (t.realPath cwd p).isAbsolute = true := by
  have harrives : Arrives t []
      (realFrom t (t.size + 1) [] (if p.isAbsolute then [] else cwd) p.parts) :=
    arrives_realFrom (Following.nil t) (Nat.zero_add _)
  unfold realPath
  dsimp only
  revert harrives
  cases realFrom t (t.size + 1) [] (if p.isAbsolute then [] else cwd) p.parts with
  | mk result known =>
    cases result with
    | ok loc => exact fun _ => rfl
    | error written => exact fun harrives => isAbsolute_ofText harrives

end RealPath

end FileTree

/-- A path that is resolved is absolute. -/
theorem Disk.isAbsolute_of_resolve {d : Disk} {p q : Path} (h : d.resolve p = .ok q) :
    q.isAbsolute = true := by
  have habsolute := FileTree.isAbsolute_realPath d.tree d.cwd p
  unfold Disk.resolve at h
  split at h
  · cases h
  · dsimp only at h
    split at h
    · cases h
    · exact Except.ok.inj h ▸ habsolute

end JitInspect
