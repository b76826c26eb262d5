import JitInspect.FileTree.Glob
import JitInspect.Proofs.FileTree.Walking
import JitInspect.Proofs.Sequences
import Mathlib.Data.List.Infix

/-!
# Names with a given end

A star in front of a text in which nothing stands for anything else (`GlobItem.IsPlain`) fits the names
that end with this text (`GlobItem.fits_star_iff`). Such a pattern gives the paths of the names in a
folder that end so, in the order of the names, and nothing if the folder is barred (`Disk.glob_star`).
-/

namespace JitInspect

namespace GlobItem

variable {t lit : Text} {n : ℕ}

/-- No character of the text stands for anything else, and none separates names. -/
def IsPlain (t : Text) : Prop := ∀ c ∈ t, c ≠ '*' ∧ c ≠ '?' ∧ c ≠ '[' ∧ c ≠ '/'

/-! ### Patterns that begin with a star -/

section Star

/-- A text without wildcards is a pattern of its characters. -/
theorem parseWithin_plain (h : IsPlain lit) (hlength : lit.length ≤ n) :
    parseWithin n lit = lit.map literal := by
  induction lit generalizing n with
  | nil => cases n <;> rfl
  | cons c cs ih =>
    obtain ⟨n, rfl⟩ := Nat.exists_eq_add_one.2 (Nat.lt_of_lt_of_le (Nat.succ_pos _) hlength)
    obtain ⟨hstar, hquestion, hbracket, -⟩ := h c List.mem_cons_self
    have hback := ih (fun c hc => h c (List.mem_cons_of_mem _ hc)) (Nat.le_of_succ_le_succ hlength)
    rw [parseWithin, hback, List.map_cons]
    all_goals assumption

/-- The first tail of a text is the text. -/
theorem map_tails (f : Text → Bool) (t : Text) : t.tails.map f = f t :: (t.tails.map f).tail := by
  cases t <;> rfl

/-- Characters that stand for themselves match the end of the text that they are. -/
theorem matchesOfEnds_plain (lit t : Text) :
    matchesOfEnds t (lit.map literal) = t.tails.map fun r => decide (r = lit) := by
  induction lit with
  | nil =>
    rw [List.map_nil, matchesOfEnds]
    induction t with
    | nil => rfl
    | cons c t ih =>
      rw [List.map_cons, List.cons_append, ih, List.tails_cons, List.map_cons, decide_eq_false nofun]
  | cons l lit ih =>
    rw [List.map_cons, matchesOfEnds.eq_3 t (literal l) _ nofun, ih]
    clear ih
    induction t with
    | nil => rfl
    | cons c t ih =>
      have hfirst : ((literal l).accepts c && decide (t = lit)) = decide (c :: t = l :: lit) := by
        simp [accepts, eq_comm]
      rw [List.tails_cons, List.map_cons, List.tail_cons, map_tails, List.zipWith_cons_cons,
        List.cons_append, ih, List.map_cons, hfirst]

/-- Whether some tail matches is the first of the answers. -/
theorem head?_someOfEnd (answers : List Bool) :
    (someOfEnd answers).head?.getD false = answers.any id := by
  induction answers with
  | nil => rfl
  | cons a answers ih =>
    rw [List.any_cons, ← ih]
    rfl

/-- A star in front of a plain text fits the names that end with the text. -/
theorem fits_star_iff (h : IsPlain lit) (name : Text) :
    fits ('*' :: lit) name = true ↔ lit <:+ name := by
  have hparse : parse ('*' :: lit) = any :: lit.map literal := by
    rw [parse, List.length_cons, parseWithin, parseWithin_plain h (Nat.le_refl _)]
  rw [fits, hparse, run, matchesOfEnds, matchesOfEnds_plain, head?_someOfEnd, List.any_map,
    List.any_eq_true]
  constructor
  · rintro ⟨r, hr, heq⟩
    rw [← of_decide_eq_true heq]
    exact (List.mem_tails r name).1 hr
  · exact fun hend => ⟨lit, (List.mem_tails lit name).2 hend, decide_eq_true rfl⟩

end Star

end GlobItem

namespace Disk

variable {d : Disk} {dir : Path} {lit : Text}

/-! ### The names in a folder -/

section Names

/-- Only a directory has names, -/
theorem isDirectory_of_names {path : Text} {ns : List Text} (h : d.names path = .ok ns) :
    d.isDirectory path = .ok true := by
  rw [isDirectory_eq_ok_true]
  unfold names at h
  cases hlocate : d.locate path with
  | error f =>
    rw [hlocate] at h
    cases h
  | ok loc =>
    refine ⟨loc, rfl, ?_⟩
    rw [hlocate] at h
    cases hentry : d.tree.get? loc with
    | none => simp [hentry] at h
    | some e => cases e <;> simp [hentry] at h ⊢

/-- and they can be read unless access to it is denied. -/
theorem names_of_isDirectory {path : Text} (h : d.isDirectory path = .ok true) :
    (∃ ns, d.names path = .ok ns) ∨ d.names path = .error (.refused .denied path) := by
  obtain ⟨loc, hlocate, hentry⟩ := isDirectory_eq_ok_true.1 h
  unfold names
  rw [hlocate]
  simp only [hentry]
  by_cases hbarred : d.barred loc = true
  · exact Or.inr (if_pos hbarred)
  · exact Or.inl ⟨d.tree.names loc, if_neg hbarred⟩

/-- The path of a name in a folder. -/
def entryPath (dir : Path) (n : Text) : Path := ⟨dir.anchor, dir.parts ++ [n]⟩

/-- The path of an entry is that of a child. -/
theorem entryPath_eq_child {n : Text} (h : Path.IsName n) : entryPath dir n = dir.child n :=
  (Path.child_of_isName dir h).symm

/-- A star and a plain text are one name. -/
theorem isName_star (h : GlobItem.IsPlain lit) : Path.IsName ('*' :: lit) := by
  refine ⟨List.cons_ne_nil _ _, fun heq => ?_, fun hmem => ?_⟩
  · exact absurd (List.cons.inj heq).1 (by decide)
  · rcases List.mem_cons.1 hmem with hstar | hmem
    · exact absurd hstar (by decide)
    · exact (h _ hmem).2.2.2 rfl

/-- There is one star only. -/
theorem not_anyFolders (h : GlobItem.IsPlain lit) : ¬anyFolders <:+: '*' :: lit := by
  rintro ⟨front, back, heq⟩
  have hstar : '*' ∈ lit := by
    cases front with
    | nil =>
      rw [← (List.cons.inj heq).2]
      exact List.mem_cons_self
    | cons c front =>
      rw [← (List.cons.inj heq).2]
      exact List.mem_append_left _ (List.mem_append_right _ List.mem_cons_self)
  exact (h '*' hstar).1 rfl

/-- A filter, written with lists of at most one element. -/
theorem flatten_map_ite {α β : Type} (p : α → Bool) (f : α → β) (xs : List α) :
    (xs.map fun x => if p x then [f x] else []).flatten = (xs.filter p).map f := by
  induction xs with
  | nil => rfl
  | cons x xs ih =>
    rw [List.map_cons, List.flatten_cons, ih, List.filter_cons]
    split <;> rfl

/-- A search that gives something has not failed. -/
theorem eq_of_mem_orNothing {α : Type} {found : Except FileFault (List α)} {xs : List α} {x : α}
    (h : orNothing found = .ok xs) (hx : x ∈ xs) : found = .ok xs := by
  unfold orNothing at h
  cases found with
  | ok ys => exact h
  | error f =>
    simp only at h
    split at h
    · cases h
      cases hx
    · cases h

/-- Where nothing fails, everything is gathered. -/
theorem gather_of_forall {α β : Type} {f : α → Except FileFault (List β)} {g : α → List β} {xs : List α}
    (h : ∀ x ∈ xs, f x = .ok (g x)) : gather f xs = .ok (xs.map g).flatten := by
  induction xs with
  | nil => rfl
  | cons x xs ih =>
    obtain ⟨hx, hxs⟩ := List.forall_mem_cons.1 h
    rw [gather, hx, ih hxs]
    rfl

/-- What is gathered was found for one of the elements. -/
theorem exists_of_mem_gather {α β : Type} {f : α → Except FileFault (List β)} {xs : List α} {ys : List β}
    {y : β} (h : gather f xs = .ok ys) (hy : y ∈ ys) : ∃ x ∈ xs, ∃ zs, f x = .ok zs ∧ y ∈ zs := by
  induction xs generalizing ys with
  | nil =>
    cases h
    cases hy
  | cons x xs ih =>
    obtain ⟨zs, hfound, h⟩ := bind_eq_ok.1 (eq_of_mem_orNothing h hy)
    obtain ⟨rest, hrest, h⟩ := bind_eq_ok.1 h
    obtain rfl := Except.ok.inj h
    rcases List.mem_append.1 hy with hy | hy
    · exact ⟨x, List.mem_cons_self, zs, hfound, hy⟩
    · obtain ⟨x₁, hx₁, hfound₁⟩ := ih hrest hy
      exact ⟨x₁, List.mem_cons_of_mem _ hx₁, hfound₁⟩

/-- The paths that a star in front of a plain text gives are those of the names that end with the text.
-/
theorem glob_star (h : GlobItem.IsPlain lit) (d : Disk) (dir : Path) :
    d.glob dir ('*' :: lit) = (orNothing (d.names dir.text)).map fun ns =>
      (ns.filter fun n => lit.isSuffixOf n).map (entryPath dir) := by
  have hfolders : '*' :: lit ≠ anyFolders := by
    intro heq
    exact not_anyFolders h (heq ▸ List.infix_refl _)
  have hno : Text.has anyFolders ('*' :: lit) = false := by
    rw [Text.has, Text.splitFirst_eq_none_iff.2 (not_anyFolders h)]
    rfl
  have hpattern : GlobItem.isPattern ('*' :: lit) = true := rfl
  unfold glob
  rw [Path.namesOf_of_isName (isName_star h)]
  simp only [List.any_cons, List.any_nil, hno, Bool.and_false, Bool.or_false, Bool.false_eq_true,
    if_false]
  rw [globParts]
  simp only [if_neg hfolders, if_pos hpattern]
  cases orNothing (d.names dir.text) with
  | error f => rfl
  | ok ns =>
    refine bind_eq_ok.2 ⟨ns, rfl, ?_⟩
    rw [gather_of_forall (g := fun n => if lit.isSuffixOf n then [entryPath dir n] else []) fun n _ => ?_]
    · exact congrArg Except.ok (flatten_map_ite _ _ ns)
    · by_cases hend : lit.isSuffixOf n = true
      · have hfits : GlobItem.fits ('*' :: lit) n = true :=
          (GlobItem.fits_star_iff h n).2 (List.isSuffixOf_iff_suffix.1 hend)
        rw [if_pos hend, hfits]
        rfl
      · have hfits : GlobItem.fits ('*' :: lit) n = false := by
          rw [Bool.eq_false_iff]
          exact fun hfits => hend (List.isSuffixOf_iff_suffix.2 ((GlobItem.fits_star_iff h n).1 hfits))
        rw [if_neg hend, hfits]
        rfl

end Names

end Disk

end JitInspect
