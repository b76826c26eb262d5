import JitInspect.FileTree.Way
import JitInspect.Proofs.Text.Pieces
import Mathlib.Tactic.Common

/-!
# Written paths

A path is written with a slash between its names, and a lookup cuts what is written at the slashes. So
the names that a lookup follows are those of the path (`FileTree.steps_text`), as long as each of them
can be read back (`Path.Proper`), which is so for every path that was read, and such a path is read again
from what is written for it (`Path.ofText_text`). Where the lookup starts is decided by the anchor alone
(`FileTree.startOf_text`). A name that is written behind a path leads further down and changes neither
(`Path.Within`).
-/

namespace JitInspect

namespace Path

/-! ### Names and paths that can be read back -/

section Names

/-- The text is the name of something in a directory: it says something and holds no slash. -/
structure IsName (n : Text) : Prop where
  ne_nil : n ≠ []
  ne_dot : n ≠ ['.']
  no_slash : separator ∉ n

/-- Every name of the path can be read back. -/
def Proper (p : Path) : Prop := ∀ n ∈ p.parts, IsName n

/-- What is read are names. -/
theorem isName_of_mem_namesOf {t n : Text} (h : n ∈ namesOf t) : IsName n := by
  unfold namesOf at h
  obtain ⟨hmem, hkept⟩ := List.mem_filter.1 h
  simp only [ne_eq, Bool.and_eq_true, decide_not, Bool.not_eq_true',
    decide_eq_false_iff_not] at hkept
  exact ⟨hkept.1, hkept.2, Text.not_mem_of_mem_splitOn hmem⟩

/-- A path that was read is proper. -/
theorem proper_ofText (t : Text) : (ofText t).Proper := fun _ hn => isName_of_mem_namesOf hn

/-- A name is read as itself. -/
theorem namesOf_of_isName {n : Text} (h : IsName n) : namesOf n = [n] := by
  unfold namesOf
  rw [Text.splitOn_of_not_mem h.no_slash]
  simp [h.ne_nil, h.ne_dot]

/-- A text without a slash at its start is read from here. -/
theorem anchorOf_eq_here {t : Text} (h : t.head? ≠ some separator) : anchorOf t = .here := by
  unfold anchorOf
  cases t with
  | nil => rfl
  | cons c cs =>
    have hc : c ≠ separator := fun hc => h (by rw [hc]; rfl)
    simp [hc]

/-- A name does not begin with a slash. -/
theorem IsName.head?_ne {n : Text} (h : IsName n) : n.head? ≠ some separator := by
  intro hhead
  exact h.no_slash (List.mem_of_mem_head? hhead)

end Names

/-! ### Paths below a path -/

section Below

variable {p q r : Path}

/-- The second path is the first one or leads further down from it. -/
structure Within (p q : Path) : Prop where
  anchor : q.anchor = p.anchor
  parts : ∃ ns, q.parts = p.parts ++ ns ∧ ∀ n ∈ ns, IsName n

namespace Within

theorem refl (p : Path) : p.Within p := ⟨rfl, [], by simp, by simp⟩

theorem trans (h : p.Within q) (h₁ : q.Within r) : p.Within r := by
  obtain ⟨hanchor, ns, hparts, hnames⟩ := h
  obtain ⟨hanchor₁, ms, hparts₁, hnames₁⟩ := h₁
  refine ⟨hanchor₁.trans hanchor, ns ++ ms, by rw [hparts₁, hparts, List.append_assoc], ?_⟩
  intro n hn
  rcases List.mem_append.1 hn with hn | hn
  · exact hnames n hn
  · exact hnames₁ n hn

/-- What lies within a proper path is proper. -/
theorem proper (h : p.Within q) (hp : p.Proper) : q.Proper := by
  obtain ⟨-, ns, hparts, hnames⟩ := h
  intro n hn
  rw [hparts] at hn
  rcases List.mem_append.1 hn with hn | hn
  · exact hp n hn
  · exact hnames n hn

theorem isAbsolute (h : p.Within q) : q.isAbsolute = p.isAbsolute := by
  unfold Path.isAbsolute
  rw [h.anchor]

end Within

/-- The child of a path has its names and those of the text. -/
theorem child_eq {p : Path} {name : Text} (h : name.head? ≠ some separator) :
    p.child name = ⟨p.anchor, p.parts ++ namesOf name⟩ := by
  unfold child
  change (if (ofText name).isAbsolute then ofText name else _) = _
  have hhere : (ofText name).isAbsolute = false := by
    simp [isAbsolute, ofText, anchorOf_eq_here h]
  rw [hhere]
  rfl

/-- What is written behind a path without a slash at its start leads further down. -/
theorem within_child (p : Path) {name : Text} (h : name.head? ≠ some separator) :
    p.Within (p.child name) := by
  rw [child_eq h]
  exact ⟨rfl, namesOf name, rfl, fun _ hn => isName_of_mem_namesOf hn⟩

/-- A single name is the last one of the child. -/
theorem child_of_isName (p : Path) {n : Text} (h : IsName n) :
    p.child n = ⟨p.anchor, p.parts ++ [n]⟩ := by
  rw [child_eq h.head?_ne, namesOf_of_isName h]

/-- A path is written with slashes between its names. -/
theorem text_eq (h : p.parts ≠ []) : p.text = anchorText p.anchor ++ Text.join ['/'] p.parts := by
  unfold text
  rw [if_neg (by simp [h])]
  rfl

/-- A path with names is written at the beginning of each path below it. -/
theorem Within.text (h : p.Within q) (hne : p.parts ≠ []) : ∃ rest, q.text = p.text ++ rest := by
  obtain ⟨hanchor, ns, hparts, -⟩ := h
  rw [text_eq hne, text_eq (by simp [hparts, hne] : q.parts ≠ []), hanchor, hparts]
  by_cases hns : ns = []
  · exact ⟨[], by simp [hns]⟩
  · exact ⟨_, by rw [Text.join_append hne hns, List.append_assoc, ← List.append_assoc]⟩

end Below

/-! ### Reading what is written for a path -/

section Again

/-- The anchor of a text that begins with one slash or two. -/
theorem anchorOf_slash {n : Text} (h : n.head? ≠ some separator) :
    anchorOf (separator :: n) = .root ∧ anchorOf (separator :: separator :: n) = .doubleRoot := by
  have hnone : n.takeWhile (fun c => decide (c = separator)) = [] := by
    cases n with
    | nil => rfl
    | cons c cs =>
      have hc : c ≠ separator := fun heq => h (by rw [List.head?_cons, heq])
      simp [hc]
  unfold anchorOf
  simp [hnone]

/-- The names on both sides of a slash. -/
theorem namesOf_append_cons (a b : Text) : namesOf (a ++ '/' :: b) = namesOf a ++ namesOf b := by
  unfold namesOf separator
  rw [Text.splitOn_append_cons, List.filter_append]

/-- Names that are joined with slashes are found again. -/
theorem namesOf_join (ps : List Text) : namesOf (Text.join ['/'] ps) = ps.flatMap namesOf := by
  induction ps with
  | nil => rfl
  | cons p ps ih =>
    by_cases hps : ps = []
    · rw [hps, List.flatMap_singleton]
      rfl
    · rw [Text.join_cons _ _ hps, List.append_assoc, List.singleton_append, namesOf_append_cons, ih,
        List.flatMap_cons]

/-- A path that was read is read again from what is written for it. -/
theorem ofText_text {p : Path} (hp : p.Proper) (hne : p.parts ≠ []) : ofText p.text = p := by
  obtain ⟨anchor, parts⟩ := p
  obtain ⟨n, ns, rfl⟩ := List.exists_cons_of_ne_nil hne
  have hhead : (Text.join ['/'] (n :: ns)).head? ≠ some separator := by
    have hn := hp n List.mem_cons_self
    obtain ⟨c, cs, rfl⟩ := List.exists_cons_of_ne_nil hn.ne_nil
    have hc : c ≠ separator := fun heq => hn.no_slash (by rw [heq]; exact List.mem_cons_self)
    cases ns <;> simpa [Text.join] using hc
  have hnames : namesOf (Text.join ['/'] (n :: ns)) = n :: ns := by
    rw [namesOf_join, List.flatMap_congr fun m hm => namesOf_of_isName (hp m hm),
      List.flatMap_singleton']
  have hslash : ∀ t : Text, namesOf ('/' :: t) = namesOf t := namesOf_append_cons []
  rw [text_eq hne]
  cases anchor with
  | here =>
    change ofText (Text.join ['/'] (n :: ns)) = _
    rw [ofText, hnames, anchorOf_eq_here hhead]
  | root =>
    change ofText ('/' :: Text.join ['/'] (n :: ns)) = _
    rw [ofText, hslash, hnames]
    exact congrArg (Path.mk · (n :: ns)) (anchorOf_slash hhead).1
  | doubleRoot =>
    change ofText ('/' :: '/' :: Text.join ['/'] (n :: ns)) = _
    rw [ofText, hslash, hslash, hnames]
    exact congrArg (Path.mk · (n :: ns)) (anchorOf_slash hhead).2

end Again

end Path

namespace FileTree

/-! ### What a lookup reads -/

section Reading

open JitInspect.Path

/-- The names that a lookup follows when nothing but empty pieces stands in front of them. -/
theorem steps_of_splitOn {t : Text} (empties : List Text) {ns : List Text}
    (hsplit : Text.splitOn ['/'] t = empties ++ ns) (hempties : ∀ n ∈ empties, n = [])
    (hns : ∀ n ∈ ns, n ≠ []) (hne : ns ≠ []) : steps t = ns := by
  obtain ⟨ms, last, rfl⟩ := List.eq_nil_or_concat ns |>.resolve_left hne
  have hlast : last ≠ [] := hns last (by simp)
  have hfront : (empties ++ ms).filter (· ≠ []) = ms := by
    rw [List.filter_append, List.filter_eq_nil_iff.2 fun n hn => by simp [hempties n hn],
      List.nil_append, List.filter_eq_self]
    intro n hn
    simpa using hns n (by simp [hn])
  unfold steps
  simp only [hsplit, List.concat_eq_append, ← List.append_assoc, List.dropLast_concat,
    List.getLast?_concat, Option.getD_some, hfront]
  rw [if_neg (by simpa using hlast)]

/-- A lookup follows the names of the path. -/
theorem steps_text {p : Path} (hp : p.Proper) (hne : p.parts ≠ []) : steps p.text = p.parts := by
  have hsplit : Text.splitOn ['/'] (Text.join ['/'] p.parts) = p.parts :=
    Text.splitOn_join (fun n hn => (hp n hn).no_slash) hne
  have hnil : ∀ n ∈ p.parts, n ≠ [] := fun n hn => (hp n hn).ne_nil
  rw [text_eq hne]
  cases p.anchor with
  | here => exact steps_of_splitOn [] hsplit (by simp) hnil hne
  | root =>
    refine steps_of_splitOn [[]] ?_ (by simp) hnil hne
    exact (Text.splitOn_append_cons [] _).trans (congrArg _ hsplit)
  | doubleRoot =>
    refine steps_of_splitOn [[], []] ?_ (by simp) hnil hne
    exact (Text.splitOn_append_cons ['/'] _).trans (congrArg _ hsplit)

/-- A path is written with a slash at its start if it starts at a root. -/
theorem startsWith_text {p : Path} (hp : p.Proper) : Text.startsWith p.text ['/'] = p.isAbsolute := by
  obtain ⟨anchor, parts⟩ := p
  cases anchor with
  | root => exact Text.startsWith_iff.2 ⟨_, rfl⟩
  | doubleRoot => exact Text.startsWith_iff.2 ⟨_, rfl⟩
  | here =>
    change _ = false
    rw [Bool.eq_false_iff, ne_eq, Text.startsWith_iff]
    rintro ⟨rest, hrest⟩
    cases parts with
    | nil => cases hrest
    | cons n ns =>
      obtain ⟨c, cs, rfl⟩ := List.exists_cons_of_ne_nil (hp n List.mem_cons_self).ne_nil
      have hfirst : c = '/' := by
        cases ns with
        | nil => exact (List.cons.inj hrest).1
        | cons m ms => exact (List.cons.inj hrest).1
      exact (hp _ List.mem_cons_self).no_slash (hfirst ▸ List.mem_cons_self)

/-- Only the anchor decides where a lookup starts. -/
theorem startOf_text {p : Path} (hp : p.Proper) (cwd : Location) :
    startOf cwd p.text = if p.isAbsolute then [] else cwd := by
  unfold startOf
  rw [startsWith_text hp]

/-- The name at the end of a path is the last one that a lookup follows, whatever precedes it. -/
theorem steps_child (p : Path) {n : Text} (hn : IsName n) :
    ∃ front, steps (p.child n).text = front ++ [n] := by
  have hlast : Text.splitOn ['/'] n = [n] := Text.splitOn_of_not_mem hn.no_slash
  have hfront : ∀ t : Text, ∃ front, steps (t ++ '/' :: n) = front ++ [n] := by
    intro t
    refine ⟨(Text.splitOn ['/'] t).filter (· ≠ []), ?_⟩
    unfold steps
    rw [Text.splitOn_append_cons, hlast]
    simp [hn.ne_nil]
  rw [child_of_isName p hn, text_eq (by simp)]
  by_cases hparts : p.parts = []
  · rw [hparts]
    cases p.anchor with
    | here => exact ⟨[], steps_of_splitOn [] hlast (by simp) (by simp [hn.ne_nil]) (by simp)⟩
    | root => exact hfront []
    | doubleRoot => exact hfront ['/']
  · simp only [Text.join_append hparts (List.cons_ne_nil n []), ← List.append_assoc]
    simpa [Text.join] using hfront (anchorText p.anchor ++ Text.join ['/'] p.parts)

end Reading

end FileTree

end JitInspect
