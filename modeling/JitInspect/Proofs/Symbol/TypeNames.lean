import JitInspect.Proofs.Symbol.Selection

/-!
# Type names read and written

A type's name is written with a dot behind the namespace and plus signs between the types. Reading takes it
apart at all plus signs, and the first piece at its last dot. So a name of which the parts can be told
apart (`TypeName.IsProper`) is read again from what is written for it, and the name that is shown for the
symbol is the one that the loader compares types with (`Loader.takes`).

Whatever is accepted is proper, and was written as this name is (`TypeName.strip_of_parse_eq_ok`). There
is one exception: a dot at the beginning, with no other dot in front of the first plus sign, ends an empty
namespace and is not written again (`TypeName.HasLoneDot`).
-/

namespace JitInspect

/-- The loader takes a type if its full name, with a dot for each plus sign, is what was asked for. -/
def Loader.takes (fullName asked : Text) : Bool := Text.replace "+" "." fullName = asked

namespace TypeName

variable {n : TypeName} {t ns first outer : Text} {nested : List Text}

/-- The parts of the name can be told apart when it is written: there is a type, no type is nameless, plus
signs stand between types only, and no dot stands behind the one that ends the namespace. -/
structure IsProper (n : TypeName) : Prop where
  namespaceName : '+' ∉ n.namespaceName
  path_ne_nil : n.path ≠ []
  part : ∀ p ∈ n.path, p ≠ [] ∧ '+' ∉ p
  outermost : ∀ p ∈ n.path.head?, '.' ∉ p

/-! ### The outermost type -/

section Outermost

/-- The outermost type as it is written, with its namespace. -/
def qualified (ns first : Text) : Text := (if ns.isEmpty then [] else ns ++ ['.']) ++ first

@[simp] theorem qualified_nil (first : Text) : qualified [] first = first := rfl

theorem qualified_of_ne_nil (h : ns ≠ []) : qualified ns first = ns ++ '.' :: first := by
  rw [qualified, if_neg (by simpa using h), List.append_assoc]
  rfl

/-- A type is written with its namespace, and what is nested in it behind plus signs. -/
theorem format_cons (ns first : Text) (nested : List Text) :
    format ⟨ns, first :: nested⟩ = Text.join ['+'] (qualified ns first :: nested) := by
  unfold format qualified
  cases nested with
  | nil => rfl
  | cons p ps => simp [Text.join]

/-- The namespace ends at the last dot. -/
theorem cutNamespace_append (h : '.' ∉ first) (ns : Text) :
    cutNamespace (ns ++ '.' :: first) = (ns, first) := by
  have hcut : Text.splitLast "." (ns ++ '.' :: first) = some (ns, first) :=
    Text.splitLast_append_pattern h ns
  rw [cutNamespace, hcut]
  rfl

/-- Without a dot there is no namespace. -/
theorem cutNamespace_of_not_mem (h : '.' ∉ outer) : cutNamespace outer = ([], outer) := by
  have hnone : Text.splitLast "." outer = none :=
    Text.splitLast_eq_none_iff.2 fun hin => h (hin.subset List.mem_cons_self)
  rw [cutNamespace, hnone]
  rfl

/-- The namespace is cut off again. -/
theorem cutNamespace_qualified (h : '.' ∉ first) :
    cutNamespace (qualified ns first) = (ns, first) := by
  by_cases hns : ns = []
  · rw [hns, qualified_nil]
    exact cutNamespace_of_not_mem h
  · rw [qualified_of_ne_nil hns]
    exact cutNamespace_append h ns

/-- The type is what stands behind the last dot. -/
theorem cutNamespace_snd (outer : Text) : (cutNamespace outer).2 = outer.rtakeWhile (· ≠ '.') := by
  rcases Text.eq_append_last_cases '.' outer with h | ⟨a, b, rfl, hb⟩
  · rw [cutNamespace_of_not_mem h, Text.rtakeWhile_of_not_mem h]
  · rw [cutNamespace_append hb, Text.rtakeWhile_append_cons hb]

/-- The text begins with its only dot. -/
def LeadsWithDot (outer : Text) : Prop := ∃ rest, outer = '.' :: rest ∧ '.' ∉ rest

/-- What is cut off is a namespace and a type without dots, and they are written as what was cut unless that
begins with its only dot. -/
theorem of_cutNamespace (hcut : cutNamespace outer = (ns, first)) :
    '.' ∉ first ∧ (LeadsWithDot outer → ns = [] ∧ outer = '.' :: first) ∧
      (¬LeadsWithDot outer → outer = qualified ns first) := by
  rcases Text.eq_append_last_cases '.' outer with h | ⟨a, b, rfl, hb⟩
  · rw [cutNamespace_of_not_mem h] at hcut
    obtain ⟨rfl, rfl⟩ := Prod.mk.inj hcut
    refine ⟨h, ?_, fun _ => rfl⟩
    rintro ⟨rest, rfl, -⟩
    exact absurd List.mem_cons_self h
  · rw [cutNamespace_append hb] at hcut
    obtain ⟨rfl, rfl⟩ := Prod.mk.inj hcut
    refine ⟨hb, ?_, fun hlead => (qualified_of_ne_nil ?_).symm⟩
    · rintro ⟨rest, heq, hrest⟩
      cases a with
      | nil => exact ⟨rfl, rfl⟩
      | cons c a =>
        refine absurd ?_ hrest
        rw [← (List.cons.inj heq).2]
        exact List.mem_append_right a List.mem_cons_self
    · rintro rfl
      exact hlead ⟨b, rfl, hb⟩

/-- A character that is not in a name is in no part of it. -/
theorem not_mem_of_cutNamespace {c : Char} (hcut : cutNamespace outer = (ns, first))
    (h : c ∉ outer) : c ∉ ns ∧ c ∉ first := by
  rcases Text.eq_append_last_cases '.' outer with hdot | ⟨a, b, rfl, hb⟩
  · rw [cutNamespace_of_not_mem hdot] at hcut
    obtain ⟨rfl, rfl⟩ := Prod.mk.inj hcut
    exact ⟨List.not_mem_nil, h⟩
  · rw [cutNamespace_append hb] at hcut
    obtain ⟨rfl, rfl⟩ := Prod.mk.inj hcut
    rw [List.mem_append, List.mem_cons, not_or, not_or] at h
    exact ⟨h.1, h.2.2⟩

end Outermost

/-! ### Reading -/

section Reading

/-- Reading, from the pieces between the plus signs. -/
theorem parse_eq (hsplit : List.splitOn '+' (Text.strip t) = outer :: nested) :
    parse t =
      if Text.strip t = [] then .error .empty
      else if (cutNamespace outer).2 = [] ∨ [] ∈ nested then .error (.malformed (Text.strip t))
      else .ok ⟨(cutNamespace outer).1, (cutNamespace outer).2 :: nested⟩ := by
  have hpieces : Text.splitOn "+" (Text.strip t) = outer :: nested :=
    (Text.splitOn_singleton '+' _).trans hsplit
  have hany : ((cutNamespace outer).2 :: nested).any List.isEmpty = true ↔
      (cutNamespace outer).2 = [] ∨ [] ∈ nested := by
    rw [List.any_cons, Bool.or_eq_true, List.isEmpty_iff, List.any_eq_true]
    refine or_congr_right ⟨?_, fun h => ⟨[], h, rfl⟩⟩
    rintro ⟨p, hp, hnil⟩
    rwa [List.isEmpty_iff.1 hnil] at hp
  simp only [parse, hpieces, List.isEmpty_iff, hany]

/-- A text is accepted as the name that its pieces give. -/
theorem parse_eq_ok_iff (hsplit : List.splitOn '+' (Text.strip t) = outer :: nested) :
    parse t = .ok n ↔
      n = ⟨(cutNamespace outer).1, (cutNamespace outer).2 :: nested⟩ ∧
        (cutNamespace outer).2 ≠ [] ∧ [] ∉ nested := by
  rw [parse_eq hsplit]
  split
  · next hempty =>
    -- the only piece of an empty text has no type
    rw [hempty, List.splitOn_nil] at hsplit
    obtain ⟨rfl, rfl⟩ := List.cons.inj hsplit
    exact iff_of_false nofun fun h => h.2.1 rfl
  · split
    · next hnameless =>
      exact iff_of_false nofun fun h => hnameless.elim h.2.1 h.2.2
    · next hnamed =>
      rw [not_or] at hnamed
      rw [Except.ok.injEq, eq_comm]
      exact (and_iff_left hnamed).symm

/-- A text is turned away if nothing is written or a type has no name. -/
theorem parse_error_iff (t : Text) : (∃ f, parse t = .error f) ↔
    Text.strip t = [] ∨ ∃ outer nested, List.splitOn '+' (Text.strip t) = outer :: nested ∧
      (outer.rtakeWhile (· ≠ '.') = [] ∨ [] ∈ nested) := by
  obtain ⟨outer, nested, hsplit⟩ :=
    List.exists_cons_of_ne_nil (List.splitOn_ne_nil '+' (Text.strip t))
  rw [parse_eq hsplit, hsplit]
  constructor
  · rintro ⟨f, hf⟩
    split at hf
    · next hempty => exact Or.inl hempty
    · split at hf
      · next hnameless =>
        rw [cutNamespace_snd] at hnameless
        exact Or.inr ⟨outer, nested, rfl, hnameless⟩
      · cases hf
  · rintro (hempty | ⟨outer₁, nested₁, heq, hnameless⟩)
    · exact ⟨.empty, if_pos hempty⟩
    · obtain ⟨rfl, rfl⟩ := List.cons.inj heq
      rw [← cutNamespace_snd] at hnameless
      rw [if_pos hnameless]
      split
      · exact ⟨.empty, rfl⟩
      · exact ⟨.malformed _, rfl⟩

end Reading

/-! ### Reading what is written -/

section Written

/-- The pieces of a written name are its types, the outermost one with its namespace. -/
theorem splitOn_format (h : IsProper ⟨ns, first :: nested⟩) :
    List.splitOn '+' (format ⟨ns, first :: nested⟩) = qualified ns first :: nested := by
  have houter : '+' ∉ qualified ns first := by
    have hfirst : '+' ∉ first := (h.part first List.mem_cons_self).2
    by_cases hns : ns = []
    · rwa [hns, qualified_nil]
    · rw [qualified_of_ne_nil hns]
      simpa [hfirst] using h.namespaceName
  have hplain : ∀ p ∈ qualified ns first :: nested, '+' ∉ p :=
    List.forall_mem_cons.2 ⟨houter, fun p hp => (h.part p (List.mem_cons_of_mem _ hp)).2⟩
  rw [format_cons, ← Text.splitOn_singleton]
  exact Text.splitOn_join hplain (List.cons_ne_nil _ _)

/-- A proper name is read again. -/
theorem parse_format (h : n.IsProper) (hstrip : Text.strip n.format = n.format) :
    parse n.format = .ok n := by
  obtain ⟨ns, path⟩ := n
  obtain ⟨first, nested, rfl⟩ := List.exists_cons_of_ne_nil h.path_ne_nil
  have hcut : cutNamespace (qualified ns first) = (ns, first) :=
    cutNamespace_qualified (h.outermost first rfl)
  have hsplit := splitOn_format h
  rw [← hstrip] at hsplit
  rw [parse_eq_ok_iff hsplit, hcut]
  refine ⟨rfl, (h.part first List.mem_cons_self).1, fun hnil => ?_⟩
  exact (h.part [] (List.mem_cons_of_mem _ hnil)).1 rfl

/-- The text begins with a dot, and there is no other dot in front of its first plus sign. -/
def HasLoneDot (t : Text) : Prop :=
  ∃ outer nested, List.splitOn '+' t = outer :: nested ∧ LeadsWithDot outer

/-- A lone point stands at the beginning of the outermost name. -/
theorem hasLoneDot_iff (hsplit : List.splitOn '+' t = outer :: nested) :
    HasLoneDot t ↔ LeadsWithDot outer := by
  constructor
  · rintro ⟨outer₁, nested₁, hsplit₁, hlead⟩
    rw [hsplit] at hsplit₁
    rwa [(List.cons.inj hsplit₁).1]
  · exact fun hlead => ⟨outer, nested, hsplit, hlead⟩

/-- What is accepted is a proper name, -/
theorem isProper_of_parse_eq_ok (hparse : parse t = .ok n) : n.IsProper := by
  obtain ⟨outer, nested, hsplit⟩ :=
    List.exists_cons_of_ne_nil (List.splitOn_ne_nil '+' (Text.strip t))
  obtain ⟨rfl, hfirst, hnested⟩ := (parse_eq_ok_iff hsplit).1 hparse
  have hplain : ∀ p ∈ outer :: nested, '+' ∉ p := by
    rw [← hsplit, ← Text.splitOn_singleton]
    exact fun p hp => Text.not_mem_of_mem_splitOn hp
  obtain ⟨houter, hrest⟩ := List.forall_mem_cons.1 hplain
  obtain ⟨hns, hname⟩ := not_mem_of_cutNamespace rfl houter
  refine ⟨hns, List.cons_ne_nil _ _, ?_, ?_⟩
  · refine List.forall_mem_cons.2 ⟨⟨hfirst, hname⟩, fun p hp => ⟨?_, hrest p hp⟩⟩
    rintro rfl
    exact hnested hp
  · intro p hp
    rw [← Option.some.inj hp]
    exact (of_cutNamespace rfl).1

/-- and was written as this is but for a lone dot. -/
theorem strip_of_parse_eq_ok (hparse : parse t = .ok n) :
    (HasLoneDot (Text.strip t) → Text.strip t = '.' :: n.format) ∧
      (¬HasLoneDot (Text.strip t) → Text.strip t = n.format) := by
  obtain ⟨outer, nested, hsplit⟩ :=
    List.exists_cons_of_ne_nil (List.splitOn_ne_nil '+' (Text.strip t))
  obtain ⟨rfl, -, -⟩ := (parse_eq_ok_iff hsplit).1 hparse
  obtain ⟨ns, first, hcut⟩ : ∃ ns first, cutNamespace outer = (ns, first) := ⟨_, _, rfl⟩
  obtain ⟨-, hlead, hwritten⟩ := of_cutNamespace hcut
  have hjoin : Text.strip t = Text.join ['+'] (outer :: nested) := by
    rw [Text.join_singleton, ← hsplit, List.intercalate_splitOn]
  rw [hasLoneDot_iff hsplit, hcut, hjoin, format_cons]
  constructor
  · intro hlone
    obtain ⟨rfl, rfl⟩ := hlead hlone
    rw [qualified_nil]
    cases nested <;> rfl
  · intro hlone
    rw [← hwritten hlone]

end Written

/-! ### The name for the loader -/

section Shown

/-- Dots for plus signs change only what stands between the types of a proper name. -/
theorem replace_format (h : IsProper ⟨ns, first :: nested⟩) :
    Text.replace "+" "." (format ⟨ns, first :: nested⟩) =
      Text.join ['.'] (qualified ns first :: nested) := by
  have hreplace (a : Text) : Text.replace "+" "." a = a.map fun c => if c = '+' then '.' else c :=
    Text.replace_singleton '+' '.' a
  have hpieces : ∀ p ∈ qualified ns first :: nested,
      (p.map fun c => if c = '+' then '.' else c) = p := by
    rw [← splitOn_format h, ← Text.splitOn_singleton]
    intro p hp
    rw [← hreplace]
    refine Text.replace_of_not_infix (fun hin => ?_) _
    exact Text.not_mem_of_mem_splitOn hp (hin.subset List.mem_cons_self)
  rw [hreplace, format_cons, Text.map_join, List.map_congr_left hpieces, List.map_id']
  rfl

/-- The name that is shown for a symbol is the written name with dots for the plus signs. -/
theorem displayTypeName_eq (h : n.IsProper) {s : Symbol} (hns : s.namespaceName = n.namespaceName)
    (hpath : s.typePath = n.path) : s.displayTypeName = Text.replace "+" "." n.format := by
  obtain ⟨ns, path⟩ := n
  obtain ⟨first, nested, rfl⟩ := List.exists_cons_of_ne_nil h.path_ne_nil
  rw [replace_format h, Symbol.displayTypeName, hns, hpath]
  by_cases hempty : ns = []
  · rw [hempty]
    rfl
  · rw [if_neg (by simpa using hempty), qualified_of_ne_nil hempty]
    cases nested <;> simp [Text.join]

/-- Proper names are read again from what is written for them, and the loader is asked for them by the names
that it compares; what is accepted was written as the name that it is read as, but for a lone dot; and a
text is turned away if and only if nothing is written or a type in it has no name. -/
theorem parse_inverts_format :
    (∀ n : TypeName, n.IsProper → Text.strip n.format = n.format →
      parse n.format = .ok n ∧
        ∀ s : Symbol, s.namespaceName = n.namespaceName → s.typePath = n.path →
          s.displayTypeName = Text.replace "+" "." n.format ∧
            ∀ info, s.info = .ok info → Loader.takes n.format info.className = true) ∧
    (∀ t n, parse t = .ok n → n.IsProper ∧
      (HasLoneDot (Text.strip t) → Text.strip t = '.' :: n.format) ∧
      (¬HasLoneDot (Text.strip t) → Text.strip t = n.format)) ∧
    ∀ t, (∃ f, parse t = .error f) ↔
      Text.strip t = [] ∨ ∃ outer nested, List.splitOn '+' (Text.strip t) = outer :: nested ∧
        (outer.rtakeWhile (· ≠ '.') = [] ∨ [] ∈ nested) := by
  refine ⟨fun n hproper hstrip => ⟨parse_format hproper hstrip, fun s hns hpath => ?_⟩,
    fun t n hparse => ⟨isProper_of_parse_eq_ok hparse, strip_of_parse_eq_ok hparse⟩,
    parse_error_iff⟩
  have hshown : s.displayTypeName = Text.replace "+" "." n.format :=
    displayTypeName_eq hproper hns hpath
  refine ⟨hshown, fun info hinfo => ?_⟩
  obtain ⟨pattern, -, -, rfl⟩ := Symbol.info_eq_ok_iff.1 hinfo
  rw [Loader.takes, hshown]
  exact decide_eq_true rfl

/-- A generic type in another one, in a namespace of two parts. -/
def nestedName : TypeName := ⟨"My.App", ["Outer", "Inner`1"]⟩

/-- A nested generic type, and one with a lone point. -/
theorem parse_inverts_format_nested : nestedName.IsProper ∧
    parse "My.App.Outer+Inner`1" = .ok nestedName ∧
    (Symbol.mk .type ["Outer", "Inner`1"] "My.App" [] true false).displayTypeName =
      ("My.App.Outer.Inner`1" : Text) ∧
    Text.strip " .Outer+Inner`1" = '.' :: format ⟨[], ["Outer", "Inner`1"]⟩ ∧
    ∃ f, parse "My.App.+Inner`1" = .error f := by
  have hproper : nestedName.IsProper :=
    ⟨by decide, by decide, by decide, fun p hp => Option.some.inj hp ▸ by decide⟩
  have hlone : HasLoneDot (Text.strip " .Outer+Inner`1") := ⟨_, _, rfl, _, rfl, by decide⟩
  have haccepted : parse " .Outer+Inner`1" = .ok ⟨[], ["Outer", "Inner`1"]⟩ := rfl
  obtain ⟨hread, hwritten, hfault⟩ := parse_inverts_format
  obtain ⟨hparse, hshown⟩ := hread nestedName hproper rfl
  refine ⟨hproper, hparse, (hshown _ rfl rfl).1, (hwritten _ _ haccepted).2.1 hlone, ?_⟩
  exact (hfault _).2 (Or.inr ⟨_, _, rfl, Or.inl rfl⟩)

end Shown

end TypeName

end JitInspect
