import JitInspect.Proofs.Text.Pieces
import JitInspect.Symbol.Selector
import Mathlib.Data.List.Forall2

/-!
# What selectors select

The code generator lists the methods whose full names a pattern matches: the name of the type with its
namespace and the types around it, an instantiation behind it if the type is generic, a colon and the
name of the member. In a pattern a star stands for any characters (`Selector.picks`).

A pattern of two parts matches what is put together from matches of the parts (`Selector.picks_append`).
The type part of a symbol's patterns matches its type and the member parts match its members, whatever
characters the names have; and if there are no stars in them the patterns match nothing else but what has
the same name in another type (`Symbol.selectors_pick`).
-/

namespace JitInspect

namespace Selector

/-! ### Matching -/

section Matching

/-- Whether the pattern matches the text. A star stands for any characters, or none, and every other
character for itself. -/
def picks : Text → Text → Bool
  | [], t => t.isEmpty
  | p :: ps, t => if p = '*' then t.tails.any (picks ps) else t.head? = some p && picks ps t.tail

variable {p : Char} {ps pat pat' t : Text}

theorem picks_nil : picks [] t = true ↔ t = [] := List.isEmpty_iff

/-- A star stands for any beginning. -/
theorem picks_star : picks ('*' :: ps) t = true ↔ ∃ a b, t = a ++ b ∧ picks ps b = true := by
  rw [picks, if_pos rfl, List.any_eq_true]
  constructor
  · rintro ⟨b, hb, hpicks⟩
    obtain ⟨a, rfl⟩ := (List.mem_tails b t).1 hb
    exact ⟨a, b, rfl, hpicks⟩
  · rintro ⟨a, b, rfl, hpicks⟩
    exact ⟨b, (List.mem_tails b _).2 (List.suffix_append a b), hpicks⟩

theorem picks_cons (hp : p ≠ '*') :
    picks (p :: ps) t = true ↔ ∃ b, t = p :: b ∧ picks ps b = true := by
  rw [picks, if_neg hp, Bool.and_eq_true, decide_eq_true_eq]
  constructor
  · rintro ⟨hhead, hpicks⟩
    cases t with
    | nil => cases hhead
    | cons c t =>
      obtain rfl := Option.some.inj hhead
      exact ⟨t, rfl, hpicks⟩
  · rintro ⟨b, rfl, hpicks⟩
    exact ⟨rfl, hpicks⟩

/-- Patterns behind one another match texts behind one another. -/
theorem picks_append : picks (pat ++ pat') t = true ↔
    ∃ a b, t = a ++ b ∧ picks pat a = true ∧ picks pat' b = true := by
  induction pat generalizing t with
  | nil =>
    constructor
    · intro h
      exact ⟨[], t, rfl, rfl, h⟩
    · rintro ⟨a, b, rfl, ha, hb⟩
      rwa [picks_nil.1 ha]
  | cons p ps ih =>
    rw [List.cons_append]
    by_cases hp : p = '*'
    · subst hp
      rw [picks_star]
      constructor
      · rintro ⟨a, b, rfl, h⟩
        obtain ⟨b₁, c, rfl, hb, hc⟩ := ih.1 h
        exact ⟨a ++ b₁, c, (List.append_assoc a b₁ c).symm, picks_star.2 ⟨a, b₁, rfl, hb⟩, hc⟩
      · rintro ⟨a, c, rfl, ha, hc⟩
        obtain ⟨a₁, b, rfl, hb⟩ := picks_star.1 ha
        exact ⟨a₁, b ++ c, List.append_assoc a₁ b c, ih.2 ⟨b, c, rfl, hb, hc⟩⟩
    · rw [picks_cons hp]
      constructor
      · rintro ⟨b, rfl, h⟩
        obtain ⟨b₁, c, rfl, hb, hc⟩ := ih.1 h
        exact ⟨p :: b₁, c, rfl, (picks_cons hp).2 ⟨b₁, rfl, hb⟩, hc⟩
      · rintro ⟨a, c, rfl, ha, hc⟩
        obtain ⟨b, rfl, hb⟩ := (picks_cons hp).1 ha
        exact ⟨b ++ c, rfl, ih.2 ⟨b, c, rfl, hb, hc⟩⟩

/-- A star matches everything. -/
theorem picks_everything (t : Text) : picks ['*'] t = true :=
  picks_star.2 ⟨t, [], (List.append_nil t).symm, rfl⟩

/-- A text is matched by itself, also if there are stars in it. -/
theorem picks_self (t : Text) : picks t t = true := by
  induction t with
  | nil => rfl
  | cons c t ih =>
    by_cases hc : c = '*'
    · subst hc
      exact picks_star.2 ⟨['*'], t, rfl, ih⟩
    · exact (picks_cons hc).2 ⟨t, rfl, ih⟩

/-- Without a star nothing else is matched. -/
theorem picks_plain (h : '*' ∉ pat) : picks pat t = true ↔ t = pat := by
  refine ⟨fun hpicks => ?_, fun heq => heq ▸ picks_self pat⟩
  induction pat generalizing t with
  | nil => exact picks_nil.1 hpicks
  | cons p ps ih =>
    rw [List.mem_cons, not_or] at h
    obtain ⟨b, rfl, hb⟩ := (picks_cons (Ne.symm h.1)).1 hpicks
    rw [ih h.2 hb]

end Matching

end Selector

namespace Symbol

open Selector

variable {s : Symbol} {info : SymbolInfo} {pattern innermost name t : Text} {kind : SymbolKind}

/-! ### What is handed on -/

section Handing

/-- What a symbol is selected by, if it has a type and, as a member, a name. -/
theorem info_eq_ok_iff : s.info = .ok info ↔ ∃ pattern, s.typePattern = .ok pattern ∧
    (s.kind = .type ∨ s.name ≠ []) ∧
      info = ⟨selectorOf pattern (memberPatterns s.kind s.name), s.displayTypeName,
        loaderFilter s.kind s.name, memberPatterns s.kind s.name⟩ := by
  unfold Symbol.info
  cases hpattern : s.typePattern with
  | error f => exact iff_of_false nofun fun ⟨_, h, _⟩ => nomatch h
  | ok pattern =>
    simp only [Except.ok.injEq, exists_eq_left']
    by_cases hnamed : s.kind = .type ∨ s.name ≠ []
    · have hcond : ¬((s.kind ≠ .type && s.name.isEmpty) = true) := by
        simpa [imp_iff_not_or] using hnamed
      rw [if_neg hcond, Except.ok.injEq, eq_comm]
      exact (and_iff_right hnamed).symm
    · have hcond : (s.kind ≠ .type && s.name.isEmpty) = true := by simpa using hnamed
      rw [if_pos hcond]
      exact iff_of_false nofun fun h => hnamed h.1

end Handing

/-! ### The type -/

section Types

/-- The name of the symbol's type: its namespace, and the types that contain it and itself. -/
def typeName (s : Symbol) : Text := TypeName.format ⟨s.namespaceName, s.typePath⟩

/-- The text is the name of a type that the symbol's patterns stand for: of its own, or of one in another
type or namespace if only the innermost name of a nested type counts. -/
def Resembles (s : Symbol) (host : Text) : Prop :=
  if s.isNested then ∃ innermost ∈ s.typePath.getLast?, innermost <:+ host else host = s.typeName

/-- The name of a type ends with its innermost name. -/
theorem suffix_typeName (h : s.typePath.getLast? = some innermost) : innermost <:+ s.typeName :=
  (Text.suffix_join h).trans (List.suffix_append _ _)

/-- The name of a type that is not nested in another one. -/
theorem typeName_of_not_nested (hnested : s.isNested = false)
    (h : s.typePath.getLast? = some innermost) :
    s.typeName = (if s.namespaceName.isEmpty then [] else s.namespaceName ++ ['.']) ++ innermost := by
  unfold isNested at hnested
  unfold typeName TypeName.format
  rw [decide_eq_false_iff_not] at hnested
  match hpath : s.typePath with
  | [] =>
    rw [hpath] at h
    cases h
  | [p] =>
    rw [hpath] at h
    obtain rfl : p = innermost := Option.some.inj h
    rfl
  | p :: q :: ps =>
    rw [hpath] at hnested
    exact absurd (by simp) hnested

/-- The type part of the patterns, in two parts: what stands for the name of the type, and a star for an
instantiation. -/
theorem typePattern_eq_ok (h : s.typePattern = .ok pattern) :
    ∃ innermost, s.typePath.getLast? = some innermost ∧
      pattern = (if s.isNested then '*' :: innermost else s.typeName) ++
        if s.genericType then ['*'] else [] := by
  unfold typePattern at h
  cases hlast : s.typePath.getLast? with
  | none =>
    rw [hlast] at h
    cases h
  | some innermost =>
    rw [hlast] at h
    obtain rfl := Except.ok.inj h
    refine ⟨innermost, rfl, ?_⟩
    have hbase : (if s.isNested then "*" ++ innermost
        else if s.namespaceName.isEmpty then innermost
        else s.namespaceName ++ "." ++ innermost : Text) =
        if s.isNested then '*' :: innermost else s.typeName := by
      cases hnested : s.isNested with
      | true => rfl
      | false =>
        rw [if_neg Bool.false_ne_true, if_neg Bool.false_ne_true,
          typeName_of_not_nested hnested hlast]
        cases s.namespaceName <;> rfl
    rw [hbase]
    cases s.genericType with
    | true => rfl
    | false => exact (List.append_nil _).symm

/-- The type part matches the symbol's type with what may stand behind it. -/
theorem picks_typePattern (h : s.typePattern = .ok pattern) {instantiation : Text}
    (hgeneric : s.genericType = false → instantiation = []) :
    picks pattern (s.typeName ++ instantiation) = true := by
  obtain ⟨innermost, hlast, rfl⟩ := typePattern_eq_ok h
  refine picks_append.2 ⟨s.typeName, instantiation, rfl, ?_, ?_⟩
  · split
    · obtain ⟨outside, houtside⟩ := suffix_typeName hlast
      exact picks_star.2 ⟨outside, innermost, houtside.symm, picks_self innermost⟩
    · exact picks_self s.typeName
  · cases hgen : s.genericType with
    | true => exact picks_everything instantiation
    | false => exact picks_nil.2 (hgeneric hgen)

/-- Without stars in the names it matches nothing but types that resemble the symbol's. -/
theorem resembles_of_picks (h : s.typePattern = .ok pattern)
    (hplain : ∀ p ∈ s.namespaceName :: s.typePath, '*' ∉ p) (hpicks : picks pattern t = true) :
    ∃ host instantiation, t = host ++ instantiation ∧ s.Resembles host ∧
      (s.genericType = false → instantiation = []) := by
  obtain ⟨innermost, hlast, rfl⟩ := typePattern_eq_ok h
  obtain ⟨host, instantiation, rfl, hhost, hbehind⟩ := picks_append.1 hpicks
  have hinnermost : '*' ∉ innermost :=
    hplain innermost (List.mem_cons_of_mem _ (List.mem_of_getLast? hlast))
  refine ⟨host, instantiation, rfl, ?_, fun hgeneric => ?_⟩
  · unfold Resembles
    cases hnested : s.isNested with
    | true =>
      rw [if_pos rfl]
      rw [hnested, if_pos rfl, picks_star] at hhost
      obtain ⟨outside, b, rfl, hb⟩ := hhost
      rw [(picks_plain hinnermost).1 hb]
      exact ⟨innermost, hlast, List.suffix_append _ _⟩
    | false =>
      rw [if_neg Bool.false_ne_true]
      rw [hnested, if_neg Bool.false_ne_true] at hhost
      refine (picks_plain ?_).1 hhost
      rw [typeName_of_not_nested hnested hlast, List.mem_append, not_or]
      refine ⟨?_, hinnermost⟩
      split
      · exact List.not_mem_nil
      · have hns : '*' ∉ s.namespaceName := hplain _ List.mem_cons_self
        simpa using hns
  · rw [hgeneric, if_neg Bool.false_ne_true] at hbehind
    exact picks_nil.1 hbehind

end Types

/-! ### The members -/

section Members

/-- For each member part of the patterns, the names of the members that are asked for. The name of a local
function is part of the name that a compiler gives it. -/
def memberNames (kind : SymbolKind) (name : Text) : List (Text → Prop) :=
  match kind with
  | .type => [fun _ => True]
  | .localFunction => [fun member => name <:+: member]
  | .constructor => [fun member => member = ".ctor"]
  | .property => [fun member => member = "get_" ++ name, fun member => member = "set_" ++ name]
  | .method => [fun member => member = name]

/-- A member part matches the members that are asked for, and nothing else unless there is a star in the
name. -/
theorem picks_memberPatterns (kind : SymbolKind) (name : Text) :
    List.Forall₂ (fun selector asked => ∀ member,
        (asked member → picks selector member = true) ∧
          ('*' ∉ name → picks selector member = true → asked member))
      (memberPatterns kind name) (memberNames kind name) := by
  have hself : ∀ selector : Text, ('*' ∉ name → '*' ∉ selector) → ∀ member : Text,
      (member = selector → picks selector member = true) ∧
        ('*' ∉ name → picks selector member = true → member = selector) := by
    intro selector hplain member
    exact ⟨fun heq => heq ▸ picks_self selector, fun hname => (picks_plain (hplain hname)).1⟩
  have hbehind : ∀ start : Text, '*' ∉ start → '*' ∉ name → '*' ∉ start ++ name := by
    intro start hstart hname
    rw [List.mem_append, not_or]
    exact ⟨hstart, hname⟩
  cases kind with
  | type => exact .cons (fun member => ⟨fun _ => picks_everything member, fun _ _ => trivial⟩) .nil
  | constructor => exact .cons (hself _ fun _ => by decide) .nil
  | method => exact .cons (hself name id) .nil
  | property =>
    exact .cons (hself _ (hbehind _ (by decide))) (.cons (hself _ (hbehind _ (by decide))) .nil)
  | localFunction =>
    refine .cons (fun member => ⟨?_, fun hname hpicks => ?_⟩) .nil
    · rintro ⟨before, behind, rfl⟩
      refine picks_append.2 ⟨before ++ name, behind, rfl, ?_, picks_everything behind⟩
      exact picks_star.2 ⟨before, name, rfl, picks_self name⟩
    · obtain ⟨a, behind, rfl, ha, -⟩ := picks_append.1 hpicks
      obtain ⟨before, b, rfl, hb⟩ := picks_star.1 ha
      rw [(picks_plain hname).1 hb]
      exact ⟨before, behind, rfl⟩

/-- Each symbol that is accepted is selected by its patterns: the target is made of them, and each of them
matches the full names of the members that it is there for. Without stars in the names it matches no other
members, and no other types but those that resemble the symbol's. -/
theorem selectors_pick (hinfo : s.info = .ok info) :
    ∃ pattern, s.typePattern = .ok pattern ∧
      info.target = Text.join " " (info.memberSelectors.map fun m => pattern ++ ":" ++ m) ∧
      List.Forall₂ (fun (selector : Text) asked =>
          (∀ instantiation member : Text, (s.genericType = false → instantiation = []) →
            asked member →
              picks (pattern ++ ":" ++ selector)
                (s.typeName ++ instantiation ++ ":" ++ member) = true) ∧
          ((∀ p ∈ s.name :: s.namespaceName :: s.typePath, '*' ∉ p) →
            ∀ t, picks (pattern ++ ":" ++ selector) t = true →
              ∃ host instantiation member : Text, t = host ++ instantiation ++ ":" ++ member ∧
                s.Resembles host ∧ (s.genericType = false → instantiation = []) ∧ asked member))
        info.memberSelectors (memberNames s.kind s.name) := by
  obtain ⟨pattern, hpattern, -, rfl⟩ := info_eq_ok_iff.1 hinfo
  refine ⟨pattern, hpattern, rfl, (picks_memberPatterns s.kind s.name).imp ?_⟩
  intro selector asked hmembers
  constructor
  · intro instantiation member hgeneric hasked
    have htype := picks_typePattern hpattern hgeneric
    have hcolon : picks (pattern ++ ":") (s.typeName ++ instantiation ++ ":") = true :=
      picks_append.2 ⟨_, _, rfl, htype, rfl⟩
    exact picks_append.2 ⟨_, _, rfl, hcolon, (hmembers member).1 hasked⟩
  · intro hplain t hpicks
    obtain ⟨a, member, rfl, ha, hmember⟩ := picks_append.1 hpicks
    obtain ⟨b, c, rfl, hb, hc⟩ := picks_append.1 ha
    obtain ⟨host, instantiation, rfl, hresembles, hgeneric⟩ :=
      resembles_of_picks hpattern (List.forall_mem_of_forall_mem_cons hplain) hb
    rw [(picks_plain (by decide)).1 hc]
    exact ⟨host, instantiation, member, rfl, hresembles, hgeneric,
      (hmembers member).2 (hplain _ List.mem_cons_self) hmember⟩

/-- A property of a generic type in another type. -/
def nestedProperty : Symbol :=
  { kind := .property
    typePath := ["Outer", "Inner`1"]
    namespaceName := "MyApp"
    name := "Size"
    genericType := true }

/-- A property of a nested generic type, with both accessors. -/
theorem selectors_pick_nestedProperty :
    nestedProperty.info = .ok ⟨"*Inner`1*:get_Size *Inner`1*:set_Size", "MyApp.Outer.Inner`1", "Size",
      ["get_Size", "set_Size"]⟩ ∧
    picks "*Inner`1*:get_Size" "MyApp.Outer+Inner`1[System.Int32]:get_Size" = true ∧
    picks "*Inner`1*:set_Size" "MyApp.Outer+Inner`1[System.Int32]:set_Size" = true := by
  have hinfo : nestedProperty.info = .ok ⟨"*Inner`1*:get_Size *Inner`1*:set_Size",
      "MyApp.Outer.Inner`1", "Size", ["get_Size", "set_Size"]⟩ := rfl
  obtain ⟨pattern, hpattern, -, hall⟩ := selectors_pick hinfo
  obtain rfl : ("*Inner`1*" : Text) = pattern := Except.ok.inj hpattern
  obtain ⟨hgetter, hall⟩ := List.forall₂_cons.1 hall
  obtain ⟨hsetter, -⟩ := List.forall₂_cons.1 hall
  exact ⟨hinfo, hgetter.1 "[System.Int32]" _ nofun rfl, hsetter.1 "[System.Int32]" _ nofun rfl⟩

end Members

end Symbol

end JitInspect
