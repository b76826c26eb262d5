import JitInspect.Project.Load
import JitInspect.Proofs.FileTree.Reading

/-!
# Groups that hold on a condition

A group of properties is conditional when it has a condition or lies in an element that has one. Two
documents that differ in the texts of such groups only look the same when these texts are hidden
(`Markup.Element.hide`).

What is read of a document are four properties, and only those in groups that have no condition
themselves (`Standing.isRead`). No other text matters, however deep it lies (`Properties.readOf_hide`).
So the texts of conditional groups do not matter if every group in an element with a condition has one
itself (`Markup.Element.guarded`); otherwise a group in a conditional choice is read like any other.
-/

namespace JitInspect

open Markup

/-- Where an element stands in a document. -/
structure Standing where
  /-- An element around it has a condition. -/
  onCondition : Bool := false
  /-- It lies in a conditional group. -/
  inConditional : Bool := false
  /-- It stands directly in a group that has no condition itself. -/
  inGroup : Bool := false

namespace Standing

variable {s : Standing} {n : QualifiedName} {as : List (QualifiedName × Text)}

/-- Whether the attributes hold a condition that is not empty. -/
def hasCondition (as : List (QualifiedName × Text)) : Bool :=
  !((as.lookup { localName := "Condition" }).getD []).isEmpty

/-- Whether the name is that of groups of properties. -/
def isGroupName (n : QualifiedName) : Bool := n.localName = "PropertyGroup".toList

/-- Where the elements stand that are directly in an element. -/
def inside (s : Standing) (n : QualifiedName) (as : List (QualifiedName × Text)) : Standing where
  onCondition := s.onCondition || hasCondition as
  inConditional := s.inConditional || (isGroupName n && (s.onCondition || hasCondition as))
  inGroup := isGroupName n && !hasCondition as

/-- Whether the texts directly in the element are in a conditional group. -/
def isConditional (s : Standing) (n : QualifiedName) (as : List (QualifiedName × Text)) : Bool :=
  (s.inside n as).inConditional

/-- The names of the properties that are read. -/
def readNames : List Text := ["TargetFrameworks", "TargetFramework", "OutputPath", "AssemblyName"]

/-- Whether the text of the element is read as that of a property. -/
def isRead (s : Standing) (n : QualifiedName) : Bool := s.inGroup && readNames.contains n.localName

/-- Whether the texts directly in the element are in a conditional group and are not read. -/
def isUnread (s : Standing) (n : QualifiedName) (as : List (QualifiedName × Text)) : Bool :=
  s.isConditional n as && !s.isRead n

end Standing

namespace Markup.Element

/-! ### Elements that are the same -/

section Equality

mutual

/-- Whether two elements are the same. -/
def decEq : (a b : Element) → Decidable (a = b)
  | mk n as t es, mk n₁ as₁ t₁ es₁ =>
    have := decEqAll es es₁
    decidable_of_iff (n = n₁ ∧ as = as₁ ∧ t = t₁ ∧ es = es₁) (mk.injEq ..).symm.to_iff

/-- Whether two lists of elements are the same. -/
def decEqAll : (es fs : List Element) → Decidable (es = fs)
  | [], [] => isTrue rfl
  | [], _ :: _ => isFalse nofun
  | _ :: _, [] => isFalse nofun
  | e :: es, f :: fs =>
    have := decEq e f
    have := decEqAll es fs
    decidable_of_iff (e = f ∧ es = fs) List.cons_eq_cons.symm

end

instance : DecidableEq Element := decEq

end Equality

/-! ### Hidden texts -/

section Hiding

variable (hidden : Standing → QualifiedName → List (QualifiedName × Text) → Bool)

mutual

/-- The element with the texts hidden that are to be hidden where they stand. -/
def hide (s : Standing) : Element → Element
  | mk n as t es => mk n as (if hidden s n as then [] else t) (hideAll (s.inside n as) es)

/-- The elements of a list with the texts hidden that are to be hidden where they stand. -/
def hideAll (s : Standing) : List Element → List Element
  | [] => []
  | e :: es => hide s e :: hideAll s es

end

end Hiding

mutual

/-- Whether every group in an element with a condition has a condition itself. -/
def guarded (onCondition : Bool) : Element → Bool
  | mk n as _ es => (!(Standing.isGroupName n && onCondition) || Standing.hasCondition as) &&
      guardedAll (onCondition || Standing.hasCondition as) es

/-- The same for the elements of a list. -/
def guardedAll (onCondition : Bool) : List Element → Bool
  | [] => true
  | e :: es => guarded onCondition e && guardedAll onCondition es

end

end Markup.Element

namespace Properties

variable {hidden : Standing → QualifiedName → List (QualifiedName × Text) → Bool} {s : Standing}
  {es : List Element} {p q : Properties} {name : Text}

/-! ### What is read -/

section Reading

/-- The properties that the elements give and that are read. -/
def readIn (es : List Element) : List (Text × Text) :=
  (es.filterMap ofElement).filter fun p => Standing.readNames.contains p.1

/-- The properties that are read in the groups among the elements. -/
def readOf (es : List Element) : List (Text × Text) :=
  (es.filter isGroup).flatMap fun g => readIn g.children

theorem readOf_append (es fs : List Element) : readOf (es ++ fs) = readOf es ++ readOf fs := by
  unfold readOf
  rw [List.filter_append, List.flatMap_append]

/-- Whether an element is a group is told by how its children stand. -/
theorem isGroup_mk (s : Standing) (n : QualifiedName) (as : List (QualifiedName × Text)) (t : Text)
    (es : List Element) : isGroup (.mk n as t es) = (s.inside n as).inGroup := by
  unfold isGroup Standing.inside Standing.isGroupName Standing.hasCondition
  rw [Bool.not_not]
  rfl

/-- Of a group the properties are read first, and then what stands behind it. -/
theorem readOf_cons (s : Standing) (n : QualifiedName) (as : List (QualifiedName × Text)) (t : Text)
    (es fs : List Element) : readOf (.mk n as t es :: fs) =
      (if (s.inside n as).inGroup then readIn es else []) ++ readOf fs := by
  unfold readOf
  rw [List.filter_cons, isGroup_mk s]
  by_cases hgroup : (s.inside n as).inGroup = true
  · rw [if_pos hgroup, if_pos hgroup, List.flatMap_cons]
    rfl
  · rw [if_neg hgroup, if_neg hgroup, List.nil_append]

/-- No text that is read is hidden. -/
def SparesRead (hidden : Standing → QualifiedName → List (QualifiedName × Text) → Bool) : Prop :=
  ∀ s n as, s.isRead n = true → hidden s n as = false

/-- An element gives its stripped text, unless that is empty. -/
theorem ofElement_mk (n : QualifiedName) (as : List (QualifiedName × Text)) (t : Text)
    (es : List Element) : ofElement (.mk n as t es) =
      if (Text.strip t).isEmpty then none else some (n.localName, Text.strip t) := rfl

theorem readIn_cons_of_not_mem {n : QualifiedName}
    (hname : Standing.readNames.contains n.localName = false)
    (as : List (QualifiedName × Text)) (t : Text) (fs es : List Element) :
    readIn (.mk n as t fs :: es) = readIn es := by
  unfold readIn
  rw [List.filterMap_cons, ofElement_mk]
  by_cases hblank : (Text.strip t).isEmpty = true
  · rw [if_pos hblank]
  · rw [if_neg hblank]
    exact List.filter_cons_of_neg (by rw [hname]; exact Bool.false_ne_true)

theorem readIn_cons_congr {e e₁ : Element} {es es₁ : List Element} (h : ofElement e = ofElement e₁)
    (hback : readIn es = readIn es₁) : readIn (e :: es) = readIn (e₁ :: es₁) := by
  unfold readIn at hback ⊢
  rw [List.filterMap_cons, List.filterMap_cons, h]
  cases ofElement e₁ with
  | none => exact hback
  | some p => rw [List.filter_cons, List.filter_cons, hback]

/-- What is hidden in a group is not read in it. -/
theorem readIn_hideAll (hspares : SparesRead hidden) (hs : s.inGroup = true) (es : List Element) :
    readIn (Element.hideAll hidden s es) = readIn es := by
  induction es with
  | nil => rfl
  | cons e es ih =>
    obtain ⟨n, as, t, fs⟩ := e
    rw [Element.hideAll, Element.hide]
    cases hname : Standing.readNames.contains n.localName with
    | true =>
      have hstays : hidden s n as = false := hspares s n as (by rw [Standing.isRead, hs, hname]; rfl)
      refine readIn_cons_congr ?_ ih
      rw [hstays, if_neg Bool.false_ne_true, ofElement_mk, ofElement_mk]
    | false => rw [readIn_cons_of_not_mem hname, readIn_cons_of_not_mem hname, ih]

mutual

/-- What is hidden in an element is not read in it. -/
theorem readOf_hide (hspares : SparesRead hidden) (s : Standing) :
    ∀ e : Element, readOf (e.hide hidden s).all = readOf e.all
  | .mk n as t es => by
    rw [Element.hide, Element.all, Element.all, readOf_cons s, readOf_cons s,
      readOf_hideAll hspares (s.inside n as) es]
    by_cases hgroup : (s.inside n as).inGroup = true
    · rw [if_pos hgroup, if_pos hgroup, readIn_hideAll hspares hgroup]
    · rw [if_neg hgroup, if_neg hgroup]

/-- Hiding texts that are not read changes nothing that is read. -/
theorem readOf_hideAll (hspares : SparesRead hidden) (s : Standing) :
    ∀ es : List Element,
      readOf (Element.allOf (Element.hideAll hidden s es)) = readOf (Element.allOf es)
  | [] => rfl
  | e :: es => by
    rw [Element.hideAll, Element.allOf, Element.allOf, readOf_append, readOf_append,
      readOf_hide hspares s e, readOf_hideAll hspares s es]

end

/-- A name that passes the filter is looked up as before. -/
theorem lookup_filter {ps : List (Text × Text)} {f : Text → Bool} (hname : f name = true) :
    (ps.filter fun p => f p.1).lookup name = ps.lookup name := by
  induction ps with
  | nil => rfl
  | cons p ps ih =>
    obtain ⟨key, value⟩ := p
    rw [List.filter_cons, List.lookup_cons]
    by_cases hkey : f key = true
    · rw [if_pos hkey, List.lookup_cons, ih]
    · have hne : (name == key) = false := beq_eq_false_iff_ne.2 fun heq => hkey (heq ▸ hname)
      rw [if_neg hkey, hne, ih]

/-- The value of a property that is read is the last one among those that are read. -/
theorem get?_ofRoot (hname : name ∈ Standing.readNames) (e : Element) :
    (ofRoot e).get? name = (readOf e.all).reverse.lookup name := by
  have hentries : (ofRoot e).entries.filter (fun p => Standing.readNames.contains p.1) =
      readOf e.all := List.filter_flatMap
  unfold get?
  rw [← hentries, ← List.filter_reverse, lookup_filter (List.contains_iff_mem.2 hname)]

/-- The build configurations are made of the properties that are read. -/
theorem configurations_congr (h : ∀ name ∈ Standing.readNames, p.get? name = q.get? name) :
    p.configurations = q.configurations := by
  have hframeworks : p.frameworks = q.frameworks := by
    unfold frameworks
    rw [h "TargetFrameworks" (by decide), h "TargetFramework" (by decide)]
  have hconfiguration : p.configuration = q.configuration := by
    funext name framework
    unfold configuration
    rw [h "OutputPath" (by decide), h "AssemblyName" (by decide)]
  unfold configurations
  rw [hframeworks, hconfiguration]

/-- Documents that look the same when nothing that is read is hidden have the same configurations. -/
theorem configurations_of_hide (hspares : SparesRead hidden) {a b : Element}
    (h : a.hide hidden s = b.hide hidden s) :
    (ofRoot a).configurations = (ofRoot b).configurations := by
  refine configurations_congr fun name hname => ?_
  rw [get?_ofRoot hname, get?_ofRoot hname, ← readOf_hide hspares s a, h, readOf_hide hspares s b]

end Reading

end Properties

/-! ### Guarded documents -/

section Guarded

variable {s : Standing} {n : QualifiedName} {as : List (QualifiedName × Text)}

/-- The standing is one in a guarded document: a conditional group lies on a condition, and a group that
has no condition itself does not. -/
structure Standing.Guarded (s : Standing) : Prop where
  onCondition : s.inConditional = true → s.onCondition = true
  free : s.inGroup = true → s.onCondition = false

/-- Outside of all elements nothing is conditional. -/
theorem Standing.guarded_outside : Standing.Guarded {} := ⟨nofun, nofun⟩

/-- An element within which groups have conditions of their own guards its children. -/
theorem Standing.Guarded.inside (h : s.Guarded)
    (hgroup : (!(isGroupName n && s.onCondition) || hasCondition as) = true) :
    (s.inside n as).Guarded := by
  obtain ⟨honCondition, -⟩ := h
  refine ⟨?_, ?_⟩
  · unfold Standing.inside
    simp only [Bool.or_eq_true, Bool.and_eq_true]
    rintro (hconditional | ⟨-, hcondition⟩)
    · exact Or.inl (honCondition hconditional)
    · exact hcondition
  · unfold Standing.inside
    simp only [Bool.and_eq_true, Bool.not_eq_true', Bool.or_eq_false_iff]
    rintro ⟨hname, hnone⟩
    rw [hname, hnone, Bool.true_and, Bool.or_false, Bool.not_eq_true'] at hgroup
    exact ⟨hgroup, hnone⟩

/-- In a guarded document no property that is read is in a conditional group. -/
theorem Standing.Guarded.isUnread_eq (h : s.Guarded) (n : QualifiedName)
    (as : List (QualifiedName × Text)) : s.isUnread n as = s.isConditional n as := by
  unfold Standing.isUnread
  by_cases hread : s.isRead n = true
  · have hread' := hread
    unfold Standing.isRead at hread'
    rw [Bool.and_eq_true] at hread'
    obtain ⟨hgroup, hname⟩ := hread'
    have hoff := h.free hgroup
    have houtside : s.inConditional = false :=
      Bool.eq_false_iff.2 fun hin => by rw [h.onCondition hin] at hoff; cases hoff
    have hother : isGroupName n = false := by
      unfold isGroupName
      refine decide_eq_false fun heq => ?_
      rw [heq] at hname
      exact absurd hname (by decide)
    unfold Standing.isConditional Standing.inside
    rw [houtside, hother]
    rfl
  · rw [Bool.not_eq_true] at hread
    rw [hread, Bool.not_false, Bool.and_true]

namespace Markup.Element

mutual

/-- In a guarded document hiding the conditional groups hides nothing that is read. -/
theorem hide_isUnread (s : Standing) (h : s.Guarded) : ∀ e : Element,
    e.guarded s.onCondition = true → e.hide Standing.isUnread s = e.hide Standing.isConditional s
  | .mk n as t es, hguarded => by
    rw [guarded, Bool.and_eq_true] at hguarded
    rw [hide, hide, h.isUnread_eq,
      hideAll_isUnread (s.inside n as) (h.inside hguarded.1) es hguarded.2]

/-- In a guarded document what is not read is what is conditional. -/
theorem hideAll_isUnread (s : Standing) (h : s.Guarded) : ∀ es : List Element,
    guardedAll s.onCondition es = true →
      hideAll Standing.isUnread s es = hideAll Standing.isConditional s es
  | [], _ => rfl
  | e :: es, hguarded => by
    rw [guardedAll, Bool.and_eq_true] at hguarded
    rw [hideAll, hideAll, hide_isUnread s h e hguarded.1, hideAll_isUnread s h es hguarded.2]

end

section Shape

variable (hidden : Standing → QualifiedName → List (QualifiedName × Text) → Bool)

mutual

/-- Hidden texts do not show whether a document is guarded. -/
theorem guarded_hide (s : Standing) (onCondition : Bool) : ∀ e : Element,
    (e.hide hidden s).guarded onCondition = e.guarded onCondition
  | .mk n as t es => by
    rw [hide, guarded, guarded, guardedAll_hideAll]

/-- Hiding texts does not change whether a document is guarded. -/
theorem guardedAll_hideAll (s : Standing) (onCondition : Bool) : ∀ es : List Element,
    guardedAll onCondition (hideAll hidden s es) = guardedAll onCondition es
  | [] => rfl
  | e :: es => by
    rw [hideAll, guardedAll, guardedAll, guarded_hide s onCondition e,
      guardedAll_hideAll s onCondition es]

end

end Shape

end Markup.Element

end Guarded

namespace Project

/-! ### What is loaded -/

section Loading

variable {d d₁ : Disk} {written : Text} {content content₁ : Bytes} {a b : Element}

/-- A file that holds a document is loaded. -/
theorem load_of_readBytes (hread : d.readBytes (Path.ofText written).text = .ok content)
    (hroot : Element.ofBytes content = .ok a) :
    load d written = .ok (ofRoot (Path.ofText written) a) := by
  have hfile : d.isFile (Path.ofText written).text = .ok true :=
    Disk.isFile_of_readBytes hread
  unfold load ofBytes
  simp only [hfile, hread, hroot]

/-- Two documents at one path have the same elements with the same attributes, and differ only in texts of
conditional groups. They are loaded as the same project when these texts are not read as those of a
property in a group without a condition, and so they are when every group in an element with a condition
has one itself. -/
theorem load_ignores_conditional (hread : d.readBytes (Path.ofText written).text = .ok content)
    (hread₁ : d₁.readBytes (Path.ofText written).text = .ok content₁)
    (ha : Element.ofBytes content = .ok a) (hb : Element.ofBytes content₁ = .ok b) :
    (a.hide Standing.isUnread {} = b.hide Standing.isUnread {} →
      ∃ p, load d written = .ok p ∧ load d₁ written = .ok p) ∧
    (a.guarded false = true → a.hide Standing.isConditional {} = b.hide Standing.isConditional {} →
      ∃ p, load d written = .ok p ∧ load d₁ written = .ok p) := by
  have hloaded : a.hide Standing.isUnread {} = b.hide Standing.isUnread {} →
      ∃ p, load d written = .ok p ∧ load d₁ written = .ok p := by
    intro hsame
    refine ⟨_, load_of_readBytes hread ha, ?_⟩
    have hspares : Properties.SparesRead Standing.isUnread := by
      intro s n as hisRead
      rw [Standing.isUnread, hisRead, Bool.not_true, Bool.and_false]
    rw [load_of_readBytes hread₁ hb, ofRoot, ofRoot, Properties.configurations_of_hide hspares hsame]
  refine ⟨hloaded, fun hguarded hsame => hloaded ?_⟩
  have hguarded₁ : b.guarded false = true := by
    have hb := Element.guarded_hide Standing.isConditional {} false b
    rw [← hsame, Element.guarded_hide] at hb
    exact hb.symm.trans hguarded
  rw [Element.hide_isUnread {} Standing.guarded_outside a hguarded, hsame,
    Element.hide_isUnread {} Standing.guarded_outside b hguarded₁]

/-- A document with a group in an element that has a condition. -/
def choice (attributes framework : String) : Text :=
  "<Project><When Condition=\"c\"><PropertyGroup".toList ++ attributes.toList ++
    "><TargetFramework>".toList ++ framework.toList ++
      "</TargetFramework></PropertyGroup></When></Project>".toList

/-- The root of this document. -/
def choiceRoot (attributes : List (QualifiedName × Text)) (framework : Text) : Element :=
  .mk { localName := "Project" } [] []
    [.mk { localName := "When" } [({ localName := "Condition" }, "c")] []
      [.mk { localName := "PropertyGroup" } attributes []
        [.mk { localName := "TargetFramework" } [] framework []]]]

/-- A disk with this document. -/
def choiceDisk (attributes framework : String) : Disk where
  tree := FileTree.empty.put ["App.csproj"] (.file (Text.toUtf8 (choice attributes framework)))
  cwd := []

/-- The project file of the sample. -/
theorem readBytes_choiceDisk (attributes framework : String) :
    (choiceDisk attributes framework).readBytes (Path.ofText "App.csproj").text =
      .ok (Text.toUtf8 (choice attributes framework)) := by
  refine Disk.readBytes_eq_ok.2 ⟨["App.csproj"], by rfl, ?_, rfl⟩
  exact FileTree.get?_put_self _ (List.cons_ne_nil _ _) _

/-- A choice in which the group has a condition of its own. -/
theorem load_ignores_conditional_of_guarded :
    (choiceRoot [({ localName := "Condition" }, "d")] "net8.0").guarded false = true ∧
      (choiceRoot [({ localName := "Condition" }, "d")] "net8.0").hide Standing.isConditional {} =
        (choiceRoot [({ localName := "Condition" }, "d")] "net9.0").hide Standing.isConditional {} ∧
      ∃ p, load (choiceDisk " Condition=\"d\"" "net8.0") "App.csproj" = .ok p ∧
        load (choiceDisk " Condition=\"d\"" "net9.0") "App.csproj" = .ok p := by
  have ha : Element.ofBytes (Text.toUtf8 (choice " Condition=\"d\"" "net8.0")) =
      .ok (choiceRoot [({ localName := "Condition" }, "d")] "net8.0") := by decide +kernel
  have hb : Element.ofBytes (Text.toUtf8 (choice " Condition=\"d\"" "net9.0")) =
      .ok (choiceRoot [({ localName := "Condition" }, "d")] "net9.0") := by decide +kernel
  refine ⟨by decide, by decide, ?_⟩
  exact (load_ignores_conditional (readBytes_choiceDisk _ _) (readBytes_choiceDisk _ _) ha hb).2
    (by decide) (by decide)

/-- A group without a condition of its own is read, though it lies in an element that has one. -/
theorem load_leaks : Element.ofBytes (Text.toUtf8 (choice "" "net8.0")) = .ok (choiceRoot [] "net8.0") ∧
    Element.ofBytes (Text.toUtf8 (choice "" "net9.0")) = .ok (choiceRoot [] "net9.0") ∧
    (choiceRoot [] "net8.0").hide Standing.isConditional {} =
      (choiceRoot [] "net9.0").hide Standing.isConditional {} ∧
    load (choiceDisk "" "net8.0") "App.csproj" ≠ load (choiceDisk "" "net9.0") "App.csproj" := by
  have ha : Element.ofBytes (Text.toUtf8 (choice "" "net8.0")) = .ok (choiceRoot [] "net8.0") := by
    decide +kernel
  have hb : Element.ofBytes (Text.toUtf8 (choice "" "net9.0")) = .ok (choiceRoot [] "net9.0") := by
    decide +kernel
  refine ⟨ha, hb, by decide, ?_⟩
  rw [load_of_readBytes (readBytes_choiceDisk _ _) ha, load_of_readBytes (readBytes_choiceDisk _ _) hb]
  decide +kernel

end Loading

end Project

end JitInspect
