import JitInspect.Proofs.Text.Pattern
import JitInspect.Strategy.Environment

/-!
# The items of a properties file

A properties file hands the options of a run to the compiler for native programs, one item for each.
What it holds is what a reader finds who goes from tag to tag (`Markup.tags`) and takes the value of
an attribute from its opening quote to the next one (`Markup.valueAsWritten?`). The tags are always
the same but for the items between them, of which there is one for each option, in order; and the
value of an item, with its entities read back, is the option with its value in quotes
(`Knobs.nativeProperties_items`).
-/

namespace JitInspect

namespace Markup

variable {t value : Text}

/-! ### Reading tags -/

section Tags

/-- Where a reader of tags stands: between two of them, or in a tag of which it has read so much.
There it may be inside of a quoted value, in which brackets say nothing. -/
inductive Stand where
  | between
  | inside (read : Text) (quoted : Bool)
  deriving DecidableEq

namespace Stand

/-- Where the reader stands one character further. -/
def next : Stand → Char → Stand
  | between, c => if c = '<' then inside [] false else between
  | inside read quoted, c =>
    if c = '>' && !quoted then between else inside (read ++ [c]) (quoted != (c = '"'))

/-- The tag that ends with the character. -/
def closed? : Stand → Char → Option Text
  | between, _ => none
  | inside read quoted, c => if c = '>' && !quoted then some read else none

end Stand

/-- The tags that end in the text. -/
def tagsFrom : Stand → Text → List Text
  | _, [] => []
  | s, c :: cs => (s.closed? c).toList ++ tagsFrom (s.next c) cs

/-- The tags of a text, without their brackets. -/
def tags (t : Text) : List Text := tagsFrom .between t

/-- The value that a tag with the given name has for a key, as it is written between its quotes. -/
def valueAsWritten? (name key tag : Text) : Option Text := do
  let pairs ← Text.after? (name ++ " ") tag
  let (_, quoted) ← Text.splitFirst (key ++ "=\"") pairs
  let (value, _) ← Text.splitFirst ['"'] quoted
  pure value

/-- The tags of two parts, of which the second one goes on where the first one ends. -/
theorem tagsFrom_append (s : Stand) (t rest : Text) :
    tagsFrom s (t ++ rest) = tagsFrom s t ++ tagsFrom (t.foldl Stand.next s) rest := by
  induction t generalizing s with
  | nil => rfl
  | cons c cs ih => rw [List.cons_append, tagsFrom, tagsFrom, ih, List.append_assoc, List.foldl_cons]

/-- A quoted value is read on until there is a quote. -/
theorem next_quoted (read : Text) (ht : '"' ∉ t) :
    t.foldl Stand.next (.inside read true) = .inside (read ++ t) true ∧
      tagsFrom (.inside read true) t = [] := by
  induction t generalizing read with
  | nil => exact ⟨by rw [List.append_nil]; rfl, rfl⟩
  | cons c cs ih =>
    rw [List.mem_cons, not_or] at ht
    have hnext : (Stand.inside read true).next c = .inside (read ++ [c]) true := by
      simp [Stand.next, Ne.symm ht.1]
    have hclosed : (Stand.inside read true).closed? c = none := by
      simp [Stand.closed?]
    obtain ⟨hstand, htags⟩ := ih (read ++ [c]) ht.2
    constructor
    · rw [List.foldl_cons, hnext, hstand, List.append_assoc, List.singleton_append]
    · rw [tagsFrom, hnext, hclosed, htags]
      rfl

/-- The next quote ends a value. -/
theorem splitFirst_quote (hvalue : '"' ∉ value) (rest : Text) :
    Text.splitFirst ['"'] (value ++ '"' :: rest) = some (value, rest) := by
  refine Text.splitFirst_eq_some_iff.2 ⟨rfl, fun b r hother => ?_⟩
  by_contra hshorter
  -- A quote further in front would stand in the value.
  have hbegins : b ++ ['"'] <+: value := by
    refine List.prefix_of_prefix_length_le ⟨r, ?_⟩ (List.prefix_append value ('"' :: rest)) ?_
    · rw [hother, List.append_assoc]
    · rw [List.length_append, List.length_singleton]
      omega
  exact hvalue (hbegins.subset (List.mem_append_right b List.mem_cons_self))

/-- No quote and no bracket stands in an escaped text. -/
theorem not_mem_escape (t : Text) : '<' ∉ escape t ∧ '>' ∉ escape t ∧ '"' ∉ escape t :=
  ⟨fun h => absurd (escape_safe t _ h) (by decide), fun h => absurd (escape_safe t _ h) (by decide),
    fun h => absurd (escape_safe t _ h) (by decide)⟩

end Tags

end Markup

namespace Knobs

/-! ### Items -/

section Items

open Markup (Stand tags tagsFrom valueAsWritten? escape unescape)

/-- The tags in front of the items. -/
def tagsBefore : List Text :=
  ["?xml version=\"1.0\" encoding=\"utf-8\"?", "Project", "PropertyGroup", "DefineConstants",
    "/DefineConstants", "/PropertyGroup", "ItemGroup"]

/-- The tags behind the items. -/
def tagsBehind : List Text := ["/ItemGroup", "/Project"]

/-- The tag of the item for an option. -/
def itemTag (option value : Text) : Text :=
  "IlcArg Include=\"" ++ escape (itemValue option value) ++ "\" /"

/-- An item is one tag, whatever is in the option and its value. -/
theorem tagsFrom_item (option value rest : Text) :
    tagsFrom .between (item option value ++ rest) =
      itemTag option value :: tagsFrom .between rest := by
  have hstart : ("\t\t<IlcArg Include=\"" : Text).foldl Stand.next .between =
      .inside "IlcArg Include=\"" true := by decide +kernel
  have hopens : tagsFrom .between ("\t\t<IlcArg Include=\"" : Text) = [] := by decide +kernel
  have hend : ∀ read : Text, tagsFrom (.inside read true) ("\" />\n" ++ rest) =
      (read ++ "\" /") :: tagsFrom .between rest := by
    intro read
    simp [tagsFrom, Stand.next, Stand.closed?]
  have hquote : '"' ∉ escape (itemValue option value) := (Markup.not_mem_escape _).2.2
  have hread : ∀ read : Text, (escape (itemValue option value)).foldl Stand.next (.inside read true) =
      .inside (read ++ escape (itemValue option value)) true ∧
        tagsFrom (.inside read true) (escape (itemValue option value)) = [] :=
    fun read => Markup.next_quoted read hquote
  unfold item itemTag
  rw [List.append_assoc, List.append_assoc, Markup.tagsFrom_append, hstart, hopens,
    Markup.tagsFrom_append, (hread _).1, (hread _).2, hend, List.nil_append, List.nil_append]

/-- Each item is one tag. -/
theorem tagsFrom_items (pairs : Variables) (rest : Text) :
    tagsFrom .between (pairs.flatMap (fun (o, v) => item o v) ++ rest) =
      pairs.map (fun (o, v) => itemTag o v) ++ tagsFrom .between rest := by
  induction pairs with
  | nil => rfl
  | cons p pairs ih =>
    rw [List.flatMap_cons, List.append_assoc, tagsFrom_item, ih]
    rfl

/-- The value of an item is the escaped text between its quotes. -/
theorem valueAsWritten?_itemTag (option value : Text) :
    valueAsWritten? "IlcArg" "Include" (itemTag option value) =
      some (escape (itemValue option value)) := by
  have hquote : '"' ∉ escape (itemValue option value) := (Markup.not_mem_escape _).2.2
  have hfront : ("IlcArg Include=\"" : Text) =
      ("IlcArg".toList ++ " ".toList) ++ ("Include".toList ++ "=\"".toList) := by decide +kernel
  have hend : ("\" /" : Text) = '"' :: " /".toList := by decide +kernel
  have hkey : ∀ rest : Text, Text.splitFirst ("Include".toList ++ "=\"".toList)
      (("Include".toList ++ "=\"".toList) ++ rest) = some ([], rest) :=
    fun rest => Text.splitFirst_eq_some_iff.2 ⟨rfl, fun b r _ => Nat.zero_le _⟩
  unfold valueAsWritten? itemTag
  rw [hfront, hend, List.append_assoc, List.append_assoc, Text.after?_append]
  simp only [Option.bind_eq_bind, Option.bind_some, hkey, Markup.splitFirst_quote hquote]
  rfl

-- A value that would end its item, and begin another one, stays what it is.
example :
    (tags (item "--codegenopt:jitdisasm" "\"/><IlcArg Include=\"&lt;")).filterMap
      (valueAsWritten? "IlcArg" "Include") =
        ["--codegenopt:jitdisasm=&quot;&quot;/&gt;&lt;IlcArg Include=&quot;&amp;lt;&quot;".toList] := by
  decide +kernel

/-- So the tags of the properties are the items, with what is around them. -/
theorem tags_nativeProperties (h : Host) (vars : Variables) :
    tags (nativeProperties h vars) =
      tagsBefore ++ (options h vars).map (fun (o, v) => itemTag o v) ++ tagsBehind := by
  have hbefore : tagsFrom .between (propertiesHead ++ "\t<ItemGroup>\n") = tagsBefore := by
    decide +kernel
  have hthere : (propertiesHead ++ "\t<ItemGroup>\n").foldl Stand.next .between = .between := by
    decide +kernel
  have hbehind : tagsFrom .between ("\t</ItemGroup>\n" ++ propertiesFoot) = tagsBehind := by
    decide +kernel
  rw [tags, nativeProperties, List.append_assoc, List.append_assoc, Markup.tagsFrom_append,
    hbefore, hthere, tagsFrom_items, hbehind, List.append_assoc]

/-- A properties file has one item for each option, in order, and nothing else in it depends on the
variables. The value of each item reads back as the option with its value in quotes. As it is written
there is no bracket and no quote in it. -/
theorem nativeProperties_items (h : Host) (vars : Variables) :
    let found := tags (nativeProperties h vars)
    let values := found.filterMap (valueAsWritten? "IlcArg" "Include")
    found = tagsBefore ++ (options h vars).map (fun (o, v) => itemTag o v) ++ tagsBehind ∧
      values.map unescape = (options h vars).map (fun (o, v) => o ++ "=\"" ++ v ++ "\"") ∧
      ∀ value ∈ values, '<' ∉ value ∧ '>' ∉ value ∧ '"' ∉ value := by
  intro found values
  have hfound : found = tagsBefore ++ (options h vars).map (fun (o, v) => itemTag o v) ++ tagsBehind :=
    tags_nativeProperties h vars
  have hvalues : values = (options h vars).map fun (o, v) => escape (itemValue o v) := by
    have hbefore : tagsBefore.filterMap (valueAsWritten? "IlcArg" "Include") = [] := by decide +kernel
    have hbehind : tagsBehind.filterMap (valueAsWritten? "IlcArg" "Include") = [] := by decide +kernel
    have hitems : valueAsWritten? "IlcArg" "Include" ∘ (fun (o, v) => itemTag o v) =
        fun p : Text × Text => some (escape (itemValue p.1 p.2)) :=
      funext fun p => valueAsWritten?_itemTag p.1 p.2
    change found.filterMap _ = _
    rw [hfound, List.filterMap_append, List.filterMap_append, hbefore, hbehind, List.nil_append,
      List.append_nil, List.filterMap_map, hitems, List.filterMap_eq_map']
  refine ⟨hfound, ?_, ?_⟩
  · rw [hvalues, List.map_map]
    exact List.map_congr_left fun p _ => Markup.unescape_escape (itemValue p.1 p.2)
  · intro value hvalue
    rw [hvalues] at hvalue
    obtain ⟨p, -, rfl⟩ := List.mem_map.1 hvalue
    exact Markup.not_mem_escape (itemValue p.1 p.2)

end Items

end Knobs

end JitInspect
