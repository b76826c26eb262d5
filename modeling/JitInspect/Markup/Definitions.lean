import JitInspect.Markup.Token

/-!
# Definitions

A document may define entities, which stand for texts, and attributes, which have defaults. The
first definition of a name counts. Nothing outside the document is read, so that an entity that is
defined there has no text; where it could be defined there, an attribute value leaves it out.

An entity can contain others, and the text that it stands for can be far longer than the document.
So the lengths of these texts are added up first (`Definitions.lengths`), and a document that
expands beyond measure is refused.
-/

namespace JitInspect

namespace Markup

/-- What is defined for an attribute. -/
structure AttributeRule where
  element : Text
  name : Text
  /-- White space counts as it stands in the value. -/
  keepsSpace : Bool
  default : Option Text
  deriving DecidableEq, Repr

/-- What a document defines. -/
structure Definitions where
  /-- The text of each entity; none for one that is outside the document. -/
  entities : List (Text × Option Text) := []
  rules : List AttributeRule := []
  /-- Nothing outside the document matters. -/
  standsAlone : Bool := false
  /-- The document refers to definitions outside of it. -/
  refersOutside : Bool := false
  /-- What follows a reference to other definitions no longer counts, unless the document stands
  alone. -/
  active : Bool := true
  deriving DecidableEq, Repr

namespace Definitions

/-- The text of an entity. -/
def text? (d : Definitions) (name : Text) : Option Text := (d.entities.lookup name).join

/-- Whether an entity that is not defined in the document may be defined elsewhere. -/
def isOpen (d : Definitions) : Bool := d.refersOutside && !d.standsAlone

/-! ### Expansion -/

/-- How long an expanded text may be in any case. -/
def generousLength : Nat := 8388608

/-- How many times as long as the document an expanded text may be in any case. -/
def generousFactor : Nat := 100

/-- The entities that the text refers to, wherever it does so. The number bounds their count. -/
def referencesWithin (a : Alphabet) : Nat → Text → List Text
  | n + 1, '&' :: t =>
    match Piece.reference? a t with
    | some (.entity name, rest) => name :: referencesWithin a n rest
    | _ => referencesWithin a n t
  | n + 1, _ :: t => referencesWithin a n t
  | _, _ => []

/-- The entities that the text refers to. -/
def references (a : Alphabet) (t : Text) : List Text :=
  if t.contains '&' then referencesWithin a t.length t else []

/-- How long the texts of the given entities are together, given the length of each. What is beyond
any measure is not told apart. -/
def totalLength (lengths : List (Text × Nat)) (names : List Text) : Nat :=
  min (names.foldl (fun n name => n + (lengths.lookup name).getD 0) 0) (2 * generousLength)

/-- Adds the lengths of the entities within entities until nothing changes. The number bounds how
deep they are nested. -/
def expandLengths (parts : List (Text × Nat × List Text)) :
    Nat → List (Text × Nat) → List (Text × Nat)
  | 0, lengths => lengths
  | n + 1, lengths =>
    let next := parts.map fun (name, own, names) => (name, own + totalLength lengths names)
    if next = lengths then lengths else expandLengths parts n next

/-- The length in bytes of each entity's text with all entities in it replaced. -/
def lengths (d : Definitions) : List (Text × Nat) :=
  let parts := d.entities.filterMap fun (name, text) => do
    let text ← text
    return (name, text.foldl (fun n c => n + c.utf8Size) 0, references .standard text)
  expandLengths parts (parts.length + 1) []

/-- Whether the text that a document of some length has been expanded to is within measure. -/
def isWithinMeasure (documentLength expandedLength : Nat) : Bool :=
  documentLength + expandedLength < generousLength ||
    documentLength + expandedLength ≤ generousFactor * documentLength

/-! ### Values of attributes -/

/-- The value that the pieces give. White space becomes a space; entities are replaced, to the given
depth. -/
def value? (d : Definitions) : Nat → List Piece → Option Text
  | 0, _ => none
  | depth + 1, ps => (ps.mapM fun (p : Piece) =>
      match p with
      | .literal c => some [if isSpace c then ' ' else c]
      | .numbered c => some [c]
      | .entity name =>
        match Piece.predefined? name, d.entities.lookup name with
        | some c, _ => some [c]
        | none, some (some t) => do value? d depth (← Piece.ofValue .standard '<' t)
        | none, some none => none
        | none, none => if d.isOpen then some [] else none).map List.flatten

/-- How deep entities can be nested without one of them containing itself. -/
def depth (d : Definitions) : Nat := d.entities.length + 1

/-- The value with single spaces between its words. -/
def squeeze (t : Text) : Text := Text.join " " ((Text.splitOn " " t).filter (· ≠ []))

/-- The value of an attribute after white space has been treated as defined. -/
def normalized (d : Definitions) (element name value : Text) : Text :=
  match d.rules.find? fun r => r.element = element && r.name = name with
  | some r => if r.keepsSpace then value else squeeze value
  | none => value

/-! ### New definitions -/

/-- The definitions with another entity, unless definitions no longer count. -/
def withEntity (d : Definitions) (name : Text) (text : Option Text) : Definitions :=
  if d.active && (d.entities.lookup name).isNone then
    { d with entities := d.entities ++ [(name, text)] }
  else d

/-- The definitions with another rule, unless definitions no longer count. -/
def withRule (d : Definitions) (r : AttributeRule) : Definitions :=
  if d.active && !(d.rules.any fun o => o.element = r.element && o.name = r.name) then
    { d with rules := d.rules ++ [r] }
  else d

/-- The definitions after a reference to others, which are not read. -/
def afterReference (d : Definitions) : Definitions :=
  { d with refersOutside := true, active := d.standsAlone }

end Definitions

end Markup

end JitInspect
