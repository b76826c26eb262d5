import JitInspect.Markup.Definitions
import JitInspect.Markup.Word

/-!
# Document type declarations

A document may begin with declarations of elements, attributes, entities and notations. Of these
only attributes and entities make definitions; the others have to be well-formed. What lies outside
the document is not read, but a reference to it makes what follows not count.
-/

namespace JitInspect

namespace Markup

/-! ### Attributes -/

section Attributes

/-- The words behind an enumeration of names, given those behind its bracket. The names of notations
have to be plain ones. -/
def afterEnumeration? (ofNotations : Bool) : List Word → Option (List Word)
  | w :: separator :: ws =>
    let isPossible := match w with
      | .name _ => true
      | .qualified _ | .fragment _ => !ofNotations
      | _ => false
    if !isPossible then none
    else if separator = .bar then afterEnumeration? ofNotations ws
    else if separator = .closing none then some ws
    else none
  | _ => none

/-- Whether values of an attribute type keep their white space, and the words behind the type. -/
def attributeType? : List Word → Option (Bool × List Word)
  | .opening :: ws => (afterEnumeration? false ws).map (false, ·)
  | .name t :: ws =>
    match String.ofList t, ws with
    | "CDATA", _ => some (true, ws)
    | "NOTATION", .opening :: ws => (afterEnumeration? true ws).map (false, ·)
    | t, _ =>
      if ["ID", "IDREF", "IDREFS", "ENTITY", "ENTITIES", "NMTOKEN", "NMTOKENS"].contains t then
        some (false, ws)
      else none
  | _ => none

/-- The default of an attribute as it is written, and the words behind it. -/
def attributeDefault? : List Word → Option (Option Text × List Word)
  | .quotation v :: ws => some (some v, ws)
  | .keyword t :: ws =>
    match String.ofList t, ws with
    | "IMPLIED", _ => some (none, ws)
    | "REQUIRED", _ => some (none, ws)
    | "FIXED", .quotation v :: ws => some (some v, ws)
    | _, _ => none
  | _ => none

/-- The value of a default in a document of some length. -/
def defaultValue? (a : Alphabet) (documentLength : Nat) (d : Definitions) (keepsSpace : Bool)
    (written : Text) : Option Text := do
  let names := Definitions.references a written
  if !names.isEmpty then
    let expanded := Definitions.totalLength d.lengths names
    if !Definitions.isWithinMeasure documentLength expanded then none
  let value ← d.value? d.depth (← Piece.ofValue a '<' written)
  return if keepsSpace then value else Definitions.squeeze value

/-- Declares attributes of an element. The number bounds their count. -/
def declareAttributes (a : Alphabet) (documentLength : Nat) (element : Text) :
    Nat → Definitions → List Word → Option Definitions
  | _, d, [] => some d
  | 0, _, _ => none
  | n + 1, d, w :: ws => do
    let name ← match w with
      | .name t | .qualified t => some t
      | _ => none
    let (keepsSpace, ws) ← attributeType? ws
    let (written, ws) ← attributeDefault? ws
    if d.active then
      let default ← written.mapM (defaultValue? a documentLength d keepsSpace)
      declareAttributes a documentLength element n
        (d.withRule { element, name := name, keepsSpace, default }) ws
    else declareAttributes a documentLength element n d ws

end Attributes

/-! ### Entities -/

section Entities

/-- The text of an entity as it is kept: characters given by number are replaced, entities are not.
-/
def entityText? (a : Alphabet) (t : Text) : Option Text :=
  (Piece.ofValue a '%' t).map fun ps => ps.flatMap fun p =>
    match p with
    | .literal c | .numbered c => [c]
    | .entity name => '&' :: name ++ ([';'] : Text)

/-- The words without those that name the notation of an entity. -/
def withoutNotation : List Word → List Word
  | [.name k, .name n] => if k = "NDATA".toList then [] else [.name k, .name n]
  | w :: ws => w :: withoutNotation ws
  | [] => []

/-- Declares an entity. The text of one that no longer counts is not looked at. -/
def declareEntity (a : Alphabet) (d : Definitions) : List Word → Option Definitions
  | [.percent, .name _, .quotation v] =>
    if d.active then (entityText? a v).map fun _ => d else some d
  | .percent :: .name _ :: ws => if isExternal ws then some d else none
  | [.name n, .quotation v] =>
    if d.active then (entityText? a v).map fun text => d.withEntity n (some text) else some d
  | .name n :: ws => if isExternal (withoutNotation ws) then some (d.withEntity n none) else none
  | _ => none

end Entities

/-! ### Declarations -/

section Declarations

/-- The definitions after one declaration, given by its keyword and its words. -/
def declare (a : Alphabet) (documentLength : Nat) (d : Definitions) (keyword : String) :
    List Word → Option Definitions
  | .name n :: ws =>
    match keyword with
    | "ENTITY" => declareEntity a d (.name n :: ws)
    | "ATTLIST" => declareAttributes a documentLength n (ws.length + 1) d ws
    | "ELEMENT" => if isModel ws then some d else none
    | "NOTATION" => if isExternalOrPublic ws then some d else none
    | _ => none
  | .qualified n :: ws =>
    match keyword with
    | "ATTLIST" => declareAttributes a documentLength n (ws.length + 1) d ws
    | "ELEMENT" => if isModel ws then some d else none
    | _ => none
  | ws => if keyword = "ENTITY" then declareEntity a d ws else none

/-- Reads declarations up to the bracket that ends them. The number bounds how many characters there
are. -/
def declarations (a : Alphabet) (documentLength : Nat) :
    Nat → Definitions → Text → Option (Definitions × Text)
  | 0, _, _ => none
  | n + 1, d, t =>
    match skipSpace t with
    | ']' :: rest => some (d, rest)
    | '<' :: '?' :: t => (afterInstruction? a t).bind (declarations a documentLength n d)
    | '<' :: '!' :: '-' :: '-' :: t => (afterComment? t).bind (declarations a documentLength n d)
    | '<' :: '!' :: t => do
      let (keyword, rest) := t.span Char.isAlpha
      match ← Word.all? a n rest with
      | (ws, '>' :: rest) =>
        let d ← declare a documentLength d (String.ofList keyword) ws
        declarations a documentLength n d rest
      | _ => none
    | '%' :: t =>
      match a.name? t with
      | some (_, ';' :: rest) => declarations a documentLength n d.afterReference rest
      | _ => none
    | _ => none

/-- Reads a document type declaration in a document of some length, given what follows its keyword,
and the rest. -/
def doctype? (a : Alphabet) (standsAlone : Bool) (documentLength : Nat) (t : Text) :
    Option (Definitions × Text) := do
  let bound := t.length + 1
  let (ws, rest) ← Word.all? a bound t
  let ws ← match ws with
    | .name _ :: ws | .qualified _ :: ws => some ws
    | _ => none
  if !(ws.isEmpty || isExternal ws) then none
  let d : Definitions := { standsAlone, refersOutside := !ws.isEmpty }
  match rest with
  | '>' :: rest => some (d, rest)
  | '[' :: rest => do
    let (d, rest) ← declarations a documentLength bound d rest
    match skipSpace rest with
    | '>' :: rest => some (d, rest)
    | _ => none
  | _ => none

end Declarations

end Markup

end JitInspect
