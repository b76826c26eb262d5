import JitInspect.Markup.Doctype
import JitInspect.Markup.Element
import JitInspect.Text.Lines

/-!
# Documents

A document is an optional declaration of its encoding, an optional document type declaration, and
one root element with remarks around it. It is read with a stack of the elements that are open; the
bottom of the stack stands for the document, or for the element in which an entity is replaced, and
is never closed. So what an entity opens it has to close.
-/

namespace JitInspect

namespace Markup

/-! ### Namespaces -/

section Namespaces

/-- The address of a folder on the host that the standard names belong to. -/
def standardAddress (folders : List String) : Text :=
  Text.join "/" (("http:" :: "" :: "www.w3.org" :: folders).map String.toList)

/-- The namespace that the prefix of standard attributes is bound to. -/
def standardSpace : Text := standardAddress ["XML", "1998", "namespace"]

/-- The namespace of the attributes that bind prefixes. -/
def bindingSpace : Text := standardAddress ["2000", "xmlns", ""]

/-- The prefixes in scope with their namespaces, innermost first; the empty prefix is the one of
names without a colon, and an empty namespace is none. -/
abbrev Bindings := List (Text × Text)

/-- The prefix of a written name, if it has one, and the local name. -/
def prefixed (written : Text) : Option Text × Text :=
  match Text.splitFirst [':'] written with
  | some (p, n) => (some p, n)
  | none => (none, written)

/-- The prefix that an attribute binds, if it binds one. -/
def bound? (written : Text) : Option Text :=
  if written = "xmlns".toList then some []
  else
    match prefixed written with
    | (some p, n) => if p = "xmlns".toList then some n else none
    | _ => none

/-- Whether a prefix may be bound to a namespace. -/
def mayBind (p space : Text) : Bool :=
  !space.contains '}' && p ≠ "xmlns".toList && space ≠ bindingSpace &&
    (p = "xml".toList) = (space = standardSpace) && (p.isEmpty || !space.isEmpty)

/-- The bindings with those of the attributes. -/
def Bindings.extend (b : Bindings) (attributes : List (Text × Text)) : Option Bindings :=
  attributes.foldlM (fun b (written, value) =>
    match bound? written with
    | none => some b
    | some p => if mayBind p value then some ((p, value) :: b) else none) b

/-- The namespace of a prefix. -/
def Bindings.space? (b : Bindings) (p : Text) : Option Text :=
  if p = "xml".toList then some standardSpace else b.lookup p

/-- The name that an element's written name stands for. -/
def Bindings.elementName? (b : Bindings) (written : Text) : Option QualifiedName :=
  match prefixed written with
  | (some p, n) => (b.space? p).map fun s => ⟨some s, n⟩
  | (none, n) => some ⟨(b.lookup []).filter fun s => !s.isEmpty, n⟩

/-- The name that an attribute's written name stands for. -/
def Bindings.attributeName? (b : Bindings) (written : Text) : Option QualifiedName :=
  match prefixed written with
  | (some p, n) => (b.space? p).map fun s => ⟨some s, n⟩
  | (none, n) => some ⟨none, n⟩

end Namespaces

/-! ### Open elements -/

section OpenElements

/-- An element whose end has not been read. What has been read of it is kept last first. -/
structure OpenElement where
  written : Text
  name : QualifiedName
  attributes : List (QualifiedName × Text)
  bindings : Bindings
  text : Text := []
  children : List Element := []

namespace OpenElement

/-- The bottom of the stack for a whole document. -/
def document : OpenElement := ⟨[], ⟨none, []⟩, [], [], [], []⟩

/-- Whether the element stands for the document. No element has an empty name. -/
def isDocument (o : OpenElement) : Bool := o.written.isEmpty

/-- The element when its end has been read. -/
def close (o : OpenElement) : Element := .mk o.name o.attributes o.text.reverse o.children.reverse

/-- The element with a child more. A document has one child only. -/
def addChild? (o : OpenElement) (e : Element) : Option OpenElement :=
  if o.isDocument && !o.children.isEmpty then none else some { o with children := e :: o.children }

/-- The element with more text, of which only the part in front of the first child is kept. -/
def addText (o : OpenElement) (t : Text) : OpenElement :=
  if o.children.isEmpty then { o with text := t.reverse ++ o.text } else o

/-- The element that a tag starts within the given one. -/
def start? (a : Alphabet) (d : Definitions) (outer : OpenElement) (written : Text)
    (attributes : List WrittenAttribute) : Option OpenElement := do
  if !(attributes.map (·.1)).Nodup then none
  let given ← attributes.mapM fun (n, v) => do
    let value ← d.value? d.depth (← Piece.ofValue a '<' v)
    return (n, d.normalized written n value)
  let defaults := d.rules.filterMap fun r =>
    if r.element = written && !(given.any fun a => a.1 = r.name) then
      r.default.map fun v => (r.name, v)
    else none
  let all := given ++ defaults
  let bindings ← outer.bindings.extend all
  let name ← bindings.elementName? written
  let named ← (all.filter fun a => (bound? a.1).isNone).mapM fun (n, v) => do
    return (← bindings.attributeName? n, v)
  if !(named.map (·.1)).Nodup then none
  return { written, name, attributes := named, bindings }

end OpenElement

/-- The elements that are open, innermost first, above the one that is never closed. -/
structure OpenElements where
  innermost : OpenElement
  others : List OpenElement := []
  /-- How long the texts are that have taken the place of entities. -/
  expanded : Nat := 0

/-- What is known before the elements are read. -/
structure Surroundings where
  definitions : Definitions
  /-- The length of each entity's text with all entities in it replaced. -/
  lengths : List (Text × Nat)
  documentLength : Nat

/-- The length of the texts that take the place of the entities in a token. -/
def Token.expandedLength (s : Surroundings) (a : Alphabet) : Token → Nat
  | start _ attributes _ =>
    Definitions.totalLength s.lengths (attributes.flatMap fun w => Definitions.references a w.2)
  | reference (.entity n) => Definitions.totalLength s.lengths [n]
  | _ => 0

namespace OpenElements

/-- Adds text. In the document itself only white space may stand. -/
def addText? (s : OpenElements) (t : Text) : Option OpenElements :=
  if s.innermost.isDocument then (if t.all isSpace then some s else none)
  else some { s with innermost := s.innermost.addText t }

/-- Opens an element, and closes it at once when its tag is an empty one. -/
def start? (a : Alphabet) (d : Definitions) (s : OpenElements) (written : Text)
    (attributes : List WrittenAttribute) (isEmpty : Bool) : Option OpenElements := do
  let o ← s.innermost.start? a d written attributes
  if s.innermost.isDocument && !s.innermost.children.isEmpty then none
  if isEmpty then return { s with innermost := ← s.innermost.addChild? o.close }
  else return { s with innermost := o, others := s.innermost :: s.others }

/-- Closes the innermost element. -/
def finish? (s : OpenElements) (written : Text) : Option OpenElements :=
  match s.others with
  | [] => none
  | o :: os =>
    if s.innermost.written = written then
      (o.addChild? s.innermost.close).map fun o => { s with innermost := o, others := os }
    else none

/-- The open elements after a token. The function replaces an entity in an element. -/
def afterToken? (a : Alphabet) (d : Definitions)
    (replace : Text → OpenElement → Option OpenElement) (s : OpenElements) :
    Token → Option OpenElements
  | .start n as isEmpty => s.start? a d n as isEmpty
  | .finish n => s.finish? n
  | .plain t => s.addText? t
  | .reference (.literal c) | .reference (.numbered c) =>
    if s.innermost.isDocument then none else s.addText? [c]
  | .reference (.entity n) =>
    if s.innermost.isDocument then none
    else
      match Piece.predefined? n with
      | some c => s.addText? [c]
      | none => (replace n s.innermost).map fun o => { s with innermost := o }
  | .quoted t => if s.innermost.isDocument then none else s.addText? t
  | .remark => some s

/-- Reads a text to its end. The number bounds how many characters it has. What the text expands to
is kept within measure. -/
def readWith (a : Alphabet) (x : Surroundings) (replace : Text → OpenElement → Option OpenElement) :
    Nat → OpenElements → Text → Option OpenElements
  | _, s, [] => some s
  | 0, _, _ => none
  | n + 1, s, t =>
    match Token.next? a n t with
    | none => none
    | some (token, rest) =>
      let s := { s with expanded := s.expanded + token.expandedLength x a }
      if !Definitions.isWithinMeasure x.documentLength s.expanded then none
      else
        match s.afterToken? a x.definitions replace token with
        | none => none
        | some s => readWith a x replace n s rest

/-- Reads a text into an element, which is the innermost one again at the end. The text of an entity
is read with the letters of the standard. The number bounds how deep entities are nested. -/
def readInto (x : Surroundings) : Nat → Alphabet → Text → OpenElement → Option OpenElement
  | 0, _, _, _ => none
  | depth + 1, a, t, o =>
    let replace := fun n o => do readInto x depth .standard (← x.definitions.text? n) o
    match readWith a x replace t.length { innermost := o } t with
    | some ⟨o, [], _⟩ => some o
    | _ => none

end OpenElements

end OpenElements

/-! ### The whole document -/

section Whole

/-- What the first line of a document says. -/
structure Heading where
  encoding : Option Text := none
  standsAlone : Bool := false

namespace Heading

/-- Whether the character may stand in the values of the first line. -/
def isValueChar (c : Char) : Bool := c.isAlphanum || c = '.' || c = '_' || c = '-'

/-- The heading with an encoding, whose name starts with a letter. -/
def withEncoding? (name : Text) : Option Heading :=
  match name with
  | c :: _ => if c.isAlpha then some { encoding := some name } else none
  | [] => none

/-- The heading with the word on whether the document stands alone. -/
def withWord? (h : Heading) (word : Text) : Option Heading :=
  if word = "yes".toList then some { h with standsAlone := true }
  else if word = "no".toList then some h
  else none

/-- The heading that the attributes of the first line give. -/
def ofAttributes? (attributes : List WrittenAttribute) : Option Heading :=
  if !(attributes.all fun a => a.2.all isValueChar) then none
  else
    match attributes.map fun a => (String.ofList a.1, a.2) with
    | [("version", _)] => some {}
    | [("version", _), ("encoding", e)] => withEncoding? e
    | [("version", _), ("standalone", w)] => withWord? {} w
    | [("version", _), ("encoding", e), ("standalone", w)] =>
      (withEncoding? e).bind fun h => h.withWord? w
    | _ => none

/-- The heading at the start of a document, if there is one, and how many characters it takes. -/
def read (t : Text) : Option (Heading × Nat) :=
  match Text.after? "<?xml" t with
  | some (c :: rest) =>
    if isSpace c then
      match attributes? .standard rest.length (c :: rest) with
      | some (as, '?' :: '>' :: rest) => (ofAttributes? as).map (·, t.length - rest.length)
      | _ => none
    else some ({}, 0)
  | _ => some ({}, 0)

end Heading

/-- The text without the remarks and the white space at its start. The number bounds their count. -/
def skipRemarks (a : Alphabet) : Nat → Text → Option Text
  | 0, t => some t
  | n + 1, t =>
    match skipSpace t with
    | '<' :: '?' :: t => (afterInstruction? a t).bind (skipRemarks a n)
    | '<' :: '!' :: '-' :: '-' :: t => (afterComment? t).bind (skipRemarks a n)
    | t => some t

/-- The root element of a document without its heading. -/
def root? (a : Alphabet) (h : Heading) (documentLength : Nat) (t : Text) : Option Element := do
  let t ← skipRemarks a t.length t
  let (d, t) ← match Text.after? "<!DOCTYPE" t with
    | some rest => doctype? a h.standsAlone documentLength rest
    | none => some ({}, t)
  let surroundings : Surroundings := { definitions := d, lengths := d.lengths, documentLength }
  let o ← OpenElements.readInto surroundings d.depth a t .document
  o.children.head?

/-- Reads a document. Its heading is in the encoding that the first bytes show. -/
def Element.ofBytes (bs : Bytes) : Except MarkupFault Element :=
  let (shown, content) := Encoding.ofStart bs
  match Heading.read (shown.glance content) with
  | none => .error .malformed
  | some (h, length) => do
    let e ← match h.encoding with
      | none => .ok shown
      | some name => shown.named name
    match e.decode (content.drop (length * shown.width)) with
    | none => .error .malformed
    | some t =>
      match if t.all isLegal then root? e.alphabet h bs.length (Text.unifyNewlines t) else none with
      | some root => .ok root
      | none => .error .malformed

end Whole

end Markup

end JitInspect
