import JitInspect.Text.Basic

/-!
# Elements

A document is read into a tree of elements. Of the text in an element only the part in front of its
first child is kept, which is all the text of an element without children.
-/

namespace JitInspect

namespace Markup

/-- A name within a namespace, or within none. -/
structure QualifiedName where
  space : Option Text := none
  localName : Text
  deriving DecidableEq, Repr

/-- An element of a document. -/
inductive Element where
  | mk (name : QualifiedName) (attributes : List (QualifiedName × Text)) (text : Text)
      (children : List Element)

namespace Element

/-- The name of the element. -/
def name : Element → QualifiedName
  | mk n _ _ _ => n

/-- The attributes of the element. -/
def attributes : Element → List (QualifiedName × Text)
  | mk _ as _ _ => as

/-- The text in front of the first child. -/
def text : Element → Text
  | mk _ _ t _ => t

/-- The elements directly in the element, in document order. -/
def children : Element → List Element
  | mk _ _ _ es => es

/-- The value of an attribute without a namespace. -/
def attribute? (e : Element) (localName : Text) : Option Text :=
  e.attributes.lookup { localName }

mutual

/-- The element and all elements in it, in document order. -/
def all : Element → List Element
  | mk n as t es => mk n as t es :: allOf es

/-- The elements of a list and all elements in them, in document order. -/
def allOf : List Element → List Element
  | [] => []
  | e :: es => all e ++ allOf es

end

end Element

end Markup

end JitInspect
