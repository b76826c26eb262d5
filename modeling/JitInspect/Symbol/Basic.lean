import JitInspect.Text.Blank

/-!
# Symbols

A symbol is a member of a type, or a type, whose code is asked for. Its type is given by the names
of the types that contain it, outermost first, and the namespace of the outermost one.
-/

namespace JitInspect

/-- What a symbol is. -/
inductive SymbolKind where
  | method
  | constructor
  | localFunction
  | property
  | type
  deriving DecidableEq, Repr

namespace SymbolKind

/-- The word for the kind. -/
def name : SymbolKind → Text
  | method => "method"
  | constructor => "ctor"
  | localFunction => "local"
  | property => "property"
  | type => "type"

/-- All kinds, in the order in which they are offered. -/
def all : List SymbolKind := [method, constructor, localFunction, property, type]

/-- The kind with the given word. -/
def ofName? (t : Text) : Option SymbolKind := all.find? fun k => k.name = t

end SymbolKind

/-- A symbol as it was found in a program. -/
structure Symbol where
  kind : SymbolKind
  typePath : List Text
  namespaceName : Text := []
  name : Text := []
  genericType : Bool := false
  genericMethod : Bool := false
  deriving DecidableEq, Repr

namespace Symbol

/-- Whether the symbol's type lies in another type. -/
def isNested (s : Symbol) : Bool := 1 < s.typePath.length

/-- The symbol's type for a reader: namespace and types with dots between them. -/
def displayTypeName (s : Symbol) : Text :=
  Text.join "." ((if s.namespaceName.isEmpty then [] else [s.namespaceName]) ++ s.typePath)

end Symbol

/-! ### Type names -/

/-- A type's name, taken apart: its namespace and its types, outermost first. -/
structure TypeName where
  namespaceName : Text
  path : List Text
  deriving DecidableEq, Repr

namespace TypeName

/-- Why a text names no type. -/
inductive Fault where
  | empty
  | malformed (name : Text)
  deriving DecidableEq, Repr

/-- What is said of the fault. -/
def Fault.message : Fault → Text
  | empty => "Type name is empty"
  | malformed n => "Malformed type name: " ++ n

/-- The name as it is written: a dot behind the namespace, and plus signs between the types. -/
def format (n : TypeName) : Text :=
  (if n.namespaceName.isEmpty then [] else n.namespaceName ++ ['.']) ++ Text.join "+" n.path

/-- Cuts the namespace off the outermost type, at the last dot. -/
def cutNamespace (outer : Text) : Text × Text := (Text.splitLast "." outer).getD ([], outer)

/-- Reads a type name. -/
def parse (written : Text) : Except Fault TypeName :=
  let name := Text.strip written
  if name.isEmpty then .error .empty
  else
    match Text.splitOn "+" name with
    | [] => .error (.malformed name)
    | outer :: nested =>
      let (ns, outermost) := cutNamespace outer
      let path := outermost :: nested
      if path.any List.isEmpty then .error (.malformed name) else .ok ⟨ns, path⟩

end TypeName

end JitInspect
