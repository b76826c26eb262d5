import JitInspect.Symbol.Basic

/-!
# Method selectors

The code generator selects methods by patterns of a type and a member with a colon between them, in
which a star stands for any characters. Nested types can only be matched by their innermost name
behind a star, generic types only with a star behind the name, and local functions only by a part of
their mangled name.
-/

namespace JitInspect

/-- What the toolchain needs to know to select a symbol's methods: the patterns, the type for the
loader, the loader's filter for members, and the member parts of the patterns. -/
structure SymbolInfo where
  target : Text
  className : Text
  methodName : Text
  memberSelectors : List Text := []
  deriving DecidableEq, Repr

/-- Why a symbol cannot be selected. -/
inductive SelectorFault where
  | noType
  | noName (kind : SymbolKind)
  deriving DecidableEq, Repr

/-- What is said of the fault. -/
def SelectorFault.message : SelectorFault → Text
  | noType => "Symbol has no containing type"
  | noName k => k.name ++ " symbol has no name"

namespace Symbol

/-- The filter that lets every member pass. -/
def everyMember : Text := "*"

/-- The type part of the symbol's patterns. -/
def typePattern (s : Symbol) : Except SelectorFault Text :=
  match s.typePath.getLast? with
  | none => .error .noType
  | some innermost =>
    let base :=
      if s.isNested then "*" ++ innermost
      else if s.namespaceName.isEmpty then innermost
      else s.namespaceName ++ "." ++ innermost
    .ok (if s.genericType then base ++ "*" else base)

/-- The member parts of the patterns for a symbol of the given kind and name. -/
def memberPatterns (kind : SymbolKind) (name : Text) : List Text :=
  match kind with
  | .type => ["*"]
  | .localFunction => ["*" ++ name ++ "*"]
  | .constructor => [".ctor"]
  | .property => ["get_" ++ name, "set_" ++ name]
  | .method => [name]

/-- The loader's filter for a symbol of the given kind and name. -/
def loaderFilter (kind : SymbolKind) (name : Text) : Text :=
  match kind with
  | .method | .property => name
  | .type | .localFunction | .constructor => everyMember

/-- The patterns of a type with the given member parts. -/
def selectorOf (typePattern : Text) (members : List Text) : Text :=
  Text.join " " (members.map fun m => typePattern ++ ":" ++ m)

/-- What is needed to select the symbol. -/
def info (s : Symbol) : Except SelectorFault SymbolInfo :=
  match s.typePattern with
  | .error f => .error f
  | .ok pattern =>
    if s.kind ≠ .type && s.name.isEmpty then .error (.noName s.kind)
    else
      let members := memberPatterns s.kind s.name
      .ok ⟨selectorOf pattern members, s.displayTypeName, loaderFilter s.kind s.name, members⟩

end Symbol

end JitInspect
