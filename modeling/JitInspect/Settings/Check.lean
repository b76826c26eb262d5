import JitInspect.Text.Basic

/-!
# Checking supplied values

Options and project descriptions are supplied as loose values: records of named values as a file or
a caller gives them. Reading them checks every field and reports all faults at once, each with the
place of the value, in the order of the fields.
-/

namespace JitInspect

/-- A value as it is supplied. -/
inductive RawValue where
  | null
  | flag (b : Bool)
  | whole (n : Int)
  | fraction
  | text (t : Text)
  | list (items : List RawValue)
  | record (fields : List (Text × RawValue))
  deriving Inhabited

/-- A step on the way to a value: the name of a field or the place in a list. -/
inductive Step where
  | field (name : Text)
  | index (n : Nat)
  deriving DecidableEq, Repr

/-- The step as it is written. -/
def Step.text : Step → Text
  | field n => n
  | index n => Text.ofNat n

/-- What is wrong with a value. -/
inductive ValueFault where
  | missing
  | notText
  | notFlag
  | unknownFlag
  | notCompiler
  | notMap
  | notList
  | notRecord
  | rejected (reason : Text)
  deriving DecidableEq, Repr

namespace ValueFault

/-- The short name of the fault. -/
def code : ValueFault → Text
  | missing => "missing"
  | notText => "string_type"
  | notFlag => "bool_type"
  | unknownFlag => "bool_parsing"
  | notCompiler => "enum"
  | notMap => "dict_type"
  | notList => "list_type"
  | notRecord => "model_type"
  | rejected _ => "value_error"

/-- What is said of the fault. -/
def message : ValueFault → Text
  | missing => "Field required"
  | notText => "Input should be a valid string"
  | notFlag => "Input should be a valid boolean"
  | unknownFlag => "Input should be a valid boolean, unable to interpret input"
  | notCompiler => "Input should be 'jit', 'crossgen2' or 'nativeaot'"
  | notMap => "Input should be a valid dictionary"
  | notList => "Input should be a valid list"
  | notRecord => "Input should be a valid dictionary or instance of ProjectConfiguration"
  | rejected r => "Value error, " ++ r

end ValueFault

/-- A fault and the place of the value that has it. -/
structure FieldFault where
  place : List Step
  fault : ValueFault
  deriving DecidableEq, Repr

/-- The two lines of a report that tell of one fault. -/
def FieldFault.lines (f : FieldFault) : Text :=
  "\n" ++ Text.join "." (f.place.map Step.text) ++ "\n  " ++ f.fault.message

/-- The report of all faults of a record with the given name. -/
def faultReport (record : Text) (fs : List FieldFault) : Text :=
  let words : Text := if fs.length = 1 then " validation error for " else " validation errors for "
  Text.ofNat fs.length ++ words ++ record ++ fs.flatMap FieldFault.lines

/-- A value that was read, or the faults that were found. -/
inductive Checked (α : Type) where
  | ok (value : α)
  | faults (fs : List FieldFault)

namespace Checked

/-- Reads two values and collects the faults of both. -/
def both {α β γ : Type} (f : α → β → γ) : Checked α → Checked β → Checked γ
  | ok a, ok b => ok (f a b)
  | ok _, faults fs => faults fs
  | faults fs, ok _ => faults fs
  | faults fs, faults gs => faults (fs ++ gs)

instance : Applicative Checked where
  pure := ok
  seq f a := both (fun g x => g x) f (a ())

/-- Reads all values and collects the faults of all. -/
def all {α : Type} : List (Checked α) → Checked (List α)
  | [] => ok []
  | c :: cs => both List.cons c (all cs)

/-- One fault at a place. -/
def fault {α : Type} (place : List Step) (f : ValueFault) : Checked α := faults [⟨place, f⟩]

/-- The value or the faults. -/
def toExcept {α : Type} : Checked α → Except (List FieldFault) α
  | ok a => .ok a
  | faults fs => .error fs

/-- Goes on with the value when there is one. -/
def andThen {α β : Type} (c : Checked α) (f : α → Checked β) : Checked β :=
  match c with
  | ok a => f a
  | faults fs => faults fs

end Checked

namespace RawValue

/-- The fields of a record. -/
def fields : RawValue → List (Text × RawValue)
  | record fs => fs
  | _ => []

/-- Reads a text. -/
def readText (place : List Step) : RawValue → Checked Text
  | text t => .ok t
  | _ => .fault place .notText

/-- Reads a text that may be null. -/
def readOptionalText (place : List Step) : RawValue → Checked (Option Text)
  | null => .ok none
  | v => some <$> v.readText place

/-- The words for a flag, in any ASCII case. -/
def flagOfWord (t : Text) : Option Bool :=
  let word := t.map Char.toLower
  if ["0", "off", "f", "false", "n", "no"].any fun w => w.toList = word then some false
  else if ["1", "on", "t", "true", "y", "yes"].any fun w => w.toList = word then some true
  else none

/-- Whether a number fits into 64 bits with a sign. -/
def fitsWord (n : Int) : Bool := Int64.minValue.toInt ≤ n && n ≤ Int64.maxValue.toInt

/-- Reads a flag, which a word or the number zero or one may stand for. A number of more than 64
bits is not taken for a way to write a flag at all. -/
def readFlag (place : List Step) : RawValue → Checked Bool
  | flag b => .ok b
  | whole 0 => .ok false
  | whole 1 => .ok true
  | whole n => .fault place (if fitsWord n then .unknownFlag else .notFlag)
  | text t =>
    match flagOfWord t with
    | some b => .ok b
    | none => .fault place .unknownFlag
  | _ => .fault place .notFlag

/-- Sets a key's value: a new key comes last, a known one keeps its place. -/
def setKey {α : Type} (k : Text) (v : α) : List (Text × α) → List (Text × α)
  | [] => [(k, v)]
  | (k', v') :: rest => if k' = k then (k, v) :: rest else (k', v') :: setKey k v rest

/-- The map that pairs stand for: a key that comes again takes the later value in its first place.
-/
def mapOfPairs {α : Type} (ps : List (Text × α)) : List (Text × α) :=
  ps.foldl (fun m p => setKey p.1 p.2 m) []

/-- Reads a map of texts. -/
def readMap (place : List Step) : RawValue → Checked (List (Text × Text))
  | record fs => Checked.all (fs.map fun (k, v) =>
      (fun t => (k, t)) <$> v.readText (place ++ [.field k]))
  | _ => .fault place .notMap

/-- Reads the field of the given name with the given reader, or takes the default when the record
has no such field. -/
def readField {α : Type} (v : RawValue) (place : List Step) (name : String) (default : α)
    (read : List Step → RawValue → Checked α) : Checked α :=
  match v.fields.lookup name.toList with
  | some x => read (place ++ [.field name]) x
  | none => .ok default

/-- Reads a field that must be there. -/
def readRequired {α : Type} (v : RawValue) (place : List Step) (name : String)
    (read : List Step → RawValue → Checked α) : Checked α :=
  match v.fields.lookup name.toList with
  | some x => read (place ++ [.field name]) x
  | none => .fault (place ++ [.field name]) .missing

end RawValue

end JitInspect
