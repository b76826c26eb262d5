import JitInspect.CommandLine.Grammar
import JitInspect.Text.Digit

/-!
# Reading command lines

First every argument is marked: it names an option, it looks like an option that the grammar does
not know, or it is plain. An option may be cut short as long as it stays clear which one is meant; a
value may be attached to it; flags of one letter may be written together. Behind a divider, two
dashes, everything is plain; two dashes that are attached to an option are its value, as any other
text is. Then the arguments are read from left to right: an option takes the plain argument behind
it when it needs a value, the operand takes the first plain argument that is left, and what nobody
takes is set aside.
-/

namespace JitInspect

namespace CommandLine

/-- How a value is attached to an option. -/
inductive Attached where
  | nothing
  /-- Behind an equals sign. -/
  | equals (value : Text)
  /-- Directly behind the letter of a short option. -/
  | glued (value : Text)
  deriving DecidableEq, Repr

/-- What an argument is on a command line. -/
inductive Role where
  | plain
  | divider
  /-- It looks like an option, but the grammar has none. -/
  | unknown
  | option (o : OptionSpec) (name : Text) (attached : Attached)
  deriving DecidableEq, Repr

/-! ### Marking -/

section Marking

/-- The argument that makes all arguments behind it plain. -/
def divider : Text := "--"

/-- Whether a name has one dash only. -/
def isShort : Text → Bool
  | '-' :: '-' :: _ => false
  | _ => true

/-- Whether a text is digits, at least one. -/
def isDigits (t : Text) : Bool := !t.isEmpty && t.all Text.isDecimalDigit

/-- Whether a text is a number: digits, with a point before the last of them perhaps. -/
def isNumber (t : Text) : Bool :=
  isDigits t ||
    match Text.splitFirst "." t with
    | some (whole, part) => whole.all Text.isDecimalDigit && isDigits part
    | none => false

/-- Whether an argument is a negative number. A line break behind it does not count. -/
def isNegative : Text → Bool
  | '-' :: t => isNumber t || (t.getLast? = some '\n' && isNumber t.dropLast)
  | _ => false

/-- The options that an argument may stand for, when it is no option's full name. -/
def candidates (g : Grammar) (a : Text) : List (OptionSpec × Text × Attached) :=
  if isShort a then
    g.names.filterMap fun (n, o) =>
      if n = a.take 2 then some (o, n, .glued (a.drop 2))
      else if Text.startsWith n a then some (o, n, .nothing)
      else none
  else
    let (start, attached) : Text × Attached :=
      match Text.splitFirst "=" a with
      | some (n, v) => (n, .equals v)
      | none => (a, .nothing)
    g.names.filterMap fun (n, o) => if Text.startsWith n start then some (o, n, attached) else none

/-- The role of an argument that is no option's full name. -/
def roleOfOther (g : Grammar) (a : Text) : Except UsageFault Role :=
  match candidates g a with
  | [] => .ok (if isNegative a || a.contains ' ' then .plain else .unknown)
  | [(o, n, attached)] => .ok (.option o n attached)
  | cs => .error (.ambiguous a (cs.map fun c => c.2.1))

/-- The role of an argument. A single dash is plain. -/
def roleOf (g : Grammar) (a : Text) : Except UsageFault Role :=
  if a = ['-'] || a.head? ≠ some '-' then .ok .plain
  else
    match g.find? a with
    | some o => .ok (.option o a .nothing)
    | none =>
      match Text.splitFirst "=" a with
      | none => roleOfOther g a
      | some (n, v) =>
        match g.find? n with
        | some o => .ok (.option o n (.equals v))
        | none => roleOfOther g a

/-- Marks the arguments. -/
def mark (g : Grammar) : List Text → Except UsageFault (List (Text × Role))
  | [] => .ok []
  | a :: as =>
    if a = divider then .ok ((a, .divider) :: as.map fun b => (b, .plain))
    else do
      let role ← roleOf g a
      let marked ← mark g as
      pure ((a, role) :: marked)

end Marking

/-! ### Options written together -/

section Clusters

/-- What one argument with options says. -/
structure Cluster where
  /-- The options with their values. A flag has an empty one. -/
  taken : List (OptionSpec × Text) := []
  /-- The option that takes the argument behind. -/
  wanting : Option OptionSpec := none

/-- Adds a flag in front. -/
def Cluster.cons (o : OptionSpec) (c : Cluster) : Cluster :=
  { c with taken := (o, []) :: c.taken }

/-- An option with nothing attached. -/
def Cluster.single (o : OptionSpec) : Cluster :=
  if o.takesValue then { wanting := some o } else { taken := [(o, [])] }

/-- An option of one letter with text glued to it. A flag has other letters glued to it, each of
them another option. -/
def Cluster.ofLetters (g : Grammar) (o : OptionSpec) : Text → Except UsageFault Cluster
  | [] => .ok (single o)
  | c :: rest =>
    if o.takesValue then .ok { taken := [(o, c :: rest)] }
    else
      match g.find? ['-', c] with
      | some next => (ofLetters g next rest).map (cons o)
      | none => .error (.needlessValue o.title (c :: rest))

/-- What an argument says that names an option. The text behind the equals sign of a flag of one
letter is read as letters glued to it. -/
def Cluster.ofOption (g : Grammar) (o : OptionSpec) (name : Text) :
    Attached → Except UsageFault Cluster
  | .nothing => .ok (single o)
  | .glued letters => ofLetters g o letters
  | .equals value =>
    if o.takesValue then .ok { taken := [(o, value)] }
    else if isShort name && !value.isEmpty then ofLetters g o value
    else .error (.needlessValue o.title value)

end Clusters

/-! ### Reading -/

/-- What was read of a command line. -/
structure Reading where
  /-- The options with their values, in the order in which they were given. -/
  given : List (Text × Text) := []
  /-- The operand, and behind the word of a command everything that follows it. -/
  operand : List Text := []
  /-- What nobody took. -/
  aside : List Text := []
  deriving DecidableEq, Repr

namespace Reading

/-- Whether an option was given. -/
def has (r : Reading) (name : Text) : Bool := r.given.any fun x => x.1 = name

/-- The value of an option: the last one that was given. -/
def value? (r : Reading) (name : Text) : Option Text := r.given.reverse.lookup name

/-- All values of an option. -/
def values (r : Reading) (name : Text) : List Text :=
  (r.given.filter fun x => x.1 = name).map Prod.snd

/-- Sets arguments aside. -/
def leave (r : Reading) (arguments : List Text) : Reading :=
  { r with aside := r.aside ++ arguments }

/-- Takes an option with its value. -/
def take (g : Grammar) (r : Reading) (x : OptionSpec × Text) : Except Stop Reading :=
  let after : Reading := { r with given := r.given ++ [(x.1.key, x.2)] }
  match x.1.form with
  | .help => .error (.help g)
  | .version => .error .version
  | .flag => .ok after
  | .value choices =>
    if choices.isEmpty || choices.contains x.2 then .ok after
    else .error (.usage g.program (.notAChoice x.1.title x.2 choices))

/-- Takes a cluster of options; the last of them may have a value behind it. -/
def takeCluster (g : Grammar) (r : Reading) (c : Cluster) (behind : List (OptionSpec × Text)) :
    Except Stop Reading :=
  (c.taken ++ behind).foldlM (take g) r

/-- Reads what stands at and behind a divider. -/
def readBehind (g : Grammar) (r : Reading) (behind : List Text) : Reading :=
  match g.operand, r.operand, behind with
  | .argument _, [], a :: as => ({ r with operand := [a] } : Reading).leave as
  | .command _ _, [], a :: as => { r with operand := divider :: a :: as }
  | _, _, as => r.leave (divider :: as)

/-- Reads marked arguments from left to right. -/
def read (g : Grammar) : Reading → List (Text × Role) → Except Stop Reading
  | r, [] => .ok r
  | r, (_, .divider) :: rest => .ok (r.readBehind g (rest.map Prod.fst))
  | r, (a, .unknown) :: rest => read g (r.leave [a]) rest
  | r, (a, .plain) :: rest =>
    match g.operand, r.operand with
    | .command _ _, [] => .ok { r with operand := a :: rest.map Prod.fst }
    | .argument _, [] =>
      match rest with
      | (_, .divider) :: rest => read g { r with operand := [a] } rest
      | rest => read g { r with operand := [a] } rest
    | _, _ => read g (r.leave [a]) rest
  | r, (_, .option o name attached) :: rest =>
    match Cluster.ofOption g o name attached with
    | .error f => .error (.usage g.program f)
    | .ok c =>
      match c.wanting, rest with
      | none, rest => do
        let r ← takeCluster g r c []
        read g r rest
      | some o, (v, .plain) :: rest => do
        let r ← takeCluster g r c [(o, v)]
        read g r rest
      | some o, _ => .error (.usage g.program (.noValue o.title))

/-- The names of what is required and was not given: the operand, and then options. -/
def missing (g : Grammar) (r : Reading) : List Text :=
  (if r.operand.isEmpty then g.operand.name?.toList else []) ++
    (g.options.filter fun o => o.required && !r.has o.key).map OptionSpec.title

end Reading

/-- Reads a command line. What the grammar does not know is left to the caller. -/
def Grammar.read (g : Grammar) (arguments : List Text) : Except Stop Reading := do
  let marked ← (mark g arguments).mapError (Stop.usage g.program)
  let r ← Reading.read g {} marked
  match r.missing g with
  | [] => pure r
  | names => throw (.usage g.program (.missing names))

end CommandLine

end JitInspect
