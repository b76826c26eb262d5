import JitInspect.FileTree.Disk

/-!
# Name patterns

In a pattern a star stands for any characters, a question mark for one, and brackets for one of the
characters in them, or for one that is not when they begin with an exclamation mark. Patterns match
whole names. In a path of patterns two stars stand for any folders, one in another. Where access is
denied, nothing is found.
-/

namespace JitInspect

/-- An element of a pattern. -/
inductive GlobItem where
  | any
  | one
  | set (negated : Bool) (ranges : List (Char × Char))
  | literal (c : Char)
  deriving DecidableEq, Repr

namespace GlobItem

/-- The ranges of a bracket's content. -/
def rangesOf : Text → List (Char × Char)
  | lo :: '-' :: hi :: cs => (lo, hi) :: rangesOf cs
  | c :: cs => (c, c) :: rangesOf cs
  | [] => []

/-- The content of a bracket and what follows it. A closing bracket at the beginning is content. -/
def bracket? (t : Text) : Option (Bool × Text × Text) :=
  let (negated, body) := match t with
    | '!' :: cs => (true, cs)
    | cs => (false, cs)
  match body with
  | [] => none
  | c :: cs => (Text.splitFirst "]" cs).map fun (content, rest) => (negated, c :: content, rest)

/-- The elements of a pattern. The number bounds how many. -/
def parseWithin : Nat → Text → List GlobItem
  | 0, _ => []
  | _ + 1, [] => []
  | n + 1, '*' :: cs => .any :: parseWithin n cs
  | n + 1, '?' :: cs => .one :: parseWithin n cs
  | n + 1, '[' :: cs =>
    match bracket? cs with
    | some (negated, content, rest) => .set negated (rangesOf content) :: parseWithin n rest
    | none => .literal '[' :: parseWithin n cs
  | n + 1, c :: cs => .literal c :: parseWithin n cs

/-- The elements of a pattern. -/
def parse (pattern : Text) : List GlobItem := parseWithin pattern.length pattern

/-- Whether an element for one character stands for the character. -/
def accepts (c : Char) : GlobItem → Bool
  | any => true
  | one => true
  | set negated ranges => negated != ranges.any fun (lo, hi) => lo ≤ c && c ≤ hi
  | literal l => l = c

/-- For each end of a list of answers, whether one of them is yes. -/
def someOfEnd (answers : List Bool) : List Bool :=
  answers.foldr (fun answer ends => (answer || ends.head?.getD false) :: ends) []

/-- For each end of the text, the whole and the empty one included, whether the elements match it.
-/
def matchesOfEnds (t : Text) : List GlobItem → List Bool
  | [] => t.map (fun _ => false) ++ [true]
  | .any :: is => someOfEnd (matchesOfEnds t is)
  | i :: is => List.zipWith (fun c behind => i.accepts c && behind) t (matchesOfEnds t is).tail ++
      [false]

/-- Whether the elements match the whole text. -/
def run (is : List GlobItem) (t : Text) : Bool := (matchesOfEnds t is).head?.getD false

/-- Whether the pattern matches the name. -/
def fits (pattern name : Text) : Bool := run (parse pattern) name

/-- Whether the pattern stands for more than itself. -/
def isPattern (t : Text) : Bool := t.any fun c => c = '*' || c = '?' || c = '['

end GlobItem

namespace Disk

/-- The name of a pattern that stands for any folders, one in another. -/
def anyFolders : Text := "**"

/-- A folder and the folders below it. Links are not followed. The number bounds how deep they
are. -/
def foldersFrom (d : Disk) : Nat → Path → List Path
  | 0, dir => [dir]
  | depth + 1, dir =>
    let names := (d.names dir.text).toOption.getD []
    let inner := names.map fun n => Path.mk dir.anchor (dir.parts ++ [n])
    dir :: (inner.filter fun p => (d.look p.text false).toOption = some .directory).flatMap
      (foldersFrom d depth)

/-- What was found, or nothing where access was denied. -/
def orNothing {α : Type} (found : Except FileFault (List α)) : Except FileFault (List α) :=
  match found with
  | .error f => if f.isDenied then .ok [] else .error f
  | .ok xs => .ok xs

/-- What is found for each of the elements, one behind the other. Access that is denied ends the search,
and what was found before stays. -/
def gather {α β : Type} (f : α → Except FileFault (List β)) : List α → Except FileFault (List β)
  | [] => .ok []
  | x :: xs => orNothing do
    let found ← f x
    let rest ← gather f xs
    pure (found ++ rest)

/-- The paths below a folder whose names match, one after the other, the patterns. Before another
pattern stands a folder. -/
def globParts (d : Disk) : Path → List Text → Except FileFault (List Path)
  | dir, [] => .ok [dir]
  | dir, pat :: pats =>
    let question (p : Path) :=
      if pats.isEmpty then d.ask (fun _ => true) p.text else d.isDirectory p.text
    if pat = anyFolders then gather (fun p => globParts d p pats) (foldersFrom d d.tree.size dir)
    else if GlobItem.isPattern pat then do
      let names ← orNothing (d.names dir.text)
      gather (fun n => do
        let p : Path := ⟨dir.anchor, dir.parts ++ [n]⟩
        if (← if pats.isEmpty then pure true else question p) && GlobItem.fits pat n then
          globParts d p pats
        else pure []) names
    else orNothing do
      let p : Path := ⟨dir.anchor, dir.parts ++ [pat]⟩
      if ← question p then globParts d p pats else pure []

/-- The paths below a folder that a pattern matches. -/
def glob (d : Disk) (dir : Path) (pattern : Text) : Except FileFault (List Path) :=
  let pats := Path.namesOf pattern
  if pats.any fun pat => pat ≠ anyFolders && Text.has anyFolders pat then .error .starsInName
  else globParts d dir pats

end Disk

end JitInspect
