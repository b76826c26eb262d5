import JitInspect.Text.Utf8

/-!
# The file tree

A file tree gives for each location a file, a directory or a link. A location is the list of names
that lead to it from the root, none of which is a link; the root itself is a directory. The laws say
that what is put at a location is found there and that nothing changes elsewhere.
-/

namespace JitInspect

/-- The names that lead from the root to a place in the tree. -/
abbrev Location := List Text

/-- What is at a location. -/
inductive Entry where
  | file (content : Bytes)
  | directory
  | link (target : Text)
  deriving DecidableEq, Repr

/-- The names in a directory, one beside the other, each with what is there and the names below. -/
inductive FileTree where
  | empty
  | node (name : Text) (entry : Option Entry) (below beside : FileTree)
  deriving DecidableEq

namespace FileTree

/-! ### What is where -/

section Finding

/-- What is at the end of the names, of which there is at least one. -/
def find : FileTree → Location → Option Entry
  | empty, _ => none
  | node .., [] => none
  | node m e below beside, n :: ns =>
    if m = n then
      if ns.isEmpty then e else find below ns
    else find beside (n :: ns)

/-- What is at the location. -/
def get? (t : FileTree) (loc : Location) : Option Entry :=
  if loc.isEmpty then some .directory else t.find loc

/-- The names below the location. -/
def inside : FileTree → Location → FileTree
  | t, [] => t
  | empty, _ :: _ => empty
  | node m _ below beside, n :: ns => if m = n then inside below ns else inside beside (n :: ns)

/-- The names that stand beside one another at the top and lead to something. -/
def topNames : FileTree → List Text
  | empty => []
  | node m e _ beside => if e.isSome then m :: topNames beside else topNames beside

/-- Inserts a name into an ascending list of names. -/
def insertName (n : Text) : List Text → List Text
  | [] => [n]
  | m :: ms => if n < m then n :: m :: ms else m :: insertName n ms

/-- The names in a directory, in ascending order. -/
def names (t : FileTree) (dir : Location) : List Text := (t.inside dir).topNames.foldr insertName []

/-- All that is in the tree, each with its location behind the given one. -/
def entriesFrom : FileTree → Location → List (Location × Entry)
  | empty, _ => []
  | node m e below beside, loc =>
    e.toList.map (fun e => (loc ++ [m], e)) ++ entriesFrom below (loc ++ [m]) ++
      entriesFrom beside loc

/-- The number of names in the tree. -/
def size : FileTree → Nat
  | empty => 0
  | node _ _ below beside => below.size + beside.size + 1

theorem find_append (t : FileTree) (loc : Location) {rest : Location} (h : rest ≠ []) :
    t.find (loc ++ rest) = (t.inside loc).find rest := by
  have hne : ∀ ns : Location, (ns ++ rest).isEmpty = false := by simp [h]
  induction t generalizing loc with
  | empty => cases loc <;> rfl
  | node m e below beside ihBelow ihBeside =>
    cases loc with
    | nil => rfl
    | cons n ns =>
      simp only [List.cons_append, find, inside, hne]
      by_cases hm : m = n
      · simpa [hm] using ihBelow ns
      · simpa [hm] using ihBeside (n :: ns)

/-- What is below a location is what the names below it lead to. -/
theorem get?_append (t : FileTree) (loc : Location) {rest : Location} (h : rest ≠ []) :
    t.get? (loc ++ rest) = (t.inside loc).get? rest := by
  simp [get?, h, find_append t loc h]

end Finding

/-! ### Changes -/

section Changes

/-- The tree with one location. -/
def single (e : Option Entry) : Location → FileTree
  | [] => empty
  | n :: ns => if ns.isEmpty then node n e empty empty else node n none (single e ns) empty

/-- The tree with something or nothing at a location. -/
def set (e : Option Entry) : FileTree → Location → FileTree
  | empty, loc => single e loc
  | node m old below beside, [] => node m old below beside
  | node m old below beside, n :: ns =>
    if m = n then
      if ns.isEmpty then node m e below beside else node m old (set e below ns) beside
    else node m old below (set e beside (n :: ns))

/-- The tree with the entry at the location. -/
def put (t : FileTree) (loc : Location) (e : Entry) : FileTree := t.set (some e) loc

/-- The tree without the location. -/
def erase (t : FileTree) (loc : Location) : FileTree := t.set none loc

/-- The tree without the location and everything below it. -/
def eraseWithin : FileTree → Location → FileTree
  | _, [] => empty
  | empty, _ :: _ => empty
  | node m e below beside, n :: ns =>
    if m = n then
      if ns.isEmpty then eraseWithin beside (n :: ns) else node m e (eraseWithin below ns) beside
    else node m e below (eraseWithin beside (n :: ns))

theorem find_single_self (e : Option Entry) {loc : Location} (h : loc ≠ []) :
    (single e loc).find loc = e := by
  induction loc with
  | nil => exact absurd rfl h
  | cons n ns ih => cases ns <;> simp_all [single, find]

theorem find_single_of_ne (e : Option Entry) {loc other : Location} (h : other ≠ loc) :
    (single e loc).find other = none := by
  induction loc generalizing other with
  | nil => simp [single, find]
  | cons n ns ih => cases other <;> cases ns <;> grind [single, find]

theorem find_set_self (e : Option Entry) (t : FileTree) {loc : Location} (h : loc ≠ []) :
    (t.set e loc).find loc = e := by
  induction t generalizing loc with
  | empty => exact find_single_self e h
  | node m old below beside ihBelow ihBeside => cases loc <;> grind [set, find]

theorem find_set_of_ne (e : Option Entry) (t : FileTree) {loc other : Location} (h : other ≠ loc) :
    (t.set e loc).find other = t.find other := by
  induction t generalizing loc other with
  | empty => simpa [set, find] using find_single_of_ne e h
  | node m old below beside ihBelow ihBeside => cases loc <;> cases other <;> grind [set, find]

@[simp] theorem get?_root (t : FileTree) : t.get? [] = some .directory := rfl

theorem get?_put_self (t : FileTree) {loc : Location} (h : loc ≠ []) (e : Entry) :
    (t.put loc e).get? loc = some e := by
  simp [get?, put, h, find_set_self]

theorem get?_put_of_ne (t : FileTree) {loc other : Location} (h : other ≠ loc) (e : Entry) :
    (t.put loc e).get? other = t.get? other := by
  simp [get?, put, find_set_of_ne _ t h]

theorem get?_erase_self (t : FileTree) {loc : Location} (h : loc ≠ []) :
    (t.erase loc).get? loc = none := by
  simp [get?, erase, h, find_set_self]

theorem get?_erase_of_ne (t : FileTree) {loc other : Location} (h : other ≠ loc) :
    (t.erase loc).get? other = t.get? other := by
  simp [get?, erase, find_set_of_ne _ t h]

@[simp] theorem find_nil (t : FileTree) : t.find [] = none := by
  cases t <;> rfl

theorem find_eraseWithin_of_prefix (t : FileTree) {loc other : Location} (hroot : loc ≠ [])
    (h : loc <+: other) : (t.eraseWithin loc).find other = none := by
  induction t generalizing loc other with
  | empty => cases loc <;> simp_all [eraseWithin, find]
  | node m e below beside ihBelow ihBeside =>
    cases loc with
    | nil => exact absurd rfl hroot
    | cons n ns => cases other <;> cases ns <;> grind [eraseWithin, find]

theorem find_eraseWithin_of_not_prefix (t : FileTree) {loc other : Location} (h : ¬ loc <+: other) :
    (t.eraseWithin loc).find other = t.find other := by
  induction t generalizing loc other with
  | empty => cases loc <;> simp_all [eraseWithin, find]
  | node m e below beside ihBelow ihBeside =>
    cases loc with
    | nil => exact absurd List.nil_prefix h
    | cons n ns =>
      cases other with
      | nil => simp
      | cons k ks => cases ns <;> grind [eraseWithin, find]

/-- What is removed with all that is below it is gone, -/
theorem get?_eraseWithin_of_prefix (t : FileTree) {loc other : Location} (hroot : loc ≠ [])
    (h : loc <+: other) : (t.eraseWithin loc).get? other = none := by
  have hother : other ≠ [] := fun hnil => hroot (List.prefix_nil.1 (hnil ▸ h))
  simp [get?, hother, find_eraseWithin_of_prefix t hroot h]

/-- and everything else stays. -/
theorem get?_eraseWithin_of_not_prefix (t : FileTree) {loc other : Location}
    (h : ¬ loc <+: other) : (t.eraseWithin loc).get? other = t.get? other := by
  simp [get?, find_eraseWithin_of_not_prefix t h]

end Changes

end FileTree

end JitInspect
