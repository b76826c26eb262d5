import JitInspect.Proofs.Listing.Division
import JitInspect.Proofs.Text.Pattern

/-!
# Methods and the markers that name them

Records are made from blocks, and a block has a line. So a method has a record when a marker with its
name has a line right below it, and the records stand in the order of these markers
(`Listing.headingNames`). The size of each is read from a comment of its method.

A marker that has nothing below it (`Listing.IsLone`) leaves no trace, neither a record nor a fault.
Without such markers the records have the names on all markers (`methods_name_headings`); a listing
that is cut off behind one of them is condensed without the method that it names
(`methods_lose_lone`).
-/

namespace JitInspect

namespace Listing

variable {source : Source} {method name l next raw : Text} {ls below : List Text}
  {ns₁ ns₂ ns₃ : List Text} {rs : List MethodRecord}

/-! ### Names on markers -/

section Names

/-- The names on the markers among the lines, in order. -/
def markerNames (ls : List Text) : List Text := ls.filterMap (Text.after? methodMarker)

/-- The names on the markers that have a line right below that is no marker, in order. -/
def headingNames (ls : List Text) : List Text :=
  (ls.zip ls.tail).filterMap fun (l, below) =>
    if Text.startsWith below methodMarker then none else Text.after? methodMarker l

/-- Whether a marker with the name has nothing below it: a marker comes next, or no line. -/
def IsLone (ls : List Text) (name : Text) : Prop :=
  ∃ below, (methodMarker ++ name) :: below <:+ ls ∧
    ∀ l ∈ below.head?, Text.startsWith l methodMarker = true

/-- The first of two lines is a heading when it is a marker and the second one is none. -/
theorem headingNames_cons_cons (l next : Text) (ls : List Text) :
    headingNames (l :: next :: ls) =
      (if Text.startsWith next methodMarker then none
        else Text.after? methodMarker l).toList ++ headingNames (next :: ls) :=
  Text.filterMap_cons_toList _ _ _

/-- A line in front of a marker has nothing below it. -/
theorem headingNames_of_marker (hnext : Text.startsWith next methodMarker = true) :
    headingNames (l :: next :: ls) = headingNames (next :: ls) := by
  rw [headingNames_cons_cons, if_pos hnext]
  rfl

/-- A line that is no marker names nothing. -/
theorem headingNames_of_not_marker (hl : Text.after? methodMarker l = none) :
    headingNames (l :: ls) = headingNames ls := by
  cases ls with
  | nil => rfl
  | cons next ls =>
    rw [headingNames_cons_cons, hl, ite_self]
    rfl

/-- A marker that has a line of its method right below gives its name. -/
theorem headingNames_of_heading (hl : Text.after? methodMarker l = some name)
    (hnext : Text.after? methodMarker next = none) :
    headingNames (l :: next :: ls) = name :: headingNames ls := by
  have hline : Text.startsWith next methodMarker = false := not_marker_iff.2 hnext
  rw [headingNames_cons_cons, hl, hline, headingNames_of_not_marker hnext]
  rfl

/-- When no marker that names a method is lone, all names are given. -/
theorem filter_headingNames (h : ∀ name, IsLone ls name → name = []) :
    (headingNames ls).filter (· ≠ []) = (markerNames ls).filter (· ≠ []) := by
  induction ls with
  | nil => rfl
  | cons l ls ih =>
    have hrest : (headingNames ls).filter (· ≠ []) = (markerNames ls).filter (· ≠ []) := by
      refine ih fun name hlone => h name ?_
      obtain ⟨below, hls, hbelow⟩ := hlone
      exact ⟨below, hls.trans (List.suffix_cons l ls), hbelow⟩
    unfold markerNames at hrest ⊢
    cases hl : Text.after? methodMarker l with
    | none => rw [headingNames_of_not_marker hl, hrest, List.filterMap_cons_none hl]
    | some name =>
      have hmarker : l = methodMarker ++ name := Text.eq_append_of_after? hl
      -- a marker with nothing below it names no method
      have hlone : (∀ x ∈ ls.head?, Text.startsWith x methodMarker = true) → name = [] :=
        fun hbelow => h name ⟨ls, hmarker ▸ List.suffix_rfl, hbelow⟩
      rw [List.filterMap_cons_some hl]
      cases ls with
      | nil =>
        rw [hlone fun x hx => absurd hx (Option.not_mem_none x)]
        rfl
      | cons next ls =>
        cases hnext : Text.after? methodMarker next with
        | none =>
          rw [headingNames_of_heading hl hnext, List.filter_cons, List.filter_cons, ← hrest,
            headingNames_of_not_marker hnext]
        | some other =>
          have hmarked : Text.startsWith next methodMarker = true := startsWith_of_marker hnext
          have hempty : name = [] := by
            refine hlone fun x hx => ?_
            rw [← Option.some.inj hx]
            exact hmarked
          rw [headingNames_of_marker hmarked, hrest, hempty, List.filter_cons_of_neg (by simp)]

end Names

/-! ### The methods of which a line is told -/

section Told

/-- The names of the methods of the lines that become entries, line by line. -/
def entryNames (method : Text) (ls : List Text) : List Text :=
  ((own method ls).filter OwnedLine.isEntry).map OwnedLine.method

/-- A marker names the method of the lines below it. -/
theorem entryNames_of_marker (hl : Text.after? methodMarker l = some name) :
    entryNames method (l :: ls) = entryNames name ls := by
  have hmarker : OwnedLine.isEntry ⟨method, l⟩ = false := by
    simp [OwnedLine.isEntry, Text.startsWith, hl]
  rw [entryNames, own, nearest_of_marker hl, List.filter_cons_of_neg (by rw [hmarker]; decide)]
  rfl

/-- Another line belongs to the method, if there is one. -/
theorem entryNames_of_not_marker (hl : Text.after? methodMarker l = none) :
    entryNames method (l :: ls) = [method].filter (· ≠ []) ++ entryNames method ls := by
  have hline : OwnedLine.isEntry ⟨method, l⟩ = decide (method ≠ []) := by
    cases method <;> simp [OwnedLine.isEntry, Text.startsWith, hl]
  rw [entryNames, own, nearest_of_not_marker hl, List.filter_cons, hline, List.filter_cons]
  split <;> rfl

/-- What stands behind names may be changed as long as the same names come first in it. -/
theorem distinct_append_congr (h : distinct ns₂ = distinct ns₃) (ns₁ : List Text) :
    distinct (ns₁ ++ ns₂) = distinct (ns₁ ++ ns₃) := by
  rw [distinct_append, h, ← distinct_append]

/-- A name that stands twice in a row may stand once, if it counts at all. -/
theorem distinct_filter_append (n : Text) (ns : List Text) :
    distinct ([n].filter (· ≠ []) ++ ([n].filter (· ≠ []) ++ ns)) =
      distinct ([n].filter (· ≠ []) ++ ns) := by
  by_cases hn : n = []
  · subst hn
    rfl
  · rw [List.filter_cons_of_pos (by simpa using hn)]
    exact distinct_cons_cons n ns

/-- The methods of which a line is told are those that a marker with a line right below names. Below a
marker its name is still to come; below another line it has come already. -/
theorem distinct_entryNames_below (ls : List Text) :
    (∀ l name, Text.after? methodMarker l = some name →
        distinct (entryNames name ls) = distinct ((headingNames (l :: ls)).filter (· ≠ []))) ∧
      ∀ method, distinct ([method].filter (· ≠ []) ++ entryNames method ls) =
        distinct ([method].filter (· ≠ []) ++ (headingNames ls).filter (· ≠ [])) := by
  induction ls with
  | nil => exact ⟨fun _ _ _ => rfl, fun _ => rfl⟩
  | cons next ls ih =>
    obtain ⟨ihmarker, ihline⟩ := ih
    cases hnext : Text.after? methodMarker next with
    | some other =>
      have hmarked : Text.startsWith next methodMarker = true := startsWith_of_marker hnext
      have hbelow := ihmarker next other hnext
      constructor
      · intro l name _
        rw [entryNames_of_marker hnext, headingNames_of_marker hmarked]
        exact hbelow
      · intro method
        rw [entryNames_of_marker hnext]
        exact distinct_append_congr hbelow _
    | none =>
      constructor
      · intro l name hl
        have hheading : (name :: headingNames ls).filter (· ≠ []) =
            [name].filter (· ≠ []) ++ (headingNames ls).filter (· ≠ []) :=
          List.filter_append [name] (headingNames ls)
        rw [entryNames_of_not_marker hnext, headingNames_of_heading hl hnext, hheading]
        exact ihline name
      · intro method
        rw [entryNames_of_not_marker hnext, headingNames_of_not_marker hnext,
          distinct_filter_append]
        exact ihline method

/-- The names of the blocks of a listing are those on the markers with a line right below. -/
theorem distinct_names_headings {es : List Entry} (h : Scans source [] none ls es) :
    distinct ((groupEntries es).map Block.method) =
      distinct ((headingNames ls).filter (· ≠ [])) := by
  obtain ⟨-, hline⟩ := distinct_entryNames_below ls
  have hnone := hline []
  rw [distinct_names_own h]
  exact hnone

end Told

/-! ### The size in a comment -/

section Sizes

/-- A size ends with its line. -/
theorem takeWhile_append_lineFeed (p : Char → Bool) (hp : p '\n' = false) (a b : Text) :
    (a ++ '\n' :: b).takeWhile p = a.takeWhile p := by
  have hstop : ('\n' :: b).takeWhile p = [] :=
    List.takeWhile_cons_of_neg (by rw [hp]; exact Bool.false_ne_true)
  rw [List.takeWhile_append, hstop]
  split
  · next hall => rw [List.append_nil, (List.takeWhile_prefix p).eq_of_length hall]
  · rfl

/-- A line has its size in itself, or the size is to be read from the lines below. -/
theorem readSize_append_lineFeed (a b : Text) :
    readSize (a ++ '\n' :: b) =
      if Text.has sizeMarker a then readSize a else readSize b := by
  have hfeed : '\n' ∉ sizeMarker := by decide
  have hmeet := Text.splitFirst_append_cons hfeed (by decide) a b
  unfold readSize Text.has
  rw [hmeet]
  cases Text.splitFirst sizeMarker a with
  | some parts =>
    simp only [Option.isSome_some, if_true]
    rw [takeWhile_append_lineFeed _ rfl]
  | none =>
    simp only [Option.isSome_none, Bool.false_eq_true, if_false]
    cases Text.splitFirst sizeMarker b <;> rfl

/-- The size of a comment is read from its first line that has the words in front of a size. -/
theorem readSize_text (b : Block) :
    readSize b.text =
      match b.lines.find? (Text.has sizeMarker) with
      | some l => readSize l
      | none => .error .noSize := by
  have hempty : Text.has sizeMarker [] = false := rfl
  have hstart : readSize b.text = readSize (Text.unlines b.lines) := by
    have hfirst := readSize_append_lineFeed [] (Text.unlines b.lines)
    rwa [hempty, if_neg Bool.false_ne_true] at hfirst
  rw [hstart]
  generalize b.lines = ls
  induction ls with
  | nil => rfl
  | cons l ls ih =>
    have htext : Text.unlines (l :: ls) = l ++ '\n' :: Text.unlines ls := by simp [Text.unlines]
    rw [htext, readSize_append_lineFeed, ih, List.find?_cons]
    cases Text.has sizeMarker l <;> rfl

/-- So it stands on one of its lines. -/
theorem exists_line_of_readSize {b : Block} {n : Int} (h : readSize b.text = .ok n) :
    ∃ l ∈ b.lines, readSize l = .ok n := by
  rw [readSize_text] at h
  cases hfind : b.lines.find? (Text.has sizeMarker) with
  | none =>
    rw [hfind] at h
    cases h
  | some l =>
    rw [hfind] at h
    exact ⟨l, List.mem_of_find?_eq_some hfind, h⟩

end Sizes

/-! ### The records of a listing -/

section Records

/-- What is related to a list element by element has an element for each of the list. -/
theorem exists_mem_of_forall₂ {α β : Type} {R : α → β → Prop} {xs : List α} {ys : List β} {x : α}
    (h : List.Forall₂ R xs ys) (hx : x ∈ xs) : ∃ y ∈ ys, R x y := by
  induction h with
  | nil => exact absurd hx List.not_mem_nil
  | cons hR _ ih =>
    rcases List.mem_cons.1 hx with rfl | hx
    · exact ⟨_, List.mem_cons_self, hR⟩
    · obtain ⟨y, hy, hxy⟩ := ih hx
      exact ⟨y, List.mem_cons_of_mem _ hy, hxy⟩

/-- Each line of a block has its place among the lines of the listing. -/
theorem exists_place {es : List Entry} {b : Block}
    (h : Scans source [] none (Text.writtenLines raw) es) (hb : b ∈ groupEntries es)
    (hl : l ∈ b.lines) : ∃ p ∈ placedLines raw, p.isGoverned = true ∧ p.owner = b.method ∧
      p.line = l ∧ (b.kind = .comment → p.line.head? = some ';') := by
  obtain ⟨e, he, hmethod, hkind, hline⟩ := exists_entry_of_mem h.isChain hb hl
  have hdescribes : List.Forall₂ Entry.Describes es
      ((placedLines raw).filter PlacedLine.isGoverned) := by
    rw [← placedBelow_nil]
    exact h.describes rfl fun hne => absurd rfl hne
  obtain ⟨p, hp, hdescribed⟩ := exists_mem_of_forall₂ hdescribes he
  obtain ⟨hplace, hgoverned⟩ := List.mem_filter.1 hp
  refine ⟨p, hplace, hgoverned, hdescribed.method.symm.trans hmethod,
    hdescribed.line.symm.trans hline, fun hcomment => hdescribed.kind.1 (hkind.trans hcomment)⟩

/-- The methods of a listing that is read are those that a marker with a line right below names, each
with the size on a comment of its own. They are all that a marker names, in the order of their first
markers, unless a marker has nothing below it. -/
theorem methods_name_headings (h : methods source raw = .ok rs) :
    rs.map MethodRecord.name =
        distinct ((headingNames (Text.writtenLines raw)).filter (· ≠ [])) ∧
      (∀ r ∈ rs, ∃ p ∈ placedLines raw, p.isGoverned = true ∧ p.owner = r.name ∧
        p.line.head? = some ';' ∧ readSize p.line = .ok r.size) ∧
      ((∀ name, IsLone (Text.writtenLines raw) name → name = []) →
        rs.map MethodRecord.name =
          distinct ((markerNames (Text.writtenLines raw)).filter (· ≠ []))) := by
  rw [methods] at h
  cases hbs : scanBlocks source raw with
  | error f =>
    rw [hbs] at h
    cases h
  | ok bs =>
    rw [hbs] at h
    obtain ⟨es, hscan, rfl⟩ := scanBlocks_eq_ok_iff.1 hbs
    obtain ⟨hblocks, hrecords⟩ := names_of_recordsOf h
    have hnames : rs.map MethodRecord.name =
        distinct ((headingNames (Text.writtenLines raw)).filter (· ≠ [])) :=
      hblocks.trans (distinct_names_headings hscan)
    refine ⟨hnames, fun r hr => ?_, fun hlone => ?_⟩
    · obtain ⟨-, -, c, hlast, hsize⟩ := recordOf_eq_ok_iff.1 (hrecords r hr)
      obtain ⟨hmem, hown⟩ := List.mem_filter.1 (List.mem_of_getLast? hlast)
      obtain ⟨hmethod, hkind⟩ := of_decide_eq_true hown
      obtain ⟨l, hl, hread⟩ := exists_line_of_readSize hsize
      obtain ⟨p, hp, hgoverned, howner, rfl, hcomment⟩ := exists_place hscan hmem hl
      exact ⟨p, hp, hgoverned, howner.trans hmethod, hcomment hkind, hread⟩
    · rw [hnames, filter_headingNames hlone]

/-- One method is listed inside another, and a marker in front of them names none. -/
def nestedListing : Text :=
  methodMarker ++ "\n" ++ methodMarker ++ "B\n\n ret\n" ++ methodMarker ++ "A\n" ++ sizeMarker ++
    "7, prolog\n" ++ methodMarker ++ "B\n; B\n" ++ sizeMarker ++ "3\n"

/-- The outer method comes first, though its size comes last. -/
theorem methods_name_headings_nested :
    let rs : List MethodRecord := [⟨"B", [⟨"B", .code, [" ret"]⟩], 3⟩, ⟨"A", [], 7⟩]
    let ls := Text.writtenLines nestedListing
    methods .generatorOnly nestedListing = .ok rs ∧ (∀ name, IsLone ls name → name = []) ∧
      rs.map MethodRecord.name = distinct ((markerNames ls).filter (· ≠ [])) ∧
      markerNames ls = [[], "B", "A", "B"] ∧
      ∃ p ∈ placedLines nestedListing, p.owner = "A" ∧ readSize p.line = .ok 7 := by
  intro rs ls
  have hmethods : methods .generatorOnly nestedListing = .ok rs := by decide +kernel
  have hbelow : ∀ t ∈ ls.tails, ∀ l ∈ t.head?,
      (∀ next ∈ t.tail.head?, Text.startsWith next methodMarker = true) →
        ∀ name ∈ Text.after? methodMarker l, name = [] := by decide +kernel
  have hlone : ∀ name, IsLone ls name → name = [] := by
    intro name hname
    obtain ⟨below, hsuffix, hnext⟩ := hname
    exact hbelow _ ((List.mem_tails _ _).2 hsuffix) _ rfl hnext _ (Text.after?_append methodMarker name)
  obtain ⟨-, hsizes, hnames⟩ := methods_name_headings hmethods
  obtain ⟨p, hp, -, howner, -, hsize⟩ := hsizes ⟨"A", [], 7⟩ (by decide)
  exact ⟨hmethods, hlone, hnames hlone, by decide +kernel, p, hp, howner, hsize⟩

/-- A listing that is cut off behind the marker of a method. -/
def cutListing : Text :=
  methodMarker ++ "A\n ret\n" ++ sizeMarker ++ "1\n" ++ methodMarker ++ "B\n"

/-- It is condensed without the method, and nothing is said of that. -/
theorem methods_lose_lone :
    markerNames (Text.writtenLines cutListing) = ["A", "B"] ∧
      methods .generatorOnly cutListing = .ok [⟨"A", [⟨"A", .code, [" ret"]⟩], 1⟩] ∧
      condense true .generatorOnly cutListing =
        ("; Method A\n ret\n; Total bytes of code: 1\n\n".toList, []) := by
  decide +kernel

end Records

end Listing

end JitInspect
