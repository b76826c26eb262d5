import JitInspect.Proofs.Listing.Grouping

/-!
# The last comment of a method

The size of a method stands in its last comment. `Listing.IsLastComment` says which lines of a text
these are, without going through its entries and blocks: neighbours among the lines that count, all
of them comments of the method, with no comment in front of them or behind them and no comment of the
method below. The last comment block of the method holds exactly these lines
(`isLastComment_of_getLast?`).
-/

namespace JitInspect

namespace Listing

variable {source : Source} {method name : Text} {previous : Option BlockKind} {kind : BlockKind}
  {l raw : Text} {ls above below : List Text} {e : Entry} {es es₁ es₂ run : List Entry} {b : Block}

/-- The lines of a text that count, each with the method on the nearest marker above it. -/
def told (raw : Text) : List OwnedLine := (ownedLines raw).filter fun o => counts o.line

/-- The lines are the last comment of the method. -/
def IsLastComment (raw name : Text) (block : List Text) : Prop :=
  block ≠ [] ∧ (∀ l ∈ block, IsComment l) ∧
    ∃ above below, told raw = above ++ block.map (OwnedLine.mk name) ++ below ∧
      (∀ o ∈ above.getLast?, ¬ IsComment o.line) ∧ (∀ o ∈ below.head?, ¬ IsComment o.line) ∧
      ∀ o ∈ below, IsComment o.line → o.method ≠ name

/-- They are the counted lines, each owned by the nearest marker above it. -/
theorem told_eq (raw : Text) : told raw = own [] (countedLines raw) := by
  rw [told, ownedLines_eq, filter_own counts (fun _ h => counts_of_marker h)]
  rfl

/-! ### From entries to lines -/

section Lines

/-- With a line in front, the last line is still no comment. -/
theorem not_isComment_getLast?_cons (hl : above = [] → ¬ IsComment l)
    (h : ∀ x ∈ above.getLast?, ¬ IsComment x) : ∀ x ∈ (l :: above).getLast?, ¬ IsComment x := by
  cases above with
  | nil =>
    rintro _ ⟨⟩
    exact hl rfl
  | cons a above =>
    rw [List.getLast?_cons_cons]
    exact h

namespace Scans

/-- A comment that opens a block stands for a line below one that is no comment. -/
theorem exists_line (h : Scans source method previous ls es)
    (hprevious : method = [] → previous = none) (hes : es = es₁ ++ e :: es₂)
    (hopens : e.opens = true) (hkind : e.kind = .comment) :
    ∃ above below, ls = above ++ e.line :: below ∧ nearest method above = e.method ∧
      e.method ≠ [] ∧ IsComment e.line ∧ Scans source e.method (some .comment) below es₂ ∧
      (∀ l ∈ above.getLast?, ¬ IsComment l) ∧ (above = [] → previous ≠ some .comment) := by
  induction h generalizing es₁ with
  | nil =>
    exact absurd hes (List.append_ne_nil_of_right_ne_nil es₁ (List.cons_ne_nil e es₂)).symm
  | @marker method name l _ _ _ hl _ ih =>
    obtain ⟨above, below, rfl, hnearest, hnamed, hcomment, hbelow, hlast, -⟩ := ih (fun _ => rfl) hes
    have hno : ¬ IsComment l := by
      rintro ⟨-, hmarker⟩
      rw [not_marker_iff, hl] at hmarker
      cases hmarker
    refine ⟨l :: above, below, rfl, ?_, hnamed, hcomment, hbelow,
      not_isComment_getLast?_cons (fun _ => hno) hlast, fun hnil => absurd hnil (List.cons_ne_nil _ _)⟩
    rw [nearest_cons, nearest_of_marker hl, hnearest]
  | @passed l _ _ _ hl _ _ ih =>
    obtain ⟨above, below, rfl, hnearest, hnamed, hcomment, hbelow, hlast, -⟩ := ih hprevious hes
    -- no line of a named method stands right behind a line that belongs to none
    have hno : above = [] → ¬ IsComment l := by
      rintro rfl
      exact absurd hnearest.symm hnamed
    refine ⟨l :: above, below, rfl, ?_, hnamed, hcomment, hbelow,
      not_isComment_getLast?_cons hno hlast, fun hnil => absurd hnil (List.cons_ne_nil _ _)⟩
    rw [nearest_cons, nearest_of_not_marker hl, hnearest]
  | @entry method l _ ls _ hl hmethod h ih =>
    cases es₁ with
    | nil =>
      cases hes
      refine ⟨[], ls, rfl, rfl, hmethod, ⟨hkind, not_marker_iff.2 hl⟩, hkind ▸ h,
        fun x hx => absurd hx (Option.not_mem_none x), fun _ hsame => ?_⟩
      have hcomment : kindOf l = .comment := hkind
      simp [opensBlock, hsame, hcomment] at hopens
    | cons first es₁ =>
      obtain ⟨-, hrest⟩ := List.cons.inj hes
      obtain ⟨above, below, rfl, hnearest, hnamed, hcomment, hbelow, hlast, hfirst⟩ :=
        ih (fun hnil => absurd hnil hmethod) hrest
      refine ⟨l :: above, below, rfl, ?_, hnamed, hcomment, hbelow,
        not_isComment_getLast?_cons (fun hnil hc => hfirst hnil (congrArg some hc.1)) hlast,
        fun hnil => absurd hnil (List.cons_ne_nil _ _)⟩
      rw [nearest_cons, nearest_of_not_marker hl, hnearest]

/-- The entries of a run that opens no block stand for the lines that come next. -/
theorem exists_lines (hmethod : method ≠ []) (h : Scans source method (some kind) ls (run ++ es))
    (hrun : ∀ r ∈ run, r.opens = false) :
    ∃ below, ls = run.map Entry.line ++ below ∧ Scans source method (some kind) below es ∧
      ∀ l ∈ run.map Entry.line, kindOf l = kind ∧ Text.startsWith l methodMarker = false := by
  induction run generalizing ls with
  | nil => exact ⟨ls, rfl, h, fun _ hl => absurd hl List.not_mem_nil⟩
  | cons r run ih =>
    obtain ⟨hr, hrun⟩ := List.forall_mem_cons.1 hrun
    have hkindOf : r.kind = kindOf r.line := h.kind_eq r List.mem_cons_self
    obtain ⟨-, hkind, hmarker, ls, rfl, hrest⟩ := h.continues_of_first hmethod hr
    obtain ⟨below, rfl, hbelow, hlines⟩ := ih hrest hrun
    exact ⟨below, rfl, hbelow,
      List.forall_mem_cons.2 ⟨⟨hkindOf.symm.trans hkind, hmarker⟩, hlines⟩⟩

/-- The line in front of which a comment ends is no comment. -/
theorem not_isComment_head? (hmethod : method ≠ [])
    (h : Scans source method (some .comment) ls es) (hopens : ∀ e ∈ es.head?, e.opens = true) :
    ∀ l ∈ ls.head?, ¬ IsComment l := by
  cases h with
  | nil => exact fun l hl => absurd hl (Option.not_mem_none l)
  | marker hl _ =>
    rintro _ ⟨⟩ ⟨-, hmarker⟩
    rw [not_marker_iff, hl] at hmarker
    cases hmarker
  | passed => exact absurd rfl hmethod
  | entry _ _ _ =>
    rintro _ ⟨⟩ ⟨hkind, -⟩
    have hopen := hopens _ rfl
    simp [opensBlock, hkind] at hopen

end Scans

end Lines

/-! ### The last comment block -/

section Last

/-- Where the last of the elements with a property stands. -/
theorem exists_append_of_getLast?_filter {α : Type} {p : α → Bool} {xs : List α} {x : α}
    (h : (xs.filter p).getLast? = some x) :
    ∃ above below, xs = above ++ x :: below ∧ p x = true ∧ ∀ y ∈ below, p y = false := by
  rw [List.getLast?_filter, List.find?_eq_some_iff_append] at h
  obtain ⟨hx, below, above, hreverse, hbelow⟩ := h
  refine ⟨above.reverse, below.reverse, ?_, hx, fun y hy => ?_⟩
  · rw [← List.reverse_reverse xs, hreverse]
    simp
  · simpa using hbelow y (List.mem_reverse.1 hy)

/-- The last comment block of a method holds the last comment of the method. -/
theorem isLastComment_of_getLast? (h : Scans source [] none (countedLines raw) es)
    (hlast : ((groupEntries es).filter fun b => b.method = name ∧ b.kind = .comment).getLast? =
      some b) : IsLastComment raw name b.lines := by
  obtain ⟨bs₁, bs₂, hbs, hb, hlater⟩ := exists_append_of_getLast?_filter hlast
  obtain ⟨hmethod, hkind⟩ := of_decide_eq_true hb
  obtain ⟨es₁, e, run, es₂, rfl, hbs₂, hbegins, hopens⟩ := groupEntries_split hbs
  have hfirst : e.opens = true := by
    cases es₁ with
    | nil => exact h.opens_of_first rfl
    | cons a es₁ => exact hopens (List.cons_ne_nil a es₁)
  obtain ⟨above, rest, hcounted, hnearest, hnamed, hcomment, hrest, habove, -⟩ :=
    h.exists_line (fun _ => rfl) rfl hfirst (hbegins.kind.symm.trans hkind)
  have hname : e.method = name := hbegins.method.symm.trans hmethod
  obtain ⟨below, rfl, hbelow, hrun⟩ := hrest.exists_lines hnamed hbegins.run
  have hblock : ∀ l ∈ b.lines, IsComment l := by
    rw [hbegins.lines]
    exact List.forall_mem_cons.2 ⟨hcomment, hrun⟩
  refine ⟨hbegins.lines ▸ List.cons_ne_nil _ _, hblock, own [] above, own name below, ?_, ?_, ?_, ?_⟩
  · obtain ⟨hown, hsame⟩ := own_of_not_markers (fun l hl => (hblock l hl).2) name
    have hlines : countedLines raw = above ++ (b.lines ++ below) := by
      rw [hcounted, hbegins.lines, List.cons_append]
    rw [told_eq, hlines, own_append, own_append, hnearest, hname, hown, hsame, List.append_assoc]
  · intro o ho
    refine habove o.line ?_
    rw [← map_line_own [] above, List.getLast?_map]
    exact Option.mem_map_of_mem OwnedLine.line ho
  · intro o ho
    refine hbelow.not_isComment_head? hnamed hbegins.below o.line ?_
    rw [← map_line_own name below, List.head?_map]
    exact Option.mem_map_of_mem OwnedLine.line ho
  · -- a comment of the method below would be in a block of the method below
    intro o ho hc hown
    have hentry : o ∈ es₂.map Entry.owned := by
      rw [hbelow.map_owned, hname]
      have hne : o.method ≠ [] := hown.trans_ne (hname ▸ hnamed)
      exact List.mem_filter.2 ⟨ho, by simp [OwnedLine.isEntry, hc.2, hne]⟩
    obtain ⟨later, hmem, rfl⟩ := List.mem_map.1 hentry
    obtain ⟨c, hc', hcmethod, hckind⟩ := exists_block_of_mem hbelow.isChain hmem
    have hlaterKind : c.kind = .comment :=
      hckind.trans ((hbelow.kind_eq later hmem).trans hc.1)
    exact of_decide_eq_false (hlater c (hbs₂ ▸ hc')) ⟨hcmethod.trans hown, hlaterKind⟩

end Last

end Listing

end JitInspect
