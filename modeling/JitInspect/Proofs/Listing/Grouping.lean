import JitInspect.Proofs.Listing.Ownership

/-!
# The blocks that entries are grouped into

Grouping keeps every line: the blocks, one after the other, hold the lines of the entries in order,
with their methods and kinds (`flatMap_spread_groupEntries`). A block starts with an entry and goes
on to the next entry that opens a block (`groupEntries_split`).
-/

namespace JitInspect

/-- The lines of a block, each with its method and its kind. -/
def Block.spread (b : Block) : List (Text × BlockKind × Text) :=
  b.lines.map fun l => (b.method, b.kind, l)

namespace Listing

variable {method : Text} {kind : BlockKind} {e next : Entry} {es es₁ es₂ : List Entry}
  {b : Block} {bs bs₁ bs₂ : List Block}

/-! ### One entry in front of others -/

section Cons

/-- An entry as a block of its own. -/
def Entry.alone (e : Entry) : Block := ⟨e.method, e.kind, [e.line]⟩

/-- The block with an entry in front of it. -/
def Entry.joining (e : Entry) (b : Block) : Block := ⟨e.method, e.kind, e.line :: b.lines⟩

theorem groupEntries_ne_nil (e : Entry) (es : List Entry) : groupEntries (e :: es) ≠ [] := by
  unfold groupEntries
  split
  · split <;> exact List.cons_ne_nil _ _
  · exact List.cons_ne_nil _ _

/-- An entry stands alone when the next one opens a block. -/
theorem groupEntries_of_opens (h : next.opens = true) :
    groupEntries (e :: next :: es) = e.alone :: groupEntries (next :: es) := by
  obtain ⟨b, bs, hbs⟩ := List.exists_cons_of_ne_nil (groupEntries_ne_nil next es)
  rw [groupEntries.eq_2 e next es b bs hbs, if_pos h, hbs]
  rfl

/-- An entry joins the block of the next one when that opens none. -/
theorem groupEntries_of_not_opens (h : next.opens = false)
    (hbs : groupEntries (next :: es) = b :: bs) :
    groupEntries (e :: next :: es) = e.joining b :: bs := by
  rw [groupEntries.eq_2 e next es b bs hbs, if_neg (Bool.eq_false_iff.1 h)]
  rfl

/-- The first block has the method and the kind of the first entry. -/
theorem head_groupEntries (h : groupEntries (e :: es) = b :: bs) :
    b.method = e.method ∧ b.kind = e.kind := by
  cases es with
  | nil =>
    cases h
    exact ⟨rfl, rfl⟩
  | cons next es =>
    cases hopens : next.opens with
    | true =>
      rw [groupEntries_of_opens hopens] at h
      cases h
      exact ⟨rfl, rfl⟩
    | false =>
      obtain ⟨c, cs, hcs⟩ := List.exists_cons_of_ne_nil (groupEntries_ne_nil next es)
      rw [groupEntries_of_not_opens hopens hcs] at h
      cases h
      exact ⟨rfl, rfl⟩

/-- Entries are grouped apart when the first one behind others opens a block. -/
theorem groupEntries_append (h : ∀ e ∈ es₂.head?, e.opens = true) :
    groupEntries (es₁ ++ es₂) = groupEntries es₁ ++ groupEntries es₂ := by
  induction es₁ with
  | nil => rfl
  | cons e es₁ ih =>
    cases es₁ with
    | nil =>
      cases es₂ with
      | nil => rfl
      | cons next es₂ => exact groupEntries_of_opens (h next rfl)
    | cons next es₁ =>
      cases hopens : next.opens with
      | true =>
        have hrest : groupEntries (e :: (next :: es₁ ++ es₂)) =
            e.alone :: groupEntries (next :: es₁ ++ es₂) := groupEntries_of_opens hopens
        rw [List.cons_append, hrest, ih, groupEntries_of_opens hopens, List.cons_append]
      | false =>
        obtain ⟨b, bs, hbs⟩ := List.exists_cons_of_ne_nil (groupEntries_ne_nil next es₁)
        rw [groupEntries_of_not_opens hopens hbs]
        rw [hbs] at ih
        exact groupEntries_of_not_opens hopens ih

end Cons

/-! ### The lines of the blocks -/

section Spread

/-- The line of an entry with its method and its kind. -/
def Entry.spread (e : Entry) : Text × BlockKind × Text := (e.method, e.kind, e.line)

/-- A block of one entry. -/
theorem spread_alone (e : Entry) : e.alone.spread = [e.spread] := rfl

/-- An entry that joins a block comes first in it. -/
theorem spread_joining (hmethod : b.method = e.method) (hkind : b.kind = e.kind) :
    (e.joining b).spread = e.spread :: b.spread := by
  simp only [Entry.joining, Block.spread, List.map_cons, hmethod, hkind]
  rfl

/-- The blocks hold the lines of the entries in order, each once. -/
theorem flatMap_spread_groupEntries (h : es.IsChain Entry.Continues) :
    (groupEntries es).flatMap Block.spread = es.map Entry.spread := by
  induction es with
  | nil => rfl
  | cons e es ih =>
    cases es with
    | nil => rfl
    | cons next es =>
      rw [List.isChain_cons_cons] at h
      obtain ⟨hnext, h⟩ := h
      cases hopens : next.opens with
      | true =>
        rw [groupEntries_of_opens hopens, List.flatMap_cons, ih h, spread_alone]
        rfl
      | false =>
        obtain ⟨b, bs, hbs⟩ := List.exists_cons_of_ne_nil (groupEntries_ne_nil next es)
        obtain ⟨hmethod, hkind⟩ := head_groupEntries hbs
        obtain ⟨hsame, hsameKind⟩ := hnext hopens
        rw [groupEntries_of_not_opens hopens hbs, List.flatMap_cons,
          spread_joining (hmethod.trans hsame) (hkind.trans hsameKind), List.cons_append,
          ← List.flatMap_cons, ← hbs, ih h]
        rfl

/-- The lines of the blocks with a method and a kind, one after the other. -/
theorem flatMap_lines_filter (bs : List Block) (method : Text) (kind : BlockKind) :
    (bs.filter fun b => b.method = method ∧ b.kind = kind).flatMap Block.lines =
      ((bs.flatMap Block.spread).filter fun p => p.1 = method ∧ p.2.1 = kind).map fun p => p.2.2 := by
  induction bs with
  | nil => rfl
  | cons b bs ih =>
    rw [List.flatMap_cons, List.filter_append, List.map_append, ← ih]
    by_cases hb : b.method = method ∧ b.kind = kind
    · rw [List.filter_cons_of_pos (by simpa using hb), List.flatMap_cons]
      refine congrArg (· ++ _) ?_
      rw [Block.spread, List.filter_map, List.map_map]
      simp [hb, Function.comp_def]
    · rw [List.filter_cons_of_neg (by simpa using hb), Block.spread, List.filter_map]
      simp [hb, Function.comp_def]

/-- The blocks with a method and a kind hold the lines of the entries with them. -/
theorem flatMap_lines_groupEntries (h : es.IsChain Entry.Continues) (method : Text)
    (kind : BlockKind) :
    ((groupEntries es).filter fun b => b.method = method ∧ b.kind = kind).flatMap Block.lines =
      (es.filter fun e => e.method = method ∧ e.kind = kind).map Entry.line := by
  rw [flatMap_lines_filter, flatMap_spread_groupEntries h, List.filter_map, List.map_map]
  rfl

/-- Each line of a block comes from an entry with its method and its kind. -/
theorem exists_entry_of_mem {l : Text} (h : es.IsChain Entry.Continues) (hb : b ∈ groupEntries es)
    (hl : l ∈ b.lines) : ∃ e ∈ es, e.method = b.method ∧ e.kind = b.kind ∧ e.line = l := by
  have hspread : (b.method, b.kind, l) ∈ (groupEntries es).flatMap Block.spread :=
    List.mem_flatMap.2 ⟨b, hb, List.mem_map_of_mem hl⟩
  rw [flatMap_spread_groupEntries h] at hspread
  obtain ⟨e, he, heq⟩ := List.mem_map.1 hspread
  obtain ⟨hmethod, hrest⟩ := Prod.mk.inj heq
  obtain ⟨hkind, hline⟩ := Prod.mk.inj hrest
  exact ⟨e, he, hmethod, hkind, hline⟩

/-- Each entry has a block with its method and its kind. -/
theorem exists_block_of_mem (h : es.IsChain Entry.Continues) (he : e ∈ es) :
    ∃ b ∈ groupEntries es, b.method = e.method ∧ b.kind = e.kind := by
  have hmem : e.spread ∈ (groupEntries es).flatMap Block.spread := by
    rw [flatMap_spread_groupEntries h]
    exact List.mem_map_of_mem he
  obtain ⟨b, hb, hspread⟩ := List.mem_flatMap.1 hmem
  obtain ⟨l, -, heq⟩ := List.mem_map.1 hspread
  obtain ⟨hmethod, hrest⟩ := Prod.mk.inj heq
  exact ⟨b, hb, hmethod, (Prod.mk.inj hrest).1⟩

end Spread

/-! ### Where a block stands -/

section Split

/-- A block begins with an entry, goes on with a run that opens no other, and ends in front of the
entries below, which open the next one. -/
structure Entry.Begins (e : Entry) (b : Block) (run below : List Entry) : Prop where
  method : b.method = e.method
  kind : b.kind = e.kind
  lines : b.lines = e.line :: run.map Entry.line
  run : ∀ r ∈ run, r.opens = false
  below : ∀ r ∈ below.head?, r.opens = true

/-- The first block begins with the first entry. -/
theorem groupEntries_first (h : groupEntries (e :: es) = b :: bs) :
    ∃ run below, es = run ++ below ∧ groupEntries below = bs ∧ e.Begins b run below := by
  induction es generalizing e b bs with
  | nil =>
    cases h
    exact ⟨[], [], rfl, rfl, rfl, rfl, rfl, fun _ hr => absurd hr List.not_mem_nil,
      fun r hr => absurd hr (Option.not_mem_none r)⟩
  | cons next es ih =>
    cases hopens : next.opens with
    | true =>
      rw [groupEntries_of_opens hopens] at h
      obtain ⟨rfl, rfl⟩ := List.cons.inj h
      refine ⟨[], next :: es, rfl, rfl, rfl, rfl, rfl, fun _ hr => absurd hr List.not_mem_nil,
        fun r hr => ?_⟩
      rw [← Option.some.inj hr]
      exact hopens
    | false =>
      obtain ⟨c, cs, hcs⟩ := List.exists_cons_of_ne_nil (groupEntries_ne_nil next es)
      rw [groupEntries_of_not_opens hopens hcs] at h
      obtain ⟨rfl, rfl⟩ := List.cons.inj h
      obtain ⟨run, below, rfl, hbelow, hbegins⟩ := ih hcs
      refine ⟨next :: run, below, rfl, hbelow, rfl, rfl, ?_, ?_, hbegins.below⟩
      · rw [Entry.joining, hbegins.lines]
        rfl
      · exact List.forall_mem_cons.2 ⟨hopens, hbegins.run⟩

/-- The entries of a block stand together among the entries that are grouped, and the first one opens
it unless nothing stands above. -/
theorem groupEntries_split (h : groupEntries es = bs₁ ++ b :: bs₂) :
    ∃ above e run below, es = above ++ e :: (run ++ below) ∧ groupEntries below = bs₂ ∧
      e.Begins b run below ∧ (above ≠ [] → e.opens = true) := by
  induction bs₁ generalizing es with
  | nil =>
    cases es with
    | nil => cases h
    | cons e es =>
      obtain ⟨run, below, rfl, hbelow, hbegins⟩ := groupEntries_first h
      exact ⟨[], e, run, below, rfl, hbelow, hbegins, fun hne => absurd rfl hne⟩
  | cons c bs₁ ih =>
    cases es with
    | nil => cases h
    | cons first es =>
      obtain ⟨run₀, es, rfl, hes, hfirst⟩ := groupEntries_first h
      obtain ⟨above, e, run, below, rfl, hbelow, hbegins, hopens⟩ := ih hes
      refine ⟨first :: (run₀ ++ above), e, run, below, by simp, hbelow, hbegins, fun _ => ?_⟩
      cases above with
      | nil => exact hfirst.below e rfl
      | cons d above => exact hopens (List.cons_ne_nil d above)

/-- No block is without a line. -/
theorem lines_ne_nil (hb : b ∈ groupEntries es) : b.lines ≠ [] := by
  obtain ⟨bs₁, bs₂, hbs⟩ := List.append_of_mem hb
  obtain ⟨_, e, run, _, -, -, hbegins, -⟩ := groupEntries_split hbs
  rw [hbegins.lines]
  exact List.cons_ne_nil _ _

end Split

end Listing

end JitInspect
