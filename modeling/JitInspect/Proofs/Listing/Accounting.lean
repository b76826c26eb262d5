import JitInspect.Proofs.Listing.Trailer
import JitInspect.Proofs.Sequences

/-!
# What the records of a text account for

A condensed listing loses no code. `Listing.Accounts` says what the records of a text hold: each
method of which a line is told has one record, in the order of the first lines; the code of a record
are the lines of its method that are no comments, each once and in order, however often the method is
listed and wherever notes, blank lines and markers stand between; and its size is read from the last
comment of the method.

For every text, `condense_accounts` says that condensing gives the records that account for the text
and the notes behind them, or else the text as it is.
-/

namespace JitInspect

namespace Listing

variable {source : Source} {name : Text} {ns : List Text} {raw : Text} {es : List Entry}
  {bs : List Block} {r : MethodRecord} {rs : List MethodRecord}

/-! ### Accounts -/

section Accounts

/-- Whether a line is told of the method that it belongs to: it counts and is no marker. -/
def OwnedLine.isTold (o : OwnedLine) : Bool := counts o.line && !Text.startsWith o.line methodMarker

/-- The place of the first line that is told of a method. -/
def firstPlace (raw name : Text) : ℕ :=
  (ownedLines raw).findIdx fun o => o.isTold && o.method = name

/-- The lines of a method that are not blank and start with no semicolon. -/
def codeLines (raw name : Text) : List Text :=
  ((ownedLines raw).filter fun o =>
    o.method = name && !Text.blank o.line && o.line.head? ≠ some ';').map OwnedLine.line

/-- The records account for the text. -/
structure Accounts (raw : Text) (rs : List MethodRecord) : Prop where
  /-- No two records have the same name. -/
  distinct : (rs.map MethodRecord.name).Nodup
  /-- The names are those of the methods of which a line is told, -/
  named : ∀ name, name ∈ rs.map MethodRecord.name ↔
    name ≠ [] ∧ ∃ o ∈ ownedLines raw, o.isTold = true ∧ o.method = name
  /-- in the order of the first such lines. -/
  ordered : rs.Pairwise fun r r' => firstPlace raw r.name < firstPlace raw r'.name
  /-- The code of a record are the code lines of its method. -/
  code : ∀ r ∈ rs, r.code.flatMap Block.lines = codeLines raw r.name
  /-- Its size is read from the last comment of its method. -/
  size : ∀ r ∈ rs, ∃ block, IsLastComment raw r.name block ∧
    readSize (Block.text ⟨r.name, .comment, block⟩) = .ok r.size

end Accounts

/-! ### Names in the order of their first occurrence -/

section Distinct

/-- No name is left out. -/
theorem mem_distinct {n : Text} : n ∈ distinct ns ↔ n ∈ ns := by
  induction ns with
  | nil => rfl
  | cons m ns ih =>
    rw [distinct, List.mem_cons, List.mem_cons, List.mem_filter, ih]
    by_cases hnm : n = m <;> simp [hnm]

/-- A name that stands twice in a row may stand once. -/
theorem distinct_cons_cons (n : Text) (ns : List Text) :
    distinct (n :: n :: ns) = distinct (n :: ns) := by
  simp [distinct, List.filter_filter]

/-- The distinct names of the lines with a property stand in the order of their first such lines. -/
theorem pairwise_distinct (p : OwnedLine → Bool) (os : List OwnedLine) :
    (distinct ((os.filter p).map OwnedLine.method)).Pairwise fun m n =>
      os.findIdx (fun o => p o && o.method = m) < os.findIdx (fun o => p o && o.method = n) := by
  induction os with
  | nil => exact .nil
  | cons o os ih =>
    by_cases ho : p o = true
    · rw [List.filter_cons_of_pos ho, List.map_cons, distinct]
      refine List.pairwise_cons.2 ⟨fun n hn => ?_, List.pairwise_filter.2 (ih.imp ?_)⟩
      · obtain ⟨-, hne⟩ := List.mem_filter.1 hn
        have hne' : o.method ≠ n := fun heq => of_decide_eq_true hne heq.symm
        simp [List.findIdx_cons, ho, hne']
      · intro m n hmn hm hn
        have hm' : o.method ≠ m := fun heq => of_decide_eq_true hm heq.symm
        have hn' : o.method ≠ n := fun heq => of_decide_eq_true hn heq.symm
        simpa [List.findIdx_cons, hm', hn'] using hmn
    · rw [List.filter_cons_of_neg ho]
      refine ih.imp fun hmn => ?_
      simpa [List.findIdx_cons, ho] using hmn

/-- Grouping entries into blocks leaves no name out and does not move its first occurrence. -/
theorem distinct_map_method (h : es.IsChain Entry.Continues) :
    distinct ((groupEntries es).map Block.method) = distinct (es.map Entry.method) := by
  induction es with
  | nil => rfl
  | cons e es ih =>
    cases es with
    | nil => rfl
    | cons next es =>
      rw [List.isChain_cons_cons] at h
      obtain ⟨hnext, h⟩ := h
      have hrest := ih h
      cases hopens : next.opens with
      | true =>
        rw [groupEntries_of_opens hopens, List.map_cons, List.map_cons, distinct, distinct, hrest]
        rfl
      | false =>
        obtain ⟨b, bs, hbs⟩ := List.exists_cons_of_ne_nil (groupEntries_ne_nil next es)
        obtain ⟨hsame, -⟩ := hnext hopens
        obtain ⟨hmethod, -⟩ := head_groupEntries hbs
        rw [hbs, List.map_cons, List.map_cons, hmethod, hsame] at hrest
        rw [groupEntries_of_not_opens hopens hbs, List.map_cons, List.map_cons, List.map_cons, hsame,
          distinct_cons_cons]
        exact hrest

/-- The names of the methods of which a line is told, in the order of the first such lines. -/
def toldNames (raw : Text) : List Text :=
  distinct (((ownedLines raw).filter fun o => counts o.line && o.isEntry).map OwnedLine.method)

/-- A line of a named method is told of it when it counts and becomes an entry. -/
theorem counts_and_isEntry (hname : name ≠ []) (o : OwnedLine) :
    (counts o.line && o.isEntry && o.method = name) = (o.isTold && o.method = name) := by
  by_cases hmethod : o.method = name
  · have hempty : name.isEmpty = false := List.isEmpty_eq_false_iff.2 hname
    simp [OwnedLine.isEntry, OwnedLine.isTold, hmethod, hempty]
  · simp [hmethod]

/-- No name among them is empty, since no line is told of no method. -/
theorem mem_toldNames : name ∈ toldNames raw ↔
    name ≠ [] ∧ ∃ o ∈ ownedLines raw, o.isTold = true ∧ o.method = name := by
  rw [toldNames, mem_distinct, List.mem_map]
  constructor
  · rintro ⟨o, ho, rfl⟩
    obtain ⟨ho, hp⟩ := List.mem_filter.1 ho
    obtain ⟨-, hentry⟩ := Bool.and_eq_true_iff.1 hp
    have hempty := (Bool.and_eq_true_iff.1 hentry).1
    have hname : o.method ≠ [] := by rwa [Bool.not_eq_true', List.isEmpty_eq_false_iff] at hempty
    have htold := counts_and_isEntry hname o
    simp only [hp, decide_true, Bool.and_true] at htold
    exact ⟨hname, o, ho, htold.symm, rfl⟩
  · rintro ⟨hname, o, ho, htold, hmethod⟩
    have hentry := counts_and_isEntry hname o
    simp only [htold, hmethod, decide_true, Bool.and_true] at hentry
    exact ⟨o, List.mem_filter.2 ⟨ho, hentry⟩, hmethod⟩

/-- They stand in the order of their first places. -/
theorem pairwise_toldNames (raw : Text) :
    (toldNames raw).Pairwise fun m n => firstPlace raw m < firstPlace raw n := by
  refine (pairwise_distinct _ _).imp_of_mem fun hm hn hmn => ?_
  simp only [counts_and_isEntry (mem_toldNames.1 hm).1,
    counts_and_isEntry (mem_toldNames.1 hn).1] at hmn
  exact hmn

/-- The names of the blocks are those of the methods of which a line becomes an entry. -/
theorem distinct_names_own {method : Text} {previous : Option BlockKind} {ls : List Text}
    (h : Scans source method previous ls es) :
    distinct ((groupEntries es).map Block.method) =
      distinct (((own method ls).filter OwnedLine.isEntry).map OwnedLine.method) := by
  have hmethods : es.map Entry.method = (es.map Entry.owned).map OwnedLine.method := by
    rw [List.map_map]
    rfl
  rw [distinct_map_method h.isChain, hmethods, h.map_owned]

/-- Of a text without its notes they are those of the methods of which a line is told. -/
theorem distinct_names (h : Scans source [] none (countedLines raw) es) :
    distinct ((groupEntries es).map Block.method) = toldNames raw := by
  rw [distinct_names_own h, ← told_eq, told, List.filter_filter, toldNames]
  simp only [Bool.and_comm]

end Distinct

/-! ### Records -/

section Records

/-- The record of a method holds its code blocks, and the size in its last comment block. -/
theorem recordOf_eq_ok_iff : recordOf bs name = .ok r ↔
    r.name = name ∧ r.code = (bs.filter fun b => b.method = name ∧ b.kind = .code) ∧
      ∃ c, (bs.filter fun b => b.method = name ∧ b.kind = .comment).getLast? = some c ∧
        readSize c.text = .ok r.size := by
  have hkinds : ∀ k : BlockKind, ((bs.filter fun b => b.method = name).filter fun b => b.kind = k) =
      bs.filter fun b => b.method = name ∧ b.kind = k := by
    intro k
    rw [List.filter_filter]
    refine List.filter_congr fun b _ => ?_
    simp [and_comm]
  simp only [recordOf, hkinds]
  cases hlast : (bs.filter fun b => b.method = name ∧ b.kind = .comment).getLast? with
  | none => exact ⟨fun h => (nomatch h), fun ⟨_, _, _, h, _⟩ => (nomatch h)⟩
  | some c =>
    cases hsize : readSize c.text with
    | error f =>
      refine ⟨fun h => ?_, fun ⟨_, _, c', hc, h⟩ => ?_⟩
      · simp only [hsize] at h
        cases h
      · cases hc
        rw [hsize] at h
        cases h
    | ok n =>
      simp only [hsize]
      constructor
      · intro h
        cases h
        exact ⟨rfl, rfl, c, rfl, hsize⟩
      · rintro ⟨rfl, hcode, c', hc, h⟩
        cases hc
        rw [hsize] at h
        rw [← hcode, Except.ok.inj h]
        rfl

/-- There is one record for each of the names of the blocks, in order. -/
theorem names_of_recordsOf (h : recordsOf bs = .ok rs) :
    rs.map MethodRecord.name = distinct (bs.map Block.method) ∧
      ∀ r ∈ rs, recordOf bs r.name = .ok r := by
  have hall := forall₂_of_mapM h
  clear h
  generalize distinct (bs.map Block.method) = ns at hall ⊢
  induction hall with
  | nil => exact ⟨rfl, fun _ hr => absurd hr List.not_mem_nil⟩
  | cons hx _ ih =>
    obtain ⟨hname, -⟩ := recordOf_eq_ok_iff.1 hx
    obtain ⟨hnames, hrecords⟩ := ih
    rw [List.map_cons, hname, hnames]
    refine ⟨rfl, List.forall_mem_cons.2 ⟨?_, hrecords⟩⟩
    rw [hname]
    exact hx

end Records

/-! ### The records of a text -/

section Condense

/-- The lines that start with no semicolon are code. -/
theorem kindOf_eq_code_iff (l : Text) : kindOf l = .code ↔ l.head? ≠ some ';' := by
  unfold kindOf
  split
  · simp
  · next h =>
    refine ⟨fun _ hl => ?_, fun _ => rfl⟩
    obtain ⟨cs, rfl⟩ := List.head?_eq_some_iff.1 hl
    exact h cs rfl

/-- Code starts with no pattern that starts with a semicolon. -/
theorem startsWith_of_head?_ne {l pat : Text} (hpat : pat.head? = some ';')
    (hl : l.head? ≠ some ';') : Text.startsWith l pat = false := by
  refine Bool.eq_false_iff.2 fun h => hl ?_
  obtain ⟨rest, rfl⟩ := Text.startsWith_iff.1 h
  rw [List.head?_append, hpat]
  rfl

/-- The entries of a method that are code are its code lines. -/
theorem map_line_eq_codeLines (hname : name ≠ [])
    (h : Scans source [] none (countedLines raw) es) :
    (es.filter fun e => e.method = name ∧ e.kind = .code).map Entry.line = codeLines raw name := by
  have hfilter : (es.filter fun e => e.method = name ∧ e.kind = .code).map Entry.line =
      ((es.map Entry.owned).filter fun o => o.method = name ∧ kindOf o.line = .code).map
        OwnedLine.line := by
    rw [List.filter_map, List.map_map]
    refine congrArg _ (List.filter_congr fun e he => ?_)
    have hkind := h.kind_eq e he
    exact decide_eq_decide.2 (by rw [hkind, Entry.owned])
  rw [hfilter, h.map_owned, ← told_eq, told, List.filter_filter,
    List.filter_filter, codeLines]
  refine congrArg _ (List.filter_congr fun o _ => ?_)
  by_cases hmethod : o.method = name
  · by_cases hcode : o.line.head? = some ';'
    · have hkind : kindOf o.line ≠ .code := fun hk => (kindOf_eq_code_iff o.line).1 hk hcode
      simp [hkind, hcode]
    · have hmarker : Text.startsWith o.line methodMarker = false :=
        startsWith_of_head?_ne rfl hcode
      have hnote : Text.startsWith o.line noteStart = false := startsWith_of_head?_ne rfl hcode
      simp [hmethod, hname, hcode, (kindOf_eq_code_iff o.line).2 hcode, OwnedLine.isEntry, counts,
        hmarker, hnote]
  · simp [hmethod]

/-- The records of a text account for it. -/
theorem accounts_of_methods (h : methods source (splitNotes raw).1 = .ok rs) : Accounts raw rs := by
  rw [methods] at h
  cases hbs : scanBlocks source (splitNotes raw).1 with
  | error f =>
    rw [hbs] at h
    cases h
  | ok bs =>
    rw [hbs] at h
    obtain ⟨es, hscan, rfl⟩ := scans_of_scanBlocks hbs
    obtain ⟨hnames, hrecords⟩ := names_of_recordsOf h
    rw [distinct_names hscan] at hnames
    have hplaces : (rs.map MethodRecord.name).Pairwise fun m n =>
        firstPlace raw m < firstPlace raw n := hnames ▸ pairwise_toldNames raw
    constructor
    case distinct =>
      refine hplaces.imp fun hlt heq => ?_
      rw [heq] at hlt
      exact Nat.lt_irrefl _ hlt
    case named =>
      intro name
      rw [hnames, mem_toldNames]
    case ordered => exact (List.pairwise_map (f := MethodRecord.name)).1 hplaces
    case code =>
      intro r hr
      have hname : r.name ≠ [] :=
        (mem_toldNames.1 (hnames ▸ List.mem_map_of_mem hr)).1
      obtain ⟨-, hcode, -⟩ := recordOf_eq_ok_iff.1 (hrecords r hr)
      rw [hcode, flatMap_lines_groupEntries hscan.isChain, map_line_eq_codeLines hname hscan]
    case size =>
      intro r hr
      obtain ⟨-, -, c, hlast, hsize⟩ := recordOf_eq_ok_iff.1 (hrecords r hr)
      obtain ⟨-, -, -, hb, -⟩ := exists_append_of_getLast?_filter hlast
      obtain ⟨hmethod, hkind⟩ := of_decide_eq_true hb
      refine ⟨c.lines, isLastComment_of_getLast? hscan hlast, ?_⟩
      rw [← hmethod, ← hkind]
      exact hsize

/-- Every text is condensed to the records that account for it, with the notes behind them, or left
as it is. -/
theorem condense_accounts (source : Source) (raw : Text) :
    match methods source (splitNotes raw).1 with
    | .ok rs => Accounts raw rs ∧
        condense true source raw = (renderMethods rs ++ renderNotes (splitNotes raw).2, [])
    | .error f => condense true source raw = (raw, [f.warning]) := by
  cases h : methods source (splitNotes raw).1 with
  | ok rs =>
    refine ⟨accounts_of_methods h, ?_⟩
    simp only [condense, condense?, h, if_true]
    rfl
  | error f =>
    simp only [condense, condense?, h, if_true]
    rfl

/-- A method that is listed twice has one section, with all its code. -/
example : (condense true .generatorOnly ("; Assembly listing for method A\n nop\n" ++
      "; Assembly listing for method A\n; jitscope: B\n ret\n; Total bytes of code 2, prolog\n")).1 =
    ("; Method A\n nop\n\n ret\n; Total bytes of code: 2\n\n; jitscope: B\n" : String) := by
  decide +kernel

end Condense

end Listing

end JitInspect
