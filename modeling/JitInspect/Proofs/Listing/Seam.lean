import JitInspect.Proofs.Listing.Accounting
import JitInspect.Proofs.Listing.Notes

/-!
# Listings behind one another

A listing that is read begins with a marker, so that nothing of a listing in front of it is left when
it is scanned: neither the method nor the kind of the last line (`Scans.anywhere`). Its first entry
opens a block. So the blocks of two listings, of which the first one is ended, are those of the one and
those of the other (`scanBlocks_append`).

A method may be listed in both. Its record stands where the first listing has it, holds the code of
both, and has the size that the second one gives (`recordsOf_append`). Without such methods the
listings are condensed one by one (`methods_append`).
-/

namespace JitInspect

namespace Listing

variable {source : Source} {method name : Text} {previous : Option BlockKind} {raw A B : Text}
  {ls ls₁ ls₂ : List Text} {es es₁ es₂ : List Entry} {bs bs₁ bs₂ : List Block}
  {r s : MethodRecord} {rs ss : List MethodRecord}

/-! ### The blocks of two listings -/

section Blocks

/-- Lines that have the same entries wherever they stand have them behind others. -/
theorem Scans.append (h₁ : Scans source method previous ls₁ es₁)
    (h₂ : ∀ method previous, Scans source method previous ls₂ es₂) :
    Scans source method previous (ls₁ ++ ls₂) (es₁ ++ es₂) := by
  induction h₁ with
  | nil => exact h₂ _ _
  | marker hl _ ih => exact .marker hl ih
  | passed hl hsource _ ih => exact .passed hl hsource ih
  | entry hl hmethod _ ih => exact .entry hl hmethod ih

/-- What the generator lists begins with a marker, so it has the same entries wherever it stands. -/
theorem Scans.anywhere (h : Scans .generatorOnly [] none ls es) (method : Text)
    (previous : Option BlockKind) : Scans .generatorOnly method previous ls es := by
  cases h with
  | nil hmethod => exact absurd rfl hmethod
  | marker hl h => exact .marker hl h
  | passed _ hsource => cases hsource
  | entry _ hmethod => exact absurd rfl hmethod

/-- The blocks of a listing are those of the entries of its written lines. -/
theorem scanBlocks_eq_ok_iff : scanBlocks source raw = .ok bs ↔
    ∃ es, Scans source [] none (Text.writtenLines raw) es ∧ groupEntries es = bs := by
  have hwritten : ∀ l ∈ Text.writtenLines raw, Text.blank l = false := fun l hl => by
    simpa using (List.mem_filter.1 hl).2
  rw [scanBlocks_eq]
  constructor
  · intro h
    cases hes : entries source [] none (Text.writtenLines raw) with
    | error f =>
      rw [hes] at h
      cases h
    | ok es =>
      rw [hes] at h
      exact ⟨es, scans_of_entries hwritten hes, Except.ok.inj h⟩
  · rintro ⟨es, h, rfl⟩
    rw [h.entries_eq hwritten]
    rfl

/-- The blocks of two listings, one behind the other. -/
theorem scanBlocks_append (hA : scanBlocks .generatorOnly A = .ok bs₁)
    (hB : scanBlocks .generatorOnly B = .ok bs₂) (hend : Text.IsEnded A) :
    scanBlocks .generatorOnly (A ++ B) = .ok (bs₁ ++ bs₂) := by
  obtain ⟨es₁, h₁, rfl⟩ := scanBlocks_eq_ok_iff.1 hA
  obtain ⟨es₂, h₂, rfl⟩ := scanBlocks_eq_ok_iff.1 hB
  have hopens : ∀ e ∈ es₂.head?, e.opens = true := by
    intro e he
    obtain ⟨es, rfl⟩ := List.head?_eq_some_iff.1 he
    exact h₂.opens_of_first rfl
  refine scanBlocks_eq_ok_iff.2 ⟨es₁ ++ es₂, ?_, groupEntries_append hopens⟩
  rw [Text.writtenLines_append hend]
  exact h₁.append h₂.anywhere

end Blocks

/-! ### The records of two listings -/

section Records

/-- A record with the code of another listing of the method behind its own, and the size from there. -/
def MethodRecord.relisted (r s : MethodRecord) : MethodRecord := ⟨r.name, r.code ++ s.code, s.size⟩

/-- The records of two listings, one behind the other. -/
def behind (rs ss : List MethodRecord) : List MethodRecord :=
  rs.map (fun r => ((ss.find? fun s => s.name = r.name).map r.relisted).getD r) ++
    ss.filter fun s => s.name ∉ rs.map MethodRecord.name

theorem distinct_append (ns₁ ns₂ : List Text) :
    distinct (ns₁ ++ ns₂) = distinct ns₁ ++ (distinct ns₂).filter (· ∉ ns₁) := by
  induction ns₁ with
  | nil => simp [distinct]
  | cons n ns₁ ih =>
    rw [List.cons_append, distinct, distinct, ih, List.filter_append, List.cons_append,
      List.filter_filter]
    refine congrArg _ (congrArg _ (List.filter_congr fun m _ => ?_))
    simp [not_or]

theorem filter_method_eq_nil (h : name ∉ bs.map Block.method) :
    (bs.filter fun b => b.method = name) = [] := by
  refine List.filter_eq_nil_iff.2 fun b hb hname => h ?_
  rw [← of_decide_eq_true hname]
  exact List.mem_map_of_mem hb

/-- The record of a method that only the first listing has. -/
theorem recordOf_append_left (h : name ∉ bs₂.map Block.method) :
    recordOf (bs₁ ++ bs₂) name = recordOf bs₁ name := by
  simp only [recordOf, List.filter_append, filter_method_eq_nil h, List.append_nil]

/-- The record of a method that only the second listing has. -/
theorem recordOf_append_right (h : name ∉ bs₁.map Block.method) :
    recordOf (bs₁ ++ bs₂) name = recordOf bs₂ name := by
  simp only [recordOf, List.filter_append, filter_method_eq_nil h, List.nil_append]

/-- The record of a method that two listings have. -/
theorem recordOf_append (h₁ : recordOf bs₁ name = .ok r) (h₂ : recordOf bs₂ name = .ok s) :
    recordOf (bs₁ ++ bs₂) name = .ok (r.relisted s) := by
  obtain ⟨hname, hcode₁, -⟩ := recordOf_eq_ok_iff.1 h₁
  obtain ⟨-, hcode₂, c, hlast, hsize⟩ := recordOf_eq_ok_iff.1 h₂
  refine recordOf_eq_ok_iff.2 ⟨hname, ?_, c, ?_, hsize⟩
  · rw [List.filter_append, ← hcode₁, ← hcode₂]
    rfl
  · rw [List.filter_append, List.getLast?_append, hlast]
    rfl

/-- The records are those of their methods, with the names of the blocks. -/
theorem recordsOf_eq_ok_iff : recordsOf bs = .ok rs ↔
    rs.map MethodRecord.name = distinct (bs.map Block.method) ∧
      ∀ r ∈ rs, recordOf bs r.name = .ok r := by
  refine ⟨names_of_recordsOf, ?_⟩
  rintro ⟨hnames, hrecords⟩
  rw [recordsOf, ← hnames]
  clear hnames
  induction rs with
  | nil => rfl
  | cons r rs ih =>
    obtain ⟨hr, hrs⟩ := List.forall_mem_cons.1 hrecords
    rw [List.map_cons, List.mapM_cons, hr, ih hrs]
    rfl

/-- The names of two listings in one. -/
theorem map_name_behind (rs ss : List MethodRecord) :
    (behind rs ss).map MethodRecord.name = rs.map MethodRecord.name ++
      (ss.map MethodRecord.name).filter (· ∉ rs.map MethodRecord.name) := by
  have hkept : ∀ r : MethodRecord,
      (((ss.find? fun s => s.name = r.name).map r.relisted).getD r).name = r.name := by
    intro r
    cases ss.find? fun s => s.name = r.name <;> rfl
  rw [behind, List.map_append, List.map_map, List.filter_map]
  refine congrArg₂ (· ++ ·) (List.map_congr_left fun r _ => hkept r) rfl

/-- A name without a record is that of no block. -/
theorem not_mem_map_method (h : rs.map MethodRecord.name = distinct (bs.map Block.method))
    (hname : name ∉ rs.map MethodRecord.name) : name ∉ bs.map Block.method := by
  rwa [h, mem_distinct] at hname

/-- The records of the blocks of two listings are those of the listings, one behind the other. -/
theorem recordsOf_append (h₁ : recordsOf bs₁ = .ok rs) (h₂ : recordsOf bs₂ = .ok ss) :
    recordsOf (bs₁ ++ bs₂) = .ok (behind rs ss) := by
  obtain ⟨hnames₁, hrecords₁⟩ := recordsOf_eq_ok_iff.1 h₁
  obtain ⟨hnames₂, hrecords₂⟩ := recordsOf_eq_ok_iff.1 h₂
  refine recordsOf_eq_ok_iff.2 ⟨?_, fun r hmem => ?_⟩
  · rw [map_name_behind, List.map_append, distinct_append, hnames₁, hnames₂]
    simp only [mem_distinct]
  · rcases List.mem_append.1 hmem with hfirst | hsecond
    · obtain ⟨r, hr, rfl⟩ := List.mem_map.1 hfirst
      cases hfind : ss.find? fun s => s.name = r.name with
      | some s =>
        have hname : s.name = r.name := by simpa using List.find?_some hfind
        have hs := hrecords₂ s (List.mem_of_find?_eq_some hfind)
        rw [hname] at hs
        exact recordOf_append (hrecords₁ r hr) hs
      | none =>
        have hnot : r.name ∉ ss.map MethodRecord.name := by
          intro hlisted
          obtain ⟨s, hs, hname⟩ := List.mem_map.1 hlisted
          exact absurd (decide_eq_true hname) (List.find?_eq_none.1 hfind s hs)
        exact (recordOf_append_left (not_mem_map_method hnames₂ hnot)).trans (hrecords₁ r hr)
    · obtain ⟨hr, hnot⟩ := List.mem_filter.1 hsecond
      have hother := not_mem_map_method hnames₁ (of_decide_eq_true hnot)
      exact (recordOf_append_right hother).trans (hrecords₂ r hr)

/-- Without a method in common the records of both listings are kept as they are. -/
theorem behind_of_disjoint (h : ∀ r ∈ rs, ∀ s ∈ ss, s.name ≠ r.name) :
    behind rs ss = rs ++ ss := by
  have hfirst :
      rs.map (fun r => ((ss.find? fun s => s.name = r.name).map r.relisted).getD r) = rs := by
    refine (List.map_congr_left fun r hr => ?_).trans (List.map_id rs)
    have hnone : (ss.find? fun s => s.name = r.name) = none :=
      List.find?_eq_none.2 fun s hs => by simpa using h r hr s hs
    rw [hnone]
    rfl
  have hsecond : (ss.filter fun s => s.name ∉ rs.map MethodRecord.name) = ss := by
    refine List.filter_eq_self.2 fun s hs => decide_eq_true fun hmem => ?_
    obtain ⟨r, hr, hname⟩ := List.mem_map.1 hmem
    exact h r hr s hs hname.symm
  rw [behind, hfirst, hsecond]

end Records

/-! ### Two listings -/

section Append

/-- The notes of two texts, the first of which is ended. -/
theorem notes_append (hend : Text.IsEnded A) (B : Text) :
    (splitNotes (A ++ B)).2 = (splitNotes A).2 ++ (splitNotes B).2 := by
  have hnotes : ∀ raw, (splitNotes raw).2 = (Text.lines raw).filterMap noteOf := fun raw =>
    notesOf_eq (Text.lines raw)
  rw [hnotes, hnotes, hnotes, tellsSteadily_noteOf.filterMap_append hend]

theorem splitNotes_of_notes_eq_nil (h : (splitNotes raw).2 = []) : splitNotes raw = (raw, []) := by
  refine splitNotes_of_no_notes fun l hl => ?_
  have hnone := List.filter_eq_nil_iff.1 (List.map_eq_nil_iff.1 h) l hl
  exact Bool.eq_false_iff.2 hnone

/-- A listing without notes is condensed to its records. -/
theorem condense_of_no_notes (h : methods source raw = .ok rs) (hnotes : (splitNotes raw).2 = []) :
    condense true source raw = (renderMethods rs, []) := by
  have hsplit := splitNotes_of_notes_eq_nil hnotes
  rw [condense_of_methods (by rwa [hsplit]), hnotes]
  exact congrArg (·, []) (List.append_nil _)

/-- Of two listings, one behind the other, the records are those of the first one, each with what the
second one says of its method, and the other records of the second one. So without notes and without a
method in common they are condensed one by one. -/
theorem methods_append (hA : methods .generatorOnly A = .ok rs)
    (hB : methods .generatorOnly B = .ok ss) (hend : Text.IsEnded A) :
    methods .generatorOnly (A ++ B) = .ok (behind rs ss) ∧
      ((splitNotes A).2 = [] → (splitNotes B).2 = [] → (∀ r ∈ rs, ∀ s ∈ ss, s.name ≠ r.name) →
        condense true .generatorOnly (A ++ B) =
          ((condense true .generatorOnly A).1 ++ (condense true .generatorOnly B).1, [])) := by
  have hmethods : methods .generatorOnly (A ++ B) = .ok (behind rs ss) := by
    rw [methods] at hA hB ⊢
    cases hbs₁ : scanBlocks .generatorOnly A with
    | error f =>
      rw [hbs₁] at hA
      cases hA
    | ok bs₁ =>
      cases hbs₂ : scanBlocks .generatorOnly B with
      | error f =>
        rw [hbs₂] at hB
        cases hB
      | ok bs₂ =>
        rw [hbs₁] at hA
        rw [hbs₂] at hB
        rw [scanBlocks_append hbs₁ hbs₂ hend]
        exact recordsOf_append hA hB
  refine ⟨hmethods, fun hnotesA hnotesB hdisjoint => ?_⟩
  have hnotes : (splitNotes (A ++ B)).2 = [] := by rw [notes_append hend, hnotesA, hnotesB]; rfl
  rw [condense_of_no_notes hmethods hnotes, condense_of_no_notes hA hnotesA,
    condense_of_no_notes hB hnotesB, behind_of_disjoint hdisjoint, renderMethods, renderMethods,
    renderMethods, List.flatMap_append]

/-- The listing of a method with one instruction. Its lines end with carriage returns. -/
def sampleListing (name size : Text) : Text :=
  methodMarker ++ name ++ "\r ret\r" ++ sizeMarker ++ size ++ "\r"

/-- Its code. -/
def sampleCode (name : Text) : Block := ⟨name, .code, [" ret"]⟩

/-- The second listings begin with a line feed, which ends a line together with the carriage return in
front of it. One of them has a method of the first listing, the other one has none. -/
theorem methods_append_of_two :
    let A := sampleListing "A" "1"
    let B := '\n' :: (sampleListing "B" "2" ++ sampleListing "A" "3")
    let C := '\n' :: sampleListing "C" "4"
    methods .generatorOnly (A ++ B) =
        .ok [⟨"A", [sampleCode "A", sampleCode "A"], 3⟩, ⟨"B", [sampleCode "B"], 2⟩] ∧
      condense true .generatorOnly (A ++ C) =
        ("; Method A\n ret\n; Total bytes of code: 1\n\n".toList ++
          "; Method C\n ret\n; Total bytes of code: 4\n\n".toList, []) := by
  intro A B C
  have hA : methods .generatorOnly A = .ok [⟨"A", [sampleCode "A"], 1⟩] := by rfl
  have hB : methods .generatorOnly B =
      .ok [⟨"B", [sampleCode "B"], 2⟩, ⟨"A", [sampleCode "A"], 3⟩] := by rfl
  have hC : methods .generatorOnly C = .ok [⟨"C", [sampleCode "C"], 4⟩] := by rfl
  have hend : Text.IsEnded A := by decide +kernel
  obtain ⟨hshared, -⟩ := methods_append hA hB hend
  obtain ⟨-, hdisjoint⟩ := methods_append hA hC hend
  refine ⟨hshared, ?_⟩
  rw [hdisjoint (by decide +kernel) (by decide +kernel) (by decide)]
  decide +kernel

end Append

end Listing

end JitInspect
