import JitInspect.FlowGraph.Dump
import JitInspect.Proofs.Text.Pattern
import JitInspect.Proofs.Text.Trim

/-!
# Dumps behind one another

A dump is cut at the headers of its graphs, and no header can begin in one dump and end in another one
that starts with a header. So two such dumps are cut as if each were alone (`fragments_append`). What
remains is the counting: the phases of the second dump are counted on from those of the first one, in
the dump to its end and in the tier up to the phase with which a tier begins (`split_append`). A piece
that names no phase counts for nothing, so pieces of this kind may be put in front of every header.
-/

namespace JitInspect

namespace FlowGraph

variable {o a k m : ℕ} {f name written : Text} {fs gs : List Text} {e : LabelFault}
  {ps : List Phase}

/-! ### The pieces of a dump -/

section Fragments

/-- Behind a header a dump is cut as if nothing stood in front of it. -/
theorem fragments_append (d rest : Text) :
    fragments (d ++ (header ++ rest)) = fragments d ++ fragments rest :=
  Text.splitOn_append (by decide) d rest

/-- Graphs that hold no other header are the pieces behind a dump. -/
theorem fragments_graphs (hgs : ∀ g ∈ gs, ¬ header <:+: g) (d : Text) :
    fragments (d ++ gs.flatMap (header ++ ·)) = fragments d ++ gs := by
  induction gs generalizing d with
  | nil => simp
  | cons g gs ih =>
    obtain ⟨hg, hgs⟩ := List.forall_mem_cons.1 hgs
    have hpiece : fragments g = [g] := Text.splitOn_of_not_infix hg
    rw [List.flatMap_cons, ← List.append_assoc, ih hgs, fragments_append, hpiece, List.append_assoc]
    rfl

end Fragments

/-! ### Pieces without a phase -/

section Malformed

/-- A label as it is read: without quotes in front, and with a space for each written line break. -/
def labelOf (written : Text) : Text :=
  Text.replace "\\n" " " (Text.trimStart (· = '"') written)

/-- Why a piece names no phase: it has no label, or the label does not end, or it has no word "after",
or nothing is written behind that word. -/
inductive Malformed (f : Text) : Prop where
  | noLabel (hlabel : ¬ labelStart <:+: f)
  | unterminated {before rest : Text} (hlabel : Text.FirstAt labelStart f before rest)
      (hend : ¬ labelEnd <:+: rest)
  | noPhase {before rest written below : Text} (hlabel : Text.FirstAt labelStart f before rest)
      (hend : Text.FirstAt labelEnd rest written below) (hmark : ¬ phaseMark <:+: labelOf written)
  | emptyPhase {before rest written below above name : Text}
      (hlabel : Text.FirstAt labelStart f before rest)
      (hend : Text.FirstAt labelEnd rest written below)
      (hmark : labelOf written = above ++ (phaseMark ++ name)) (hname : Text.blank name = true)

/-- The last word "after" of a label stands where no other one stands behind it. -/
theorem splitLast_phaseMark (h : ¬ phaseMark <:+: ' ' :: name) (above : Text) :
    Text.splitLast phaseMark (above ++ (phaseMark ++ name)) = some (above, name) := by
  have hbehind : ¬ phaseMark <:+: phaseMark.tail ++ name := by
    have hword : ' ' ∉ ("after" : Text) := by decide
    exact fun hmark => h ((Text.infix_append_of_not_mem hword).1 hmark)
  have hlast := Text.splitLast_append (Text.splitLast_pattern hbehind) above
  exact hlast.trans (congrArg (fun before => some (before, name)) (List.append_nil above))

/-- A label without the mark has no phase in it. -/
theorem nameInLabel_of_no_mark (h : ¬ phaseMark <:+: labelOf written) :
    nameInLabel written = .error (.noPhase (labelOf written)) := by
  have hnone : Text.splitLast phaseMark (labelOf written) = none := Text.splitLast_eq_none_iff.2 h
  unfold labelOf at hnone ⊢
  simp only [nameInLabel, hnone]

/-- What stands behind the last word "after" of a label is its phase, if that is not blank. -/
theorem nameInLabel_of_mark {above : Text}
    (h : Text.splitLast phaseMark (labelOf written) = some (above, name)) :
    nameInLabel written = if Text.strip name = [] then .error (.emptyPhase (labelOf written))
      else .ok (Text.strip name) := by
  unfold labelOf at h ⊢
  simp only [nameInLabel, h, List.isEmpty_iff]

/-- The phase of a piece is the one in its label. -/
theorem phaseName_eq {before rest below : Text} (hlabel : Text.FirstAt labelStart f before rest)
    (hend : Text.FirstAt labelEnd rest written below) : phaseName f = nameInLabel written := by
  simp only [phaseName, Text.splitFirst_eq_some_iff.2 hlabel, Text.splitFirst_eq_some_iff.2 hend]

/-- Blank texts are those of which nothing is left. -/
theorem strip_eq_nil_iff : Text.strip name = [] ↔ Text.blank name = true := by
  rw [Text.strip, Text.trim_eq_nil_iff, Text.blank, List.all_eq_true]

/-- No word stands in front of or within blank text. -/
theorem not_phaseMark_of_blank (h : Text.blank name = true) : ¬ phaseMark <:+: ' ' :: name := by
  intro hmark
  have hmem : 'a' ∈ ' ' :: name := hmark.subset (by decide)
  rcases List.mem_cons.1 hmem with heq | hmem
  · exact absurd heq (by decide)
  · exact absurd (List.all_eq_true.1 h 'a' hmem) (by decide)

/-- The pieces that name no phase are the malformed ones. -/
theorem malformed_iff : Malformed f ↔ ∃ e, phaseName f = .error e := by
  constructor
  · intro h
    cases h with
    | noLabel hlabel =>
      refine ⟨.noLabel, ?_⟩
      simp only [phaseName, Text.splitFirst_eq_none_iff.2 hlabel]
    | unterminated hlabel hend =>
      refine ⟨.unterminated, ?_⟩
      simp only [phaseName, Text.splitFirst_eq_some_iff.2 hlabel, Text.splitFirst_eq_none_iff.2 hend]
    | noPhase hlabel hend hmark =>
      exact ⟨_, (phaseName_eq hlabel hend).trans (nameInLabel_of_no_mark hmark)⟩
    | @emptyPhase _ _ written _ above _ hlabel hend hmark hname =>
      have hlast := splitLast_phaseMark (not_phaseMark_of_blank hname) above
      rw [← hmark] at hlast
      refine ⟨.emptyPhase (labelOf written), (phaseName_eq hlabel hend).trans ?_⟩
      rw [nameInLabel_of_mark hlast, if_pos (strip_eq_nil_iff.2 hname)]
  · rintro ⟨e, he⟩
    cases hlabel : Text.splitFirst labelStart f with
    | none => exact .noLabel (Text.splitFirst_eq_none_iff.1 hlabel)
    | some parts =>
      have hfirst := Text.splitFirst_eq_some_iff.1 hlabel
      cases hend : Text.splitFirst labelEnd parts.2 with
      | none => exact .unterminated hfirst (Text.splitFirst_eq_none_iff.1 hend)
      | some inner =>
        have hsecond := Text.splitFirst_eq_some_iff.1 hend
        rw [phaseName_eq hfirst hsecond] at he
        cases hmark : Text.splitLast phaseMark (labelOf inner.1) with
        | none => exact .noPhase hfirst hsecond (Text.splitLast_eq_none_iff.1 hmark)
        | some ends =>
          rw [nameInLabel_of_mark hmark] at he
          split at he
          · next hblank =>
            exact .emptyPhase hfirst hsecond (Text.eq_append_of_splitLast hmark)
              (strip_eq_nil_iff.1 hblank)
          · cases he

/-- A blank piece has no label. -/
theorem malformed_of_blank (h : Text.blank f = true) : Malformed f := by
  refine .noLabel fun hlabel => ?_
  have hmem : 'g' ∈ f := hlabel.subset (by decide)
  exact absurd (List.all_eq_true.1 h 'g' hmem) (by decide)

end Malformed

/-! ### Counting -/

section Counting

/-- What became of the pieces when no phase is stored. -/
def results (o a : ℕ) (fs : List Text) : List (Except LogRecord Phase) :=
  ((number (σ := Unit) (fun p => pure (.ok p)) o a fs).run ()).1

/-- The phases of the pieces when so many phases stand in front of them in the tier and in the dump. -/
def phasesFrom (o a : ℕ) (fs : List Text) : List Phase := (Split.ofResults (results o a fs)).phases

/-- The warning for a piece, if there is one. -/
def warningOf (f : Text) : Option LogRecord :=
  if Text.blank f then none
  else
    match phaseName f with
    | .error e => some e.warning
    | .ok _ => none

/-- The number of phases in front of one in its tier: none in front of the phase with which a tier
begins. -/
def inTier (o : ℕ) (name : Text) : ℕ := if name = initialPhase then 0 else o

/-- The phase of a piece, by its name and the numbers of the phases in front of it. -/
def phaseOf (o a : ℕ) (name f : Text) : Phase :=
  ⟨inTier o name + 1, a + 1, fileNameOf name, graphOf f, none, none⟩

/-- A blank piece has no result. -/
theorem results_of_blank (h : Text.blank f = true) : results o a (f :: fs) = results o a fs := by
  unfold results
  rw [number, if_pos h]

/-- A malformed piece gives a warning, and numbers go on as if it were not there. -/
theorem results_of_error (h : Text.blank f = false) (hf : phaseName f = .error e) :
    results o a (f :: fs) = .error e.warning :: results o a fs := by
  unfold results
  rw [number, if_neg (Bool.eq_false_iff.1 h), hf]
  rfl

/-- A graph gives a phase, and the next numbers are one higher. -/
theorem results_of_ok (h : Text.blank f = false) (hf : phaseName f = .ok name) :
    results o a (f :: fs) =
      .ok (phaseOf o a name f) :: results (inTier o name + 1) (a + 1) fs := by
  unfold results
  rw [number, if_neg (Bool.eq_false_iff.1 h), hf]
  rfl

/-- A blank piece gives no phase. -/
theorem phasesFrom_of_blank (h : Text.blank f = true) :
    phasesFrom o a (f :: fs) = phasesFrom o a fs := by
  unfold phasesFrom
  rw [results_of_blank h]

/-- A piece that names no phase counts for nothing. -/
theorem phasesFrom_of_error (hf : phaseName f = .error e) :
    phasesFrom o a (f :: fs) = phasesFrom o a fs := by
  cases h : Text.blank f with
  | true => exact phasesFrom_of_blank h
  | false =>
    unfold phasesFrom
    rw [results_of_error h hf]
    rfl

/-- A piece that names a phase is counted. -/
theorem phasesFrom_of_ok (hf : phaseName f = .ok name) :
    phasesFrom o a (f :: fs) =
      phaseOf o a name f :: phasesFrom (inTier o name + 1) (a + 1) fs := by
  unfold phasesFrom
  cases h : Text.blank f with
  | true =>
    obtain ⟨e, he⟩ := malformed_iff.1 (malformed_of_blank h)
    rw [hf] at he
    cases he
  | false => rw [results_of_ok h hf]; rfl

/-- The warnings do not depend on the counting. -/
theorem warnings_results (o a : ℕ) (fs : List Text) :
    (Split.ofResults (results o a fs)).warnings = fs.filterMap warningOf := by
  induction fs generalizing o a with
  | nil => rfl
  | cons f fs ih =>
    cases h : Text.blank f with
    | true =>
      have hnone : warningOf f = none := if_pos h
      rw [results_of_blank h, ih, List.filterMap_cons_none hnone]
    | false =>
      cases hf : phaseName f with
      | error e =>
        have hsome : warningOf f = some e.warning := by simp [warningOf, h, hf]
        rw [results_of_error h hf, List.filterMap_cons_some hsome, ← ih o a]
        rfl
      | ok name =>
        have hnone : warningOf f = none := by simp [warningOf, h, hf]
        rw [results_of_ok h hf, List.filterMap_cons_none hnone,
          ← ih (inTier o name + 1) (a + 1)]
        rfl

/-- The ordinal of the last phase, or the number of phases in front of them if there is none. -/
def lastOrdinal (o : ℕ) (ps : List Phase) : ℕ := (ps.getLast?.map Phase.ordinal).getD o

theorem lastOrdinal_cons (o : ℕ) (p : Phase) (ps : List Phase) :
    lastOrdinal o (p :: ps) = lastOrdinal p.ordinal ps := by
  unfold lastOrdinal
  rw [List.getLast?_cons]
  cases ps.getLast? <;> rfl

/-- Pieces behind others are counted on from the phases of those. -/
theorem phasesFrom_append (o a : ℕ) (fs gs : List Text) :
    phasesFrom o a (fs ++ gs) = phasesFrom o a fs ++
      phasesFrom (lastOrdinal o (phasesFrom o a fs)) (a + (phasesFrom o a fs).length) gs := by
  induction fs generalizing o a with
  | nil => rfl
  | cons f fs ih =>
    rw [List.cons_append]
    cases hf : phaseName f with
    | error e => rw [phasesFrom_of_error hf, phasesFrom_of_error hf, ih]
    | ok name =>
      have hcount : a + ((phasesFrom (inTier o name + 1) (a + 1) fs).length + 1) =
          a + 1 + (phasesFrom (inTier o name + 1) (a + 1) fs).length := by omega
      rw [phasesFrom_of_ok hf, phasesFrom_of_ok hf, ih, lastOrdinal_cons, List.length_cons, hcount]
      rfl

/-- Pieces that name no phase may be put between others. -/
theorem phasesFrom_append_malformed (hgs : ∀ g ∈ gs, Malformed g) (o a : ℕ) (fs : List Text) :
    phasesFrom o a (gs ++ fs) = phasesFrom o a fs := by
  induction gs with
  | nil => rfl
  | cons g gs ih =>
    obtain ⟨hg, hgs⟩ := List.forall_mem_cons.1 hgs
    obtain ⟨e, he⟩ := malformed_iff.1 hg
    rw [List.cons_append, phasesFrom_of_error he, ih hgs]

/-- The phase with so many more phases in front of it in its tier and in the dump. -/
def Phase.behind (o a : ℕ) (p : Phase) : Phase :=
  { p with ordinal := o + p.ordinal, absoluteOrdinal := a + p.absoluteOrdinal }

/-- Whether the phase belongs to the tier of the one in front of it. -/
def Phase.goesOn (p : Phase) : Bool := p.name ≠ initialPhase

/-- Phases that are counted on from others. The tier of the others goes on up to the phase with which
a tier begins. -/
def continued (o a : ℕ) (ps : List Phase) : List Phase :=
  (ps.takeWhile Phase.goesOn).map (Phase.behind o a) ++
    (ps.dropWhile Phase.goesOn).map (Phase.behind 0 a)

theorem continued_cons_of_ne {p : Phase} (h : p.name ≠ initialPhase) :
    continued o a (p :: ps) = p.behind o a :: continued o a ps := by
  have hp : p.goesOn = true := decide_eq_true h
  rw [continued, List.takeWhile_cons_of_pos hp, List.dropWhile_cons_of_pos hp]
  rfl

/-- From a phase that begins a tier on only the attempts are counted behind. -/
theorem continued_cons_of_eq {p : Phase} (h : p.name = initialPhase) :
    continued o a (p :: ps) = (p :: ps).map (Phase.behind 0 a) := by
  have hp : ¬ p.goesOn = true := by simp [Phase.goesOn, h]
  rw [continued, List.takeWhile_cons_of_neg hp, List.dropWhile_cons_of_neg hp]
  rfl

theorem continued_zero (a : ℕ) (ps : List Phase) : continued 0 a ps = ps.map (Phase.behind 0 a) := by
  rw [continued, ← List.map_append, List.takeWhile_append_dropWhile]

/-- No other name is written as that of the phase with which a tier begins. -/
theorem fileNameOf_eq_initialPhase : fileNameOf name = initialPhase ↔ name = initialPhase := by
  constructor
  · intro h
    have hplain : ∀ c ∈ name, isForbiddenInFileName c = false := by
      intro c hc
      by_contra hforbidden
      have hmem : '_' ∈ initialPhase := by
        rw [← h]
        refine List.mem_map.2 ⟨c, hc, ?_⟩
        rw [if_pos (Bool.not_eq_false _ ▸ hforbidden)]
      exact absurd hmem (by decide)
    have hsame : fileNameOf name = name := by
      refine (List.map_congr_left fun c hc => ?_).trans (List.map_id name)
      rw [hplain c hc]
      rfl
    exact hsame.symm.trans h
  · rintro rfl
    decide

/-- Counting from other numbers changes the ordinals alone. -/
theorem phasesFrom_add (o a k m : ℕ) (fs : List Text) :
    phasesFrom (o + k) (a + m) fs = continued o a (phasesFrom k m fs) := by
  induction fs generalizing o k m with
  | nil => rfl
  | cons f fs ih =>
    cases hf : phaseName f with
    | error e => rw [phasesFrom_of_error hf, phasesFrom_of_error hf, ih]
    | ok name =>
      rw [phasesFrom_of_ok hf, phasesFrom_of_ok hf]
      by_cases hname : name = initialPhase
      · -- a tier begins, so that in it nothing in front of the piece counts
        have hp : (phaseOf k m name f).name = initialPhase := fileNameOf_eq_initialPhase.2 hname
        have hrest := ih 0 1 (m + 1)
        rw [continued_zero] at hrest
        rw [continued_cons_of_eq hp, List.map_cons, inTier, inTier, if_pos hname, if_pos hname,
          ← hrest, phaseOf, phaseOf, inTier, inTier, if_pos hname, if_pos hname]
        rfl
      · have hp : (phaseOf k m name f).name ≠ initialPhase := fun h =>
          hname (fileNameOf_eq_initialPhase.1 h)
        rw [continued_cons_of_ne hp, inTier, inTier, if_neg hname, if_neg hname,
          ← ih o (k + 1) (m + 1), phaseOf, phaseOf, inTier, inTier, if_neg hname, if_neg hname]
        rfl

end Counting

/-! ### Two dumps -/

section Append

/-- What is cut off behind a dump: nothing, or what a header stands in front of. -/
theorem exists_fragments_append {d₂ : Text} (h : d₂ = [] ∨ header <+: d₂) :
    ∃ fs, fragments d₂ = [] :: fs ∧ ∀ d₁, fragments (d₁ ++ d₂) = fragments d₁ ++ fs := by
  rcases h with rfl | ⟨rest, rfl⟩
  · exact ⟨[], rfl, fun d₁ => by rw [List.append_nil, List.append_nil]⟩
  · exact ⟨fragments rest, fragments_append [] rest, fun d₁ => fragments_append d₁ rest⟩

/-- The phases of two dumps, one behind the other, are those of the first one and, counted on from
them, those of the second one. Malformed graphs between two dumps change nothing. -/
theorem split_append (d₁ d₂ : Text) (h : d₂ = [] ∨ header <+: d₂) :
    (split (d₁ ++ d₂)).phases = (split d₁).phases ++
        continued (lastOrdinal 0 (split d₁).phases) (split d₁).phases.length (split d₂).phases ∧
      (split (d₁ ++ d₂)).warnings = (split d₁).warnings ++ (split d₂).warnings ∧
      ∀ gs : List Text, (∀ g ∈ gs, ¬ header <:+: g ∧ Malformed g) →
        (split (d₁ ++ gs.flatMap (header ++ ·) ++ d₂)).phases = (split (d₁ ++ d₂)).phases := by
  have hsplit : ∀ d, (split d).phases = phasesFrom 0 0 (fragments d) := fun _ => rfl
  have hwarned : ∀ d, (split d).warnings = (fragments d).filterMap warningOf := fun d =>
    warnings_results 0 0 (fragments d)
  obtain ⟨fs, hfs, hbehind⟩ := exists_fragments_append h
  have hphases : (split d₂).phases = phasesFrom 0 0 fs := by
    rw [hsplit, hfs, phasesFrom_of_blank rfl]
  refine ⟨?_, ?_, fun gs hgs => ?_⟩
  · rw [hphases, hsplit, hsplit, hbehind, phasesFrom_append, ← phasesFrom_add, Nat.add_zero,
      Nat.add_zero, Nat.zero_add]
  · rw [hwarned, hwarned, hwarned, hbehind, hfs, List.filterMap_append]
    rfl
  · rw [hsplit, hsplit, hbehind, hbehind, fragments_graphs (fun g hg => (hgs g hg).1),
      List.append_assoc, phasesFrom_append 0 0 (fragments d₁) (gs ++ fs),
      phasesFrom_append_malformed (fun g hg => (hgs g hg).2), ← phasesFrom_append]

/-- A graph that names a phase. -/
def sampleGraph (name : Text) : Text :=
  header ++ "\n    graph [label = \"F\\nafter " ++ name ++ "\"];\n\x7d\n"

/-- The tier of the first dump goes on in the second one until that begins a tier. The graph without a
label between them is not counted. -/
theorem split_append_of_tiers :
    let d₁ := sampleGraph "A" ++ sampleGraph "B"
    let d₂ := sampleGraph "C" ++ sampleGraph "Pre-import" ++ sampleGraph "D"
    let gs : List Text := ["\n\x7d\n"]
    header <+: d₂ ∧ (∀ g ∈ gs, ¬ header <:+: g ∧ Malformed g) ∧
      (split (d₁ ++ gs.flatMap (header ++ ·) ++ d₂)).phases.map
          (fun p => (p.ordinal, p.absoluteOrdinal, p.name)) =
        ([(1, 1, "A"), (2, 2, "B"), (3, 3, "C"), (1, 4, "Pre-import"), (2, 5, "D")] :
          List (ℕ × ℕ × Text)) := by
  intro d₁ d₂ gs
  have hd₂ : header <+: d₂ := by
    simp only [d₂, sampleGraph, List.append_assoc]
    exact List.prefix_append _ _
  have hgs : ∀ g ∈ gs, ¬ header <:+: g ∧ Malformed g := by
    refine List.forall_mem_singleton.2 ⟨by decide, .noLabel (by decide)⟩
  obtain ⟨hphases, -, hmalformed⟩ := split_append d₁ d₂ (Or.inr hd₂)
  refine ⟨hd₂, hgs, ?_⟩
  rw [hmalformed gs hgs, hphases]
  decide +kernel

end Append

end FlowGraph

end JitInspect
