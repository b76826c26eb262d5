import JitInspect.Proofs.FlowGraph.Numbering

/-!
# Written graphs are read back

A graph is written with its header, a label of a title and a phase, and a body. Titles are names of
methods and bodies are arbitrary, so either of them may hold what delimits a graph or a label. A
written graph is unambiguous if its phase and its title hold no delimiter and it holds its header only
once (`WrittenGraph.Unambiguous`). A dump of unambiguous graphs is read back graph by graph
(`split_written`).

The quote in front of a label and the beginning of a title may also make the end of a label. Then the
label is read as empty, so that the theorem has this one condition more, and it is needed
(`split_written_fails`).
-/

namespace JitInspect

namespace FlowGraph

/-- A graph as it is written: the title and the phase of its label, and what stands below. -/
structure WrittenGraph where
  title : Text
  phase : Text
  body : Text

namespace WrittenGraph

variable {g : WrittenGraph}

/-- What is written behind the header. -/
def piece (g : WrittenGraph) : Text :=
  "\n    graph [label = \"" ++ g.title ++ "\\nafter " ++ g.phase ++ "\"];\n" ++ g.body ++ "\x7d\n"

/-- The graph in a dump. -/
def text (g : WrittenGraph) : Text := header ++ g.piece

/-- No part of the graph can be taken for one that delimits it. -/
structure Unambiguous (g : WrittenGraph) : Prop where
  phase_ne_nil : g.phase ≠ []
  strip_phase : Text.strip g.phase = g.phase
  not_end_phase : ¬ labelEnd <:+: g.phase
  not_break_phase : ¬ "\\n" <:+: g.phase
  not_mark_phase : ¬ phaseMark <:+: ' ' :: g.phase
  not_end_title : ¬ labelEnd <:+: g.title
  header_once : ∀ above below, g.text = above ++ (header ++ below) → above = []

/-- The label of the graph as it is written. -/
def label (g : WrittenGraph) : Text := '"' :: (g.title ++ '\\' :: ("nafter " ++ g.phase))

/-- What is written below the label. -/
def below (g : WrittenGraph) : Text := '\n' :: (g.body ++ "\x7d\n")

end WrittenGraph

section Reading

variable {g : WrittenGraph} {t : Text}

/-- A header does not begin within another one. -/
theorem header_once_iff :
    (∀ above below, header ++ t = above ++ (header ++ below) → above = []) ↔ ¬ header <:+: t := by
  constructor
  · rintro honce ⟨above, below, rfl⟩
    have hshape : header ++ (above ++ header ++ below) = header ++ above ++ (header ++ below) := by
      rw [List.append_assoc, List.append_assoc]
    have hnil := honce (header ++ above) below hshape
    exact absurd (List.append_eq_nil_iff.1 hnil).1 (by decide)
  · intro hnot above below heq
    cases above with
    | nil => rfl
    | cons c cs =>
      have hword : 'd' ∉ header.tail := by decide
      have hoccurs : header <:+: header.tail ++ t :=
        ⟨cs, below, (List.append_assoc _ _ _).trans (List.cons.inj heq).2.symm⟩
      exact absurd ((Text.infix_append_of_not_mem hword).1 hoccurs) hnot

/-- A graph is written as its label between the marks of one, and the body. -/
theorem piece_eq (g : WrittenGraph) :
    g.piece = "\n    " ++ (labelStart ++ (g.label ++ (labelEnd ++ g.below))) := by
  have hopen : ("\n    graph [label = \"" : Text) = "\n    " ++ (labelStart ++ ['"']) := rfl
  have hword : ("\\nafter " : Text) = '\\' :: "nafter " := rfl
  have hclose : ("\"];\n" : Text) = labelEnd ++ ['\n'] := rfl
  unfold WrittenGraph.piece WrittenGraph.label WrittenGraph.below
  simp only [hopen, hword, hclose, List.append_assoc, List.cons_append, List.nil_append]

/-- No label ends within the one that is written, if the title does not begin with the rest of an
end. -/
theorem not_end_label (hg : g.Unambiguous) (htitle : ¬ "];" <+: g.title) :
    ¬ labelEnd <:+: g.label := by
  have hquote : '"' ∉ ("nafter " : Text) := by decide
  intro hend
  rcases List.infix_cons_iff.1 hend with hstart | hrest
  · have hopens : ("];" : Text) <+: g.title ++ '\\' :: ("nafter " ++ g.phase) :=
      (List.cons_prefix_cons.1 hstart).2
    rw [← not_not (a := _ <+: _), ← Text.after?_eq_none_iff,
      Text.after?_append_cons (by decide), Option.map_eq_none_iff, Text.after?_eq_none_iff] at hopens
    exact hopens htitle
  · rcases (Text.infix_append_cons_of_not_mem (by decide)).1 hrest with hintitle | hinphase
    · exact hg.not_end_title hintitle
    · exact hg.not_end_phase ((Text.infix_append_of_not_mem hquote).1 hinphase)

/-- The word "after" in front of the phase stands in the label that is read. -/
theorem labelOf_label (hg : g.Unambiguous) :
    ∃ above, labelOf g.label = above ++ (phaseMark ++ g.phase) := by
  have hword : '\\' ∉ ("after " : Text) := by decide
  have hbreak : ¬ ("\\n" : Text) <:+: "after " ++ g.phase := fun h =>
    hg.not_break_phase ((Text.infix_append_of_not_mem hword).1 h)
  refine ⟨Text.replace "\\n" " " (Text.trimStart (· = '"') ('"' :: g.title)), ?_⟩
  rw [labelOf, WrittenGraph.label, ← List.cons_append, Text.trimStart_append (by decide)]
  have hleads : Text.LeadsOnce "\\n" := by decide
  have hcut := Text.replace_append hleads " " (Text.trimStart (· = '"') ('"' :: g.title))
    ("after " ++ g.phase)
  rw [Text.replace_of_not_infix hbreak, List.append_assoc] at hcut
  exact hcut

/-- The phase of an unambiguous graph is read. -/
theorem phaseName_piece (hg : g.Unambiguous) (htitle : ¬ "];" <+: g.title) :
    phaseName g.piece = .ok g.phase := by
  have hlabel : Text.FirstAt labelStart g.piece "\n    " (g.label ++ (labelEnd ++ g.below)) := by
    rw [piece_eq]
    exact Text.firstAt_append (by decide) (by decide) _
  have hend : Text.FirstAt labelEnd (g.label ++ (labelEnd ++ g.below)) g.label g.below :=
    Text.firstAt_append (by decide) (not_end_label hg htitle) _
  obtain ⟨above, habove⟩ := labelOf_label hg
  have hmark := splitLast_phaseMark hg.not_mark_phase above
  rw [← habove] at hmark
  rw [phaseName_eq hlabel hend, nameInLabel_of_mark hmark, hg.strip_phase, if_neg hg.phase_ne_nil]

/-- Pieces that name phases are read as these phases. -/
theorem map_phasesFrom {gs : List WrittenGraph} (hgs : ∀ g ∈ gs, phaseName g.piece = .ok g.phase)
    (o a : ℕ) :
    (phasesFrom o a (gs.map WrittenGraph.piece)).map (fun p => (p.name, p.graph)) =
      gs.map fun g => (fileNameOf g.phase, graphOf g.piece) := by
  induction gs generalizing o a with
  | nil => rfl
  | cons g gs ih =>
    obtain ⟨hg, hgs⟩ := List.forall_mem_cons.1 hgs
    rw [List.map_cons, phasesFrom_of_ok hg, List.map_cons, ih hgs, List.map_cons]
    rfl

/-- A dump of unambiguous graphs, none with a title that ends the label, is split into one phase for
each graph, in order, with its name and its text. -/
theorem split_written (gs : List WrittenGraph)
    (hgs : ∀ g ∈ gs, g.Unambiguous ∧ ¬ "];" <+: g.title) :
    (split (gs.flatMap WrittenGraph.text)).phases.map (fun p => (p.name, p.graph)) =
      gs.map fun g => (fileNameOf g.phase, header ++ "\n" ++ g.piece) := by
  have hheaders : ∀ f ∈ gs.map WrittenGraph.piece, ¬ header <:+: f := by
    intro f hf
    obtain ⟨g, hg, rfl⟩ := List.mem_map.1 hf
    exact header_once_iff.1 (hgs g hg).1.header_once
  have hfragments := fragments_graphs hheaders []
  have hdump : (gs.map WrittenGraph.piece).flatMap (header ++ ·) = gs.flatMap WrittenGraph.text :=
    List.flatMap_map _ _ gs
  rw [List.nil_append, hdump] at hfragments
  have hphases : (split (gs.flatMap WrittenGraph.text)).phases =
      phasesFrom 0 0 (gs.map WrittenGraph.piece) := by
    change phasesFrom 0 0 (fragments (gs.flatMap WrittenGraph.text)) = _
    rw [hfragments]
    exact phasesFrom_of_blank rfl
  rw [hphases]
  exact map_phasesFrom (fun g hg => phaseName_piece (hgs g hg).1 (hgs g hg).2) 0 0

/-- A method and a body with much of what delimits a graph, and two phases of it, one with a name that
is changed. -/
theorem split_written_of_two :
    let title : Text := "N:M(System.String[]):int after ] ; \\"
    let gs : List WrittenGraph := [⟨title, "Pre-import", "    graph [label = \"a after b\"];\n"⟩,
      ⟨title, "Import: a/b", "\x7d\n    BB01 -> BB02;\n"⟩]
    (∀ g ∈ gs, g.Unambiguous ∧ ¬ "];" <+: g.title) ∧
      (split (gs.flatMap WrittenGraph.text)).phases.map (fun p => (p.name, p.graph)) =
        gs.map fun g => (fileNameOf g.phase, header ++ "\n" ++ g.piece) := by
  intro title gs
  have hgs : ∀ g ∈ gs, g.Unambiguous ∧ ¬ "];" <+: g.title := by
    rw [List.forall_mem_cons, List.forall_mem_singleton]
    refine ⟨⟨?_, by decide⟩, ?_, by decide⟩ <;>
      exact ⟨by decide, by decide, by decide, by decide, by decide, by decide,
        header_once_iff.2 (by decide +kernel)⟩
  exact ⟨hgs, split_written gs hgs⟩

/-- An unambiguous graph of which the title ends the label is not read. -/
theorem split_written_fails :
    ¬ ∀ gs : List WrittenGraph, (∀ g ∈ gs, g.Unambiguous) →
      (split (gs.flatMap WrittenGraph.text)).phases.map (fun p => (p.name, p.graph)) =
        gs.map fun g => (fileNameOf g.phase, header ++ "\n" ++ g.piece) := by
  intro h
  have hg : WrittenGraph.Unambiguous ⟨"];", "N", []⟩ :=
    ⟨by decide, by decide, by decide, by decide, by decide, by decide,
      header_once_iff.2 (by decide)⟩
  have hone := congrArg List.length (h [⟨"];", "N", []⟩] (List.forall_mem_singleton.2 hg))
  exact absurd hone (by decide +kernel)

end Reading

end FlowGraph

end JitInspect
