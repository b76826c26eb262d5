import JitInspect.Proofs.Listing.Markers
import JitInspect.Proofs.Text.Decimal

/-!
# The sections of a condensed listing

A method of a listing is condensed to a section: its name, its code with an empty line between two
blocks, its size and an empty line (`MethodRecord.sectionLines`). A condensed listing is read back line
by line as the sections of its methods (`lineBodies_renderMethods`), and no two listings with different
records are condensed to the same text (`sections_inj`).

The line with the name is ended by the first block of code. So a method without code has one line with
both its name and its size (`MethodRecord.renderedLines`, `renderMethods_joins_lines`).
-/

namespace JitInspect

namespace Listing

variable {source : Source} {method raw : Text} {previous : Option BlockKind} {ls ls' : List Text}
  {es : List Entry} {b : Block} {bs : List Block} {r s : MethodRecord} {rs ss : List MethodRecord}

/-! ### What a record can hold -/

section Listed

/-- Whether a record can come from a listing: its name and its code stand on lines, and the code is
code. -/
structure MethodRecord.IsListed (r : MethodRecord) : Prop where
  name : Text.IsBody r.name
  owned : ∀ b ∈ r.code, b.method = r.name ∧ b.kind = .code
  written : ∀ b ∈ r.code, b.lines ≠ []
  body : ∀ b ∈ r.code, ∀ l ∈ b.lines, Text.IsBody l
  code : ∀ b ∈ r.code, ∀ l ∈ b.lines, l ≠ [] ∧ l.head? ≠ some ';'

/-- The name of an entry stands on a line, -/
theorem Scans.isBody_method (h : Scans source method previous ls es) (hmethod : Text.IsBody method)
    (hls : ∀ l ∈ ls, Text.IsBody l) : ∀ e ∈ es, Text.IsBody e.method := by
  induction h with
  | nil => exact fun e he => absurd he List.not_mem_nil
  | @marker _ name l _ _ _ hl _ ih =>
    obtain ⟨hline, hls⟩ := List.forall_mem_cons.1 hls
    have hname : Text.IsBody name := by
      intro c hc
      refine hline c ?_
      rw [Text.eq_append_of_after? hl]
      exact List.mem_append_right _ hc
    exact ih hname hls
  | passed _ _ _ ih => exact ih hmethod (List.forall_mem_cons.1 hls).2
  | entry _ _ _ ih =>
    exact List.forall_mem_cons.2 ⟨hmethod, ih hmethod (List.forall_mem_cons.1 hls).2⟩

/-- and its line is one of those that are scanned. -/
theorem Scans.line_mem (h : Scans source method previous ls es) : ∀ e ∈ es, e.line ∈ ls := by
  induction h with
  | nil => exact fun e he => absurd he List.not_mem_nil
  | marker _ _ ih => exact fun e he => List.mem_cons_of_mem _ (ih e he)
  | passed _ _ _ ih => exact fun e he => List.mem_cons_of_mem _ (ih e he)
  | entry _ _ _ ih =>
    exact List.forall_mem_cons.2 ⟨List.mem_cons_self, fun e he => List.mem_cons_of_mem _ (ih e he)⟩

/-- The records of a listing come from it. -/
theorem isListed_of_methods (h : methods source raw = .ok rs) : ∀ r ∈ rs, r.IsListed := by
  rw [methods] at h
  cases hbs : scanBlocks source raw with
  | error f =>
    rw [hbs] at h
    cases h
  | ok bs =>
    rw [hbs] at h
    obtain ⟨es, hscan, rfl⟩ := scanBlocks_eq_ok_iff.1 hbs
    obtain ⟨hnames, hrecords⟩ := names_of_recordsOf h
    have hbodies : ∀ l ∈ Text.writtenLines raw, Text.IsBody l := fun l hl =>
      Text.isBody_of_mem_lineBodies (List.mem_of_mem_filter hl)
    intro r hr
    obtain ⟨-, hcode, -⟩ := recordOf_eq_ok_iff.1 (hrecords r hr)
    have hown : ∀ b ∈ r.code, b ∈ groupEntries es ∧ b.method = r.name ∧ b.kind = .code := by
      intro b hb
      rw [hcode] at hb
      obtain ⟨hmem, hsame⟩ := List.mem_filter.1 hb
      exact ⟨hmem, of_decide_eq_true hsame⟩
    have hlines : ∀ b ∈ r.code, ∀ l ∈ b.lines, l ∈ Text.writtenLines raw ∧ kindOf l = .code := by
      intro b hb l hl
      obtain ⟨hmem, -, hkind⟩ := hown b hb
      obtain ⟨e, he, -, hekind, rfl⟩ := exists_entry_of_mem hscan.isChain hmem hl
      exact ⟨hscan.line_mem e he, (hscan.kind_eq e he).symm.trans (hekind.trans hkind)⟩
    constructor
    case name =>
      have hblock : r.name ∈ distinct ((groupEntries es).map Block.method) :=
        hnames ▸ List.mem_map_of_mem hr
      obtain ⟨b, hb, hmethod⟩ := List.mem_map.1 (mem_distinct.1 hblock)
      obtain ⟨l, hl⟩ := List.exists_mem_of_ne_nil _ (lines_ne_nil hb)
      obtain ⟨e, he, hsame, -⟩ := exists_entry_of_mem hscan.isChain hb hl
      have hentry := hscan.isBody_method Text.IsBody.nil hbodies e he
      rwa [hsame, hmethod] at hentry
    case owned => exact fun b hb => (hown b hb).2
    case written => exact fun b hb => lines_ne_nil (hown b hb).1
    case body => exact fun b hb l hl => hbodies l (hlines b hb l hl).1
    case code =>
      intro b hb l hl
      obtain ⟨hwritten, hkind⟩ := hlines b hb l hl
      refine ⟨?_, (kindOf_eq_code_iff l).1 hkind⟩
      rintro rfl
      obtain ⟨-, hblank⟩ := List.mem_filter.1 hwritten
      exact absurd hblank (by decide)

end Listed

/-! ### The lines of a section -/

section Lines

/-- The words in front of the size of a condensed method. -/
def trailerStart : Text := "; Total bytes of code: "

namespace MethodRecord

/-- The line with the name of the method. -/
def heading (r : MethodRecord) : Text := "; Method " ++ r.name

/-- The line with its size. -/
def trailer (r : MethodRecord) : Text := trailerStart ++ Text.ofInt r.size

/-- The lines of its code, with an empty line between two blocks. -/
def codeLines (r : MethodRecord) : List Text := [[]].intercalate (r.code.map Block.lines)

/-- The lines of its section. -/
def sectionLines (r : MethodRecord) : List Text := r.heading :: (r.codeLines ++ [r.trailer, []])

/-- The lines that it is rendered to: without code the name and the size are on one line. -/
def renderedLines (r : MethodRecord) : List Text :=
  if r.code = [] then [r.heading ++ r.trailer, []] else r.sectionLines

end MethodRecord

/-- The text of code blocks ends the line in front of it and goes on with their lines. -/
theorem flatten_texts (hbs : bs ≠ []) : (bs.map Block.text).flatten =
    '\n' :: Text.unlines ([[]].intercalate (bs.map Block.lines)) := by
  induction bs with
  | nil => exact absurd rfl hbs
  | cons b bs ih =>
    cases bs with
    | nil => simp [Block.text, Text.unlines]
    | cons c bs =>
      have hrest := ih (List.cons_ne_nil c bs)
      have hlines : [[]].intercalate ((b :: c :: bs).map Block.lines) =
          b.lines ++ [[]] ++ [[]].intercalate ((c :: bs).map Block.lines) :=
        List.intercalate_cons_cons
      rw [List.map_cons, List.flatten_cons, hrest, hlines, Text.unlines_append,
        Text.unlines_append]
      simp [Block.text, Text.unlines]

/-- A record is rendered to its lines. -/
theorem render_eq (r : MethodRecord) : r.render = Text.unlines r.renderedLines := by
  have htext : r.render =
      r.heading ++ ((r.code.map Block.text).flatten ++ (r.trailer ++ "\n\n".toList)) := by
    unfold MethodRecord.render condensedSection MethodRecord.heading MethodRecord.trailer trailerStart
    simp only [List.append_assoc]
  have hend : "\n\n".toList = ['\n', '\n'] := rfl
  rw [htext, hend, MethodRecord.renderedLines]
  split
  · next hcode => simp [hcode, Text.unlines]
  · next hcode =>
    have hcons : r.sectionLines = [r.heading] ++ (r.codeLines ++ [r.trailer, []]) := rfl
    rw [flatten_texts hcode, hcons, Text.unlines_append, Text.unlines_append,
      MethodRecord.codeLines]
    simp [Text.unlines]

/-- Records are rendered line by line. -/
theorem renderMethods_eq (rs : List MethodRecord) :
    renderMethods rs = Text.unlines (rs.flatMap MethodRecord.renderedLines) := by
  induction rs with
  | nil => rfl
  | cons r rs ih =>
    have hcons : renderMethods (r :: rs) = r.render ++ renderMethods rs := rfl
    rw [hcons, ih, render_eq, List.flatMap_cons, Text.unlines_append]

/-- A property of the code lines and of the empty line. -/
theorem forall_mem_codeLines {p : Text → Prop} (hnil : p [])
    (h : ∀ b ∈ r.code, ∀ l ∈ b.lines, p l) : ∀ l ∈ r.codeLines, p l := by
  unfold MethodRecord.codeLines
  generalize r.code = bs at h
  induction bs with
  | nil => exact fun l hl => absurd hl List.not_mem_nil
  | cons b bs ih =>
    obtain ⟨hb, hbs⟩ := List.forall_mem_cons.1 h
    cases bs with
    | nil =>
      rw [List.map_singleton, List.intercalate_singleton]
      exact hb
    | cons c bs =>
      rw [List.map_cons, List.map_cons, List.intercalate_cons_cons, ← List.map_cons]
      intro l hl
      rcases List.mem_append.1 hl with hfirst | hrest
      · rcases List.mem_append.1 hfirst with hl | hl
        · exact hb l hl
        · exact List.mem_singleton.1 hl ▸ hnil
      · exact ih hbs l hrest

/-- The lines that a listed record is rendered to contain nothing that ends a line. -/
theorem MethodRecord.IsListed.isBody (hr : r.IsListed) : ∀ l ∈ r.renderedLines, Text.IsBody l := by
  have hheading : Text.IsBody r.heading := Text.IsBody.append (by decide +kernel) hr.name
  have htrailer : Text.IsBody r.trailer :=
    Text.IsBody.append (by decide +kernel) (Text.isBody_ofInt r.size)
  unfold MethodRecord.renderedLines
  split
  · simp only [List.forall_mem_cons]
    exact ⟨hheading.append htrailer, Text.IsBody.nil, fun l hl => absurd hl List.not_mem_nil⟩
  · refine List.forall_mem_cons.2 ⟨hheading, List.forall_mem_append.2 ⟨?_, ?_⟩⟩
    · exact forall_mem_codeLines Text.IsBody.nil hr.body
    · simp only [List.forall_mem_cons]
      exact ⟨htrailer, Text.IsBody.nil, fun l hl => absurd hl List.not_mem_nil⟩

end Lines

/-! ### Sections read back -/

section Reading

/-- The name and the size of a method are told apart also on one line, since the words in front of the
size come last in it. -/
theorem joined_inj (h : r.heading ++ r.trailer = s.heading ++ s.trailer) :
    r.heading = s.heading ∧ r.size = s.size := by
  have hlast : ∀ r : MethodRecord, Text.splitLast trailerStart (r.heading ++ r.trailer) =
      some (r.heading, Text.ofInt r.size) := by
    intro r
    obtain ⟨words, hstart, honce⟩ : ∃ words, trailerStart = ';' :: words ∧ ';' ∉ words :=
      ⟨_, rfl, by decide +kernel⟩
    have hsize : ';' ∉ Text.ofInt r.size := by
      intro hmem
      rcases Text.eq_minus_or_isDigit hmem with hminus | hdigit
      · exact absurd hminus (by decide)
      · exact absurd hdigit (by decide)
    have hfree : ';' ∉ words ++ Text.ofInt r.size := by
      rw [List.mem_append, not_or]
      exact ⟨honce, hsize⟩
    rw [MethodRecord.trailer, hstart]
    exact Text.splitLast_append_pattern hfree r.heading
  have hparts := hlast r
  rw [h, hlast s] at hparts
  obtain ⟨hheading, hsize⟩ := Prod.mk.inj (Option.some.inj hparts)
  exact ⟨hheading.symm, Text.ofInt_injective hsize.symm⟩

/-- A heading tells the name. -/
theorem name_of_heading (h : r.heading = s.heading) : r.name = s.name := List.append_cancel_left h

/-- A trailer tells the size. -/
theorem size_of_trailer (h : r.trailer = s.trailer) : r.size = s.size :=
  Text.ofInt_injective (List.append_cancel_left h)

/-- Code is cut off at the first line that starts with a semicolon. -/
theorem takeWhile_code {l : Text} (hls : ∀ x ∈ ls, x.head? ≠ some ';') (hl : l.head? = some ';')
    (ls' : List Text) : (ls ++ l :: ls').takeWhile (fun x => x.head? ≠ some ';') = ls := by
  rw [List.takeWhile_append_of_pos fun x hx => decide_eq_true (hls x hx),
    List.takeWhile_cons_of_neg (by simpa using hl), List.append_nil]

/-- A record is its name, its code and its size. -/
theorem eq_of_fields (hname : r.name = s.name) (hcode : r.code = s.code) (hsize : r.size = s.size) :
    r = s := by
  cases r
  cases s
  simp only at hname hcode hsize
  rw [hname, hcode, hsize]

namespace MethodRecord.IsListed

/-- The lines of some code begin with a line that is not empty. -/
theorem head_codeLines (hr : r.IsListed) (hcode : r.code ≠ []) :
    ∃ l ls, r.codeLines = l :: ls ∧ l ≠ [] := by
  obtain ⟨b, bs, hbs⟩ := List.exists_cons_of_ne_nil hcode
  have hb : b ∈ r.code := hbs ▸ List.mem_cons_self
  obtain ⟨l, ls, hls⟩ := List.exists_cons_of_ne_nil (hr.written b hb)
  have hl : l ≠ [] := (hr.code b hb l (hls ▸ List.mem_cons_self)).1
  unfold MethodRecord.codeLines
  rw [hbs]
  cases bs with
  | nil =>
    rw [List.map_singleton, List.intercalate_singleton, hls]
    exact ⟨l, ls, rfl, hl⟩
  | cons c bs =>
    rw [List.map_cons, List.map_cons, List.intercalate_cons_cons, hls]
    exact ⟨l, _, rfl, hl⟩

/-- The code of a method is told from its name and its lines, which an empty line cuts into blocks. -/
theorem code_inj (hr : r.IsListed) (hs : s.IsListed) (hrcode : r.code ≠ []) (hscode : s.code ≠ [])
    (hname : r.name = s.name) (h : r.codeLines = s.codeLines) : r.code = s.code := by
  have hsplit : ∀ {r : MethodRecord}, r.IsListed → r.code ≠ [] →
      r.codeLines.splitOn [] = r.code.map Block.lines := by
    intro r hr hcode
    refine List.splitOn_intercalate [] (fun ls hls hnil => ?_) (by simpa using hcode)
    obtain ⟨b, hb, rfl⟩ := List.mem_map.1 hls
    exact (hr.code b hb [] hnil).1 rfl
  have hblocks : ∀ {r : MethodRecord}, r.IsListed →
      (r.code.map Block.lines).map (Block.mk r.name .code) = r.code := by
    intro r hr
    rw [List.map_map]
    refine (List.map_congr_left fun b hb => ?_).trans (List.map_id _)
    obtain ⟨hmethod, hkind⟩ := hr.owned b hb
    rw [Function.comp_apply, ← hmethod, ← hkind]
    rfl
  rw [← hblocks hr, ← hsplit hr hrcode, h, hname, hsplit hs hscode, hblocks hs]

/-- Below the first line of a section with code there is code, and without code an empty line. -/
theorem renderedLines_append_ne (hs : s.IsListed) (hrcode : r.code = []) (hscode : s.code ≠ []) :
    r.renderedLines ++ ls ≠ s.renderedLines ++ ls' := by
  intro h
  obtain ⟨l, below, hlines, hl⟩ := hs.head_codeLines hscode
  rw [renderedLines, renderedLines, if_pos hrcode, if_neg hscode, sectionLines, hlines] at h
  obtain ⟨-, hrest⟩ := List.cons.inj h
  exact hl (List.cons.inj hrest).1.symm

/-- A section is told from what stands behind it. -/
theorem renderedLines_append_inj (hr : r.IsListed) (hs : s.IsListed)
    (h : r.renderedLines ++ ls = s.renderedLines ++ ls') : r = s ∧ ls = ls' := by
  by_cases hrcode : r.code = []
  · by_cases hscode : s.code = []
    · rw [renderedLines, renderedLines, if_pos hrcode, if_pos hscode] at h
      obtain ⟨hjoined, hrest⟩ := List.cons.inj h
      obtain ⟨hheading, hsize⟩ := joined_inj hjoined
      have hcode : r.code = s.code := hrcode.trans hscode.symm
      exact ⟨eq_of_fields (name_of_heading hheading) hcode hsize, (List.cons.inj hrest).2⟩
    · exact absurd h (hs.renderedLines_append_ne hrcode hscode)
  · by_cases hscode : s.code = []
    · exact absurd h.symm (hr.renderedLines_append_ne hscode hrcode)
    · have hlines : ∀ {r : MethodRecord} (ls : List Text), r.code ≠ [] →
          r.renderedLines ++ ls = r.heading :: (r.codeLines ++ r.trailer :: [] :: ls) := by
        intro r ls hcode
        rw [renderedLines, if_neg hcode, sectionLines]
        simp
      have hcut : ∀ {r : MethodRecord} (ls : List Text), r.IsListed →
          (r.codeLines ++ r.trailer :: [] :: ls).takeWhile (fun x => x.head? ≠ some ';') =
            r.codeLines := by
        intro r ls hr
        refine takeWhile_code (forall_mem_codeLines (by decide) fun b hb l hl => ?_) rfl _
        exact (hr.code b hb l hl).2
      rw [hlines ls hrcode, hlines ls' hscode] at h
      obtain ⟨hheading, hrest⟩ := List.cons.inj h
      have hcode : r.codeLines = s.codeLines := by rw [← hcut ls hr, hrest, hcut ls' hs]
      rw [hcode] at hrest
      obtain ⟨htrailer, hbelow⟩ := List.cons.inj (List.append_cancel_left hrest)
      have hname : r.name = s.name := name_of_heading hheading
      have hblocks : r.code = s.code := hr.code_inj hs hrcode hscode hname hcode
      exact ⟨eq_of_fields hname hblocks (size_of_trailer htrailer), (List.cons.inj hbelow).2⟩

end MethodRecord.IsListed

/-- The sections of several methods are told one by one. -/
theorem sections_inj (hrs : ∀ r ∈ rs, r.IsListed) (hss : ∀ s ∈ ss, s.IsListed)
    (h : rs.flatMap MethodRecord.renderedLines = ss.flatMap MethodRecord.renderedLines) :
    rs = ss := by
  have hne : ∀ (r : MethodRecord) (ls : List Text), r.renderedLines ++ ls ≠ [] := by
    intro r ls hnil
    rw [MethodRecord.renderedLines] at hnil
    split at hnil <;> exact absurd hnil (List.cons_ne_nil _ _)
  induction rs generalizing ss with
  | nil =>
    cases ss with
    | nil => rfl
    | cons s ss => exact absurd h.symm (hne s _)
  | cons r rs ih =>
    cases ss with
    | nil => exact absurd h (hne r _)
    | cons s ss =>
      obtain ⟨hr, hrbelow⟩ := List.forall_mem_cons.1 hrs
      obtain ⟨hs, hsbelow⟩ := List.forall_mem_cons.1 hss
      rw [List.flatMap_cons, List.flatMap_cons] at h
      obtain ⟨hsame, hrest⟩ := hr.renderedLines_append_inj hs h
      rw [hsame, ih hrbelow hsbelow hrest]

/-- The lines of sections contain nothing that ends a line. -/
theorem isBody_sections (hrs : ∀ r ∈ rs, r.IsListed) :
    ∀ l ∈ rs.flatMap MethodRecord.renderedLines, Text.IsBody l := by
  intro l hl
  obtain ⟨r, hr, hl⟩ := List.mem_flatMap.1 hl
  exact (hrs r hr).isBody l hl

/-- Rendered records are read back line by line, -/
theorem lineBodies_renderMethods (hrs : ∀ r ∈ rs, r.IsListed) :
    Text.lineBodies (renderMethods rs) = rs.flatMap MethodRecord.renderedLines := by
  rw [renderMethods_eq, Text.lineBodies_unlines (isBody_sections hrs)]

/-- also when a text follows. -/
theorem lineBodies_renderMethods_append (hrs : ∀ r ∈ rs, r.IsListed) (t : Text) :
    Text.lineBodies (renderMethods rs ++ t) =
      rs.flatMap MethodRecord.renderedLines ++ Text.lineBodies t := by
  rw [renderMethods_eq, Text.lineBodies_unlines_append (isBody_sections hrs)]

end Reading

/-! ### Condensed listings -/

section Condensed

/-- The records of a listing are rendered to a section each. In a section with code the name, the lines
of code and the size stand on lines of their own, with one empty line between two blocks of code; in one
without code the name and the size share a line. The records can be read back from the text. -/
theorem renderMethods_lines (h : methods source raw = .ok rs) :
    Text.lineBodies (renderMethods rs) = rs.flatMap MethodRecord.renderedLines ∧
      ((∀ r ∈ rs, r.code ≠ []) →
        Text.lineBodies (renderMethods rs) = rs.flatMap MethodRecord.sectionLines) ∧
      ∀ source' raw' ss, methods source' raw' = .ok ss → renderMethods ss = renderMethods rs →
        ss = rs := by
  have hrs : ∀ r ∈ rs, r.IsListed := isListed_of_methods h
  refine ⟨lineBodies_renderMethods hrs, fun hcode => ?_, fun source' raw' ss hss hsame => ?_⟩
  · rw [lineBodies_renderMethods hrs, List.flatMap_def, List.flatMap_def]
    refine congrArg List.flatten (List.map_congr_left fun r hr => ?_)
    exact if_neg (hcode r hr)
  · have hlisted : ∀ s ∈ ss, s.IsListed := isListed_of_methods hss
    refine sections_inj hlisted hrs ?_
    rw [← lineBodies_renderMethods hlisted, hsame, lineBodies_renderMethods hrs]

/-- A method whose code is one line and one block with a label. -/
def labelledListing : Text :=
  methodMarker ++ "A\n ret\nL1:\n nop\n ret\n" ++ sizeMarker ++ "12, prolog\r\n"

/-- A record with two blocks, of which the second one has a label. -/
theorem renderMethods_lines_labelled :
    let r : MethodRecord := ⟨"A", [⟨"A", .code, [" ret"]⟩, ⟨"A", .code, ["L1:", " nop", " ret"]⟩], 12⟩
    methods .generatorOnly labelledListing = .ok [r] ∧ r.code ≠ [] ∧
      Text.lineBodies (renderMethods [r]) = r.sectionLines ∧
      r.sectionLines = (["; Method A", " ret", [], "L1:", " nop", " ret",
        "; Total bytes of code: 12", []] : List Text) := by
  intro r
  have hmethods : methods .generatorOnly labelledListing = .ok [r] := by decide +kernel
  have hcode : ∀ s ∈ [r], s.code ≠ [] := by decide
  obtain ⟨-, hlines, -⟩ := renderMethods_lines hmethods
  refine ⟨hmethods, hcode r List.mem_cons_self, ?_, by decide +kernel⟩
  rw [hlines hcode, List.flatMap_singleton]

/-- Of a method without code the name and the size come on one line. -/
theorem renderMethods_joins_lines :
    let listing : Text := methodMarker ++ "A\n" ++ sizeMarker ++ "1\n"
    let r : MethodRecord := ⟨"A", [], 1⟩
    methods .generatorOnly listing = .ok [r] ∧
      Text.lineBodies (renderMethods [r]) =
        (["; Method A; Total bytes of code: 1", []] : List Text) ∧
      r.sectionLines = (["; Method A", "; Total bytes of code: 1", []] : List Text) := by
  decide +kernel

end Condensed

end Listing

end JitInspect
