import JitInspect.Text.Blank
import JitInspect.Text.Lines
import Mathlib.Data.List.Basic

/-!
# Lines that are left out

Some lines of a text may be left out and the others joined again. The joined text need not have the
lines that were kept: a carriage return at the end of one line and a line feed at the end of the next
one, with nothing between them, end one line when they come together. Only an empty line is lost in
this way. A function that tells nothing of such lines tells the same of the lines that were kept and
of those that are read back (`AreLines.filterMap_lines`); the written lines, which are not blank, are
told by one (`writtenLines_flatMap`). In the same way it tells of a text behind an ended one what it
tells of the text alone (`TellsSteadily.filterMap_append`).

`Text.AreLines` says of a list of lines what is needed for this, and what leaving lines out preserves.
-/

namespace JitInspect

namespace Text

variable {b t rest : Text} {l : Line} {ls : List Line}

/-! ### Lines one behind the other -/

section AreLines

/-- Whether the text has no character that ends a line. -/
def IsBody (t : Text) : Prop := ∀ c ∈ t, isLineEnd c = false

-- the instance is given by name, so that a body is never tested over all characters there are
instance : DecidablePred IsBody := fun t => List.decidableBAll (fun c => isLineEnd c = false) t

/-- What ends a line: one character, or a carriage return and a line feed. -/
inductive IsTerminator : Text → Prop where
  | pair : IsTerminator ['\r', '\n']
  | single {c : Char} (h : isLineEnd c = true) : IsTerminator [c]

/-- Lines that can stand one behind the other. Only the last one may have no terminator. -/
inductive AreLines : List Line → Prop where
  | nil : AreLines []
  | last {b : Text} (hb : IsBody b) : AreLines [⟨b, []⟩]
  | cons {b t : Text} {ls : List Line} (hb : IsBody b) (ht : IsTerminator t) (h : AreLines ls) :
      AreLines (⟨b, t⟩ :: ls)

theorem IsBody.nil : IsBody [] := fun _ hc => absurd hc List.not_mem_nil

theorem IsBody.cons {c : Char} (hc : isLineEnd c = false) (hb : IsBody b) : IsBody (c :: b) :=
  List.forall_mem_cons.2 ⟨hc, hb⟩

theorem IsBody.append (ha : IsBody t) (hb : IsBody b) : IsBody (t ++ b) :=
  List.forall_mem_append.2 ⟨ha, hb⟩

/-- A character that ends no line may be added in front of the first line. -/
theorem AreLines.consFirst {c : Char} (hc : isLineEnd c = false) (h : AreLines ls) :
    AreLines (Line.consFirst c ls) := by
  cases h with
  | nil => exact .last (IsBody.nil.cons hc)
  | last hb => exact .last (hb.cons hc)
  | cons hb ht h => exact .cons (hb.cons hc) ht h

/-- The lines of a text stand one behind the other. -/
theorem areLines_lines (t : Text) : AreLines (lines t) := by
  fun_induction lines t with
  | case1 => exact .nil
  | case2 cs ih => exact .cons .nil .pair ih
  | case3 c cs _ h ih => exact .cons .nil (.single h) ih
  | case4 c cs _ h ih => exact ih.consFirst (Bool.eq_false_iff.2 h)

/-- Lines that are all ended can stand one behind the other. -/
theorem AreLines.of_ended (hb : ∀ l ∈ ls, IsBody l.body) (ht : ∀ l ∈ ls, IsTerminator l.terminator) :
    AreLines ls := by
  induction ls with
  | nil => exact .nil
  | cons l ls ih =>
    obtain ⟨hbody, hbodies⟩ := List.forall_mem_cons.1 hb
    obtain ⟨hend, hends⟩ := List.forall_mem_cons.1 ht
    exact .cons hbody hend (ih hbodies hends)

/-- Lines may be left out. -/
theorem AreLines.filter (p : Line → Bool) (h : AreLines ls) : AreLines (ls.filter p) := by
  induction h with
  | nil => exact .nil
  | last hb =>
    rw [List.filter_cons]
    split
    · exact .last hb
    · exact .nil
  | cons hb ht _ ih =>
    rw [List.filter_cons]
    split
    · exact .cons hb ht ih
    · exact ih

end AreLines

/-! ### Reading a line back -/

section Reading

theorem filterMap_cons_toList {α β : Type} (f : α → Option β) (x : α) (xs : List α) :
    (x :: xs).filterMap f = (f x).toList ++ xs.filterMap f := by
  cases h : f x <;> simp [h]

/-- A character that ends no line belongs to the first line. -/
theorem lines_cons_of_body {c : Char} (hc : isLineEnd c = false) (t : Text) :
    lines (c :: t) = Line.consFirst c (lines t) := by
  have hcr : c ≠ '\r' := by
    rintro rfl
    exact absurd hc (by decide)
  rw [lines, hc]
  · rfl
  · exact fun _ h _ => hcr h

/-- A body in front of a text belongs to its first line. -/
theorem lines_body_append (hb : IsBody b) (ht : lines t = l :: ls) :
    lines (b ++ t) = ⟨b ++ l.body, l.terminator⟩ :: ls := by
  induction b with
  | nil => exact ht
  | cons c b ih =>
    obtain ⟨hc, hb⟩ := List.forall_mem_cons.1 hb
    rw [List.cons_append, lines_cons_of_body hc, ih hb]
    rfl

/-- A body is one line, if it is not empty. -/
theorem lines_body (hb : IsBody b) : lines b = if b = [] then [] else [⟨b, []⟩] := by
  induction b with
  | nil => rfl
  | cons c b ih =>
    obtain ⟨hc, hb⟩ := List.forall_mem_cons.1 hb
    rw [lines_cons_of_body hc, ih hb, if_neg (List.cons_ne_nil c b)]
    cases b <;> rfl

/-- What a function tells of lines, if it tells nothing of empty lines and does not tell a carriage
return with a line feed from one without. -/
structure TellsSteadily {α : Type} (f : Line → Option α) : Prop where
  empty : f ⟨[], []⟩ = none
  lineFeed : f ⟨[], ['\n']⟩ = none
  pair : ∀ b, f ⟨b, ['\r', '\n']⟩ = f ⟨b, ['\r']⟩

/-- A line that is ended is read back. When it ends with a carriage return and a line feed follows,
the empty line that the line feed would have ended is lost. -/
theorem TellsSteadily.filterMap_lines_append {α : Type} {f : Line → Option α} (hf : TellsSteadily f)
    (hb : IsBody b) (ht : IsTerminator t) (rest : Text) :
    (lines (b ++ t ++ rest)).filterMap f = (f ⟨b, t⟩).toList ++ (lines rest).filterMap f := by
  rw [List.append_assoc]
  cases ht with
  | pair =>
    have hend : lines (['\r', '\n'] ++ rest) = ⟨[], ['\r', '\n']⟩ :: lines rest := rfl
    rw [lines_body_append hb hend, List.append_nil, filterMap_cons_toList]
  | @single c hc =>
    by_cases hpair : c = '\r' ∧ rest.head? = some '\n'
    · obtain ⟨rfl, hhead⟩ := hpair
      obtain ⟨rest, rfl⟩ := List.head?_eq_some_iff.1 hhead
      have hend : lines (['\r'] ++ '\n' :: rest) = ⟨[], ['\r', '\n']⟩ :: lines rest := rfl
      have hempty : lines ('\n' :: rest) = ⟨[], ['\n']⟩ :: lines rest := rfl
      rw [lines_body_append hb hend, List.append_nil, hempty, filterMap_cons_toList,
        filterMap_cons_toList, hf.lineFeed, hf.pair]
      rfl
    · have hend : lines ([c] ++ rest) = ⟨[], [c]⟩ :: lines rest := by
        rw [List.singleton_append, lines, if_pos hc]
        rintro cs rfl rfl
        exact hpair ⟨rfl, rfl⟩
      rw [lines_body_append hb hend, List.append_nil, filterMap_cons_toList]

/-- Of lines that stand one behind the other the same is told when they are read back. -/
theorem AreLines.filterMap_lines {α : Type} {f : Line → Option α} (hf : TellsSteadily f)
    (h : AreLines ls) : (lines (ls.flatMap Line.full)).filterMap f = ls.filterMap f := by
  induction h with
  | nil => rfl
  | @last b hb =>
    rw [List.flatMap_singleton, Line.full, List.append_nil, lines_body hb]
    split
    · next hnil => rw [hnil, filterMap_cons_toList, hf.empty]; rfl
    · rfl
  | @cons b t ls hb ht _ ih =>
    rw [List.flatMap_cons, Line.full, hf.filterMap_lines_append hb ht, ih, filterMap_cons_toList]

/-- Whether the last line of the text is ended, if there is one. -/
def IsEnded (t : Text) : Prop := ∀ c ∈ t.getLast?, isLineEnd c = true

instance : DecidablePred IsEnded := fun t => Option.decidableForallMem t.getLast?

theorem IsEnded.of_append {a : Text} (h : IsEnded (a ++ b)) : IsEnded b := by
  intro c hc
  refine h c ?_
  rw [List.getLast?_append, Option.mem_def.1 hc]
  rfl

/-- Behind lines that are all ended another text is read as if it stood alone. -/
theorem AreLines.filterMap_lines_append {α : Type} {f : Line → Option α} (hf : TellsSteadily f)
    (h : AreLines ls) (hend : IsEnded (ls.flatMap Line.full)) (rest : Text) :
    (lines (ls.flatMap Line.full ++ rest)).filterMap f =
      ls.filterMap f ++ (lines rest).filterMap f := by
  induction h with
  | nil => rfl
  | @last b hb =>
    rw [List.flatMap_singleton, Line.full, List.append_nil] at hend ⊢
    rcases List.eq_nil_or_concat' b with rfl | ⟨b, c, rfl⟩
    · rw [filterMap_cons_toList, hf.empty]
      rfl
    · have hc := hend c (by rw [List.getLast?_concat]; rfl)
      rw [hb c (List.mem_append_right b List.mem_cons_self)] at hc
      cases hc
  | @cons b t ls hb ht _ ih =>
    rw [List.flatMap_cons] at hend ⊢
    rw [List.append_assoc, Line.full, hf.filterMap_lines_append hb ht, ih hend.of_append,
      filterMap_cons_toList, List.append_assoc]

/-- The same for a text and another one behind it. -/
theorem TellsSteadily.filterMap_append {α : Type} {f : Line → Option α} (hf : TellsSteadily f)
    (ht : IsEnded t) (rest : Text) :
    (lines (t ++ rest)).filterMap f = (lines t).filterMap f ++ (lines rest).filterMap f := by
  have htext : (lines t).flatMap Line.full = t := List.flatMap_def.trans (flatten_lines t)
  have hlines := (areLines_lines t).filterMap_lines_append hf (by rwa [htext]) rest
  rwa [htext] at hlines

/-- The lines of a text that are not blank, without their terminators. -/
def writtenLines (t : Text) : List Text := (lineBodies t).filter fun l => !blank l

/-- The written lines among the given ones. -/
def written (ls : List Line) : List Text := (ls.map Line.body).filter fun l => !blank l

/-- What is written in the lines of a text is written in the text. -/
theorem written_lines (t : Text) : written (lines t) = writtenLines t := rfl

/-- What is written on a line, if it is not blank. -/
def Line.written? (l : Line) : Option Text := if blank l.body then none else some l.body

theorem written_cons (l : Line) (ls : List Line) : written (l :: ls) = written [l] ++ written ls :=
  List.filter_append [l.body] (ls.map Line.body)

/-- What is written in lines is told line by line. -/
theorem written_eq (ls : List Line) : written ls = ls.filterMap Line.written? := by
  induction ls with
  | nil => rfl
  | cons l ls ih =>
    have hl : written [l] = l.written?.toList := by
      cases hblank : blank l.body <;> simp [written, Line.written?, hblank]
    rw [written_cons, hl, ih, filterMap_cons_toList]

/-- What a line has written does not depend on how it ends. -/
theorem tellsSteadily_written : TellsSteadily Line.written? := ⟨rfl, rfl, fun _ => rfl⟩

/-- The written lines of a line that is ended and of what stands behind it. -/
theorem writtenLines_line_append (hb : IsBody b) (ht : IsTerminator t) (rest : Text) :
    writtenLines (b ++ t ++ rest) = written [⟨b, t⟩] ++ writtenLines rest := by
  rw [← written_lines, ← written_lines, written_eq, written_eq, written_eq,
    tellsSteadily_written.filterMap_lines_append hb ht, filterMap_cons_toList, List.filterMap_nil,
    List.append_nil]

/-- The written lines of two texts, the first of which is ended. -/
theorem writtenLines_append (ht : IsEnded t) (rest : Text) :
    writtenLines (t ++ rest) = writtenLines t ++ writtenLines rest := by
  rw [← written_lines, ← written_lines, ← written_lines, written_eq, written_eq, written_eq,
    tellsSteadily_written.filterMap_append ht]

/-- Lines that stand one behind the other have the same written lines when they are read back. -/
theorem AreLines.writtenLines_flatMap (h : AreLines ls) :
    writtenLines (ls.flatMap Line.full) = written ls := by
  rw [← written_lines, written_eq, written_eq, h.filterMap_lines tellsSteadily_written]

/-- When lines of a text are left out, the others stay written as they are. -/
theorem writtenLines_flatMap (t : Text) (p : Line → Bool) :
    writtenLines (((lines t).filter p).flatMap Line.full) = written ((lines t).filter p) :=
  ((areLines_lines t).filter p).writtenLines_flatMap

end Reading

/-! ### Lines that are written out -/

section Unlines

/-- The bodies of lines contain nothing that ends a line. -/
theorem AreLines.isBody (h : AreLines ls) : ∀ l ∈ ls, IsBody l.body := by
  induction h with
  | nil => exact fun l hl => absurd hl List.not_mem_nil
  | last hb => exact List.forall_mem_singleton.2 hb
  | cons hb _ _ ih => exact List.forall_mem_cons.2 ⟨hb, ih⟩

/-- There is no line break within a line. -/
theorem isBody_of_mem_lineBodies (h : b ∈ lineBodies t) : IsBody b := by
  obtain ⟨l, hl, rfl⟩ := List.mem_map.1 h
  exact (areLines_lines t).isBody l hl

/-- The lines, each with a line feed behind it. -/
def unlines (bs : List Text) : Text := bs.flatMap fun b => b ++ ['\n']

theorem unlines_append (as bs : List Text) : unlines (as ++ bs) = unlines as ++ unlines bs :=
  List.flatMap_append

/-- What is written on lines in front of a text is read back line by line. -/
theorem lineBodies_unlines_append {bs : List Text} (h : ∀ b ∈ bs, IsBody b) (t : Text) :
    lineBodies (unlines bs ++ t) = bs ++ lineBodies t := by
  induction bs with
  | nil => rfl
  | cons b bs ih =>
    obtain ⟨hb, hbs⟩ := List.forall_mem_cons.1 h
    have htext : unlines (b :: bs) ++ t = b ++ '\n' :: (unlines bs ++ t) := by
      simp [unlines]
    have hfeed : lines ('\n' :: (unlines bs ++ t)) = ⟨[], ['\n']⟩ :: lines (unlines bs ++ t) := rfl
    have hlines := lines_body_append hb hfeed
    rw [List.append_nil] at hlines
    rw [htext, lineBodies, hlines, List.map_cons, ← lineBodies, ih hbs, List.cons_append]

/-- Lines that were joined are found again. -/
theorem lineBodies_unlines {bs : List Text} (h : ∀ b ∈ bs, IsBody b) :
    lineBodies (unlines bs) = bs := by
  have hlines := lineBodies_unlines_append h []
  have hnil : lineBodies [] = [] := rfl
  rwa [hnil, List.append_nil, List.append_nil] at hlines

end Unlines

/-! ### How a line starts -/

section Starting

/-- What ends a line starts with a character that ends a line. -/
theorem IsTerminator.eq_cons (ht : IsTerminator t) : ∃ c cs, t = c :: cs ∧ isLineEnd c = true := by
  cases ht with
  | pair => exact ⟨_, _, rfl, rfl⟩
  | single h => exact ⟨_, _, rfl, h⟩

/-- Whether a line starts with a pattern in which no line ends can be seen without its terminator. -/
theorem startsWith_append_terminator {pat : Text} (hpat : IsBody pat) (b : Text)
    (ht : IsTerminator t) : startsWith (b ++ t) pat = startsWith b pat := by
  obtain ⟨c, cs, rfl, hc⟩ := ht.eq_cons
  unfold startsWith
  induction pat generalizing b with
  | nil => rfl
  | cons p ps ih =>
    obtain ⟨hp, hps⟩ := List.forall_mem_cons.1 hpat
    cases b with
    | nil =>
      have hne : p ≠ c := by
        rintro rfl
        exact Bool.false_ne_true (hp.symm.trans hc)
      simp only [List.nil_append, after?, if_neg hne]
    | cons x xs =>
      rw [List.cons_append, after?, after?]
      split
      · exact ih hps xs
      · rfl

/-- The same for a line of a text. -/
theorem AreLines.startsWith_full {pat : Text} (hpat : IsBody pat) (h : AreLines ls) :
    ∀ l ∈ ls, startsWith l.full pat = startsWith l.body pat := by
  induction h with
  | nil => exact fun _ hl => absurd hl List.not_mem_nil
  | @last b hb =>
    intro l hl
    rw [List.mem_singleton.1 hl, Line.full, List.append_nil]
  | @cons b t ls hb ht _ ih =>
    intro l hl
    rcases List.mem_cons.1 hl with rfl | hl
    · exact startsWith_append_terminator hpat b ht
    · exact ih l hl

end Starting

end Text

end JitInspect
