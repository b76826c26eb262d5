/-!
# Text as a list of characters

Listings, labels, names and messages are lists of Unicode scalar values, so that every rule about
them is a recursion on the list. This file fixes the type and the operations that all other files
share: the first and last occurrence of a pattern, cutting a text at every occurrence, replacing,
trimming by a class of characters, and joining.

The main statements say that cutting at a pattern and joining with it again gives the text back
(`join_splitOn`), and that the two parts of a first occurrence surround it
(`eq_append_of_splitFirst`).
-/

namespace JitInspect

/-- A text is the list of its characters. -/
abbrev Text := List Char

/-- A string literal stands for the list of its characters. -/
instance : Coe String Text := ⟨String.toList⟩

namespace Text

/-! ### Occurrences of a pattern -/

section Occurrences

/-- The text after `pat`, when the text starts with `pat`. -/
def after? : (pat : Text) → Text → Option Text
  | [], t => some t
  | _ :: _, [] => none
  | p :: ps, c :: cs => if p = c then after? ps cs else none

/-- Whether the text starts with `pat`. -/
def startsWith (t pat : Text) : Bool := (after? pat t).isSome

/-- The parts of the text before and after the first occurrence of `pat`. -/
def splitFirst (pat : Text) : Text → Option (Text × Text)
  | [] => (after? pat []).map fun rest => ([], rest)
  | c :: cs =>
    match after? pat (c :: cs) with
    | some rest => some ([], rest)
    | none => (splitFirst pat cs).map fun (before, rest) => (c :: before, rest)

/-- The parts of the text before and after the last occurrence of `pat`. -/
def splitLast (pat : Text) : Text → Option (Text × Text)
  | [] => (after? pat []).map fun rest => ([], rest)
  | c :: cs =>
    match splitLast pat cs with
    | some (before, rest) => some (c :: before, rest)
    | none => (after? pat (c :: cs)).map fun rest => ([], rest)

/-- Whether `pat` occurs in the text. -/
def has (pat t : Text) : Bool := (splitFirst pat t).isSome

theorem eq_append_of_after? {pat t rest : Text} (h : after? pat t = some rest) :
    t = pat ++ rest := by
  induction pat generalizing t with
  | nil => simpa [after?] using h
  | cons p ps ih =>
    cases t with
    | nil => simp [after?] at h
    | cons c cs =>
      by_cases hpc : p = c
      · simp only [after?, if_pos hpc] at h
        simp [hpc, ih h]
      · simp [after?, hpc] at h

@[simp] theorem after?_append (pat rest : Text) : after? pat (pat ++ rest) = some rest := by
  induction pat with
  | nil => rfl
  | cons p ps ih => simp [after?, ih]

/-- Starting with `pat` means being `pat` followed by some rest. -/
theorem startsWith_iff {t pat : Text} : startsWith t pat = true ↔ ∃ rest, t = pat ++ rest := by
  constructor
  · intro h
    obtain ⟨rest, hrest⟩ := Option.isSome_iff_exists.1 h
    exact ⟨rest, eq_append_of_after? hrest⟩
  · rintro ⟨rest, rfl⟩
    simp [startsWith]

/-- The two parts of a first occurrence surround it. -/
theorem eq_append_of_splitFirst {pat t before rest : Text}
    (h : splitFirst pat t = some (before, rest)) : t = before ++ pat ++ rest := by
  induction t generalizing before with
  | nil =>
    simp only [splitFirst, Option.map_eq_some_iff, Prod.mk.injEq] at h
    obtain ⟨r, hr, rfl, rfl⟩ := h
    simpa using eq_append_of_after? hr
  | cons c cs ih =>
    simp only [splitFirst] at h
    split at h
    · next r hr =>
      simp only [Option.some.injEq, Prod.mk.injEq] at h
      obtain ⟨rfl, rfl⟩ := h
      simpa using eq_append_of_after? hr
    · simp only [Option.map_eq_some_iff, Prod.mk.injEq] at h
      obtain ⟨⟨b, r⟩, hbr, rfl, rfl⟩ := h
      simp [ih hbr]

end Occurrences

/-! ### Cutting and joining -/

section Pieces

/-- Adds a character in front of the first piece. -/
def consFirst (c : Char) : List Text → List Text
  | [] => [[c]]
  | p :: ps => (c :: p) :: ps

/-- The pieces between the occurrences of `pat`, found from the left without overlap. The number
counts the characters of an occurrence that are still to be passed over. -/
def splitOnFrom (pat : Text) : Nat → Text → List Text
  | _, [] => [[]]
  | skip + 1, _ :: cs => splitOnFrom pat skip cs
  | 0, c :: cs =>
    if startsWith (c :: cs) pat then [] :: splitOnFrom pat (pat.length - 1) cs
    else consFirst c (splitOnFrom pat 0 cs)

/-- The pieces of the text between the occurrences of a nonempty `pat`. -/
def splitOn (pat t : Text) : List Text := splitOnFrom pat 0 t

/-- The pieces, with `sep` between neighbours. -/
def join (sep : Text) : List Text → Text
  | [] => []
  | [p] => p
  | p :: q :: ps => p ++ sep ++ join sep (q :: ps)

/-- Every occurrence of a nonempty `pat`, found from the left, becomes `new`. -/
def replace (pat new t : Text) : Text := join new (splitOn pat t)

theorem splitOnFrom_ne_nil (pat : Text) (skip : Nat) (t : Text) :
    splitOnFrom pat skip t ≠ [] := by
  fun_induction splitOnFrom pat skip t with
  | case1 => simp
  | case2 _ _ _ ih => exact ih
  | case3 => simp
  | case4 c cs _ _ =>
    cases splitOnFrom pat 0 cs <;> simp [consFirst]

theorem join_cons (sep p : Text) {ps : List Text} (h : ps ≠ []) :
    join sep (p :: ps) = p ++ sep ++ join sep ps := by
  cases ps with
  | nil => exact absurd rfl h
  | cons q qs => rfl

theorem join_consFirst (sep : Text) (c : Char) {ps : List Text} (h : ps ≠ []) :
    join sep (consFirst c ps) = c :: join sep ps := by
  cases ps with
  | nil => exact absurd rfl h
  | cons q qs => cases qs <;> simp [consFirst, join]

theorem splitOnFrom_drop (pat : Text) (skip : Nat) (t : Text) :
    splitOnFrom pat skip t = splitOnFrom pat 0 (t.drop skip) := by
  induction t generalizing skip with
  | nil => cases skip <;> simp [splitOnFrom]
  | cons c cs ih =>
    cases skip with
    | zero => rfl
    | succ k => simpa [splitOnFrom] using ih k

/-- Cutting at `pat` and joining with it again gives the text back. -/
theorem join_splitOn (pat t : Text) (hpat : pat ≠ []) : join pat (splitOn pat t) = t := by
  unfold splitOn
  induction hn : t.length using Nat.strongRecOn generalizing t with
  | _ n ih =>
    cases t with
    | nil => simp [splitOnFrom, join]
    | cons c cs =>
      simp only [splitOnFrom]
      split
      · next h =>
        obtain ⟨rest, hrest⟩ := startsWith_iff.1 h
        obtain ⟨p, ps, rfl⟩ := List.exists_cons_of_ne_nil hpat
        have hcs : cs = ps ++ rest := by simp at hrest; exact hrest.2
        have hc : c = p := by simp at hrest; exact hrest.1
        rw [join_cons _ _ (splitOnFrom_ne_nil _ _ _), splitOnFrom_drop]
        have hlt : rest.length < n := by
          have hlen := congrArg List.length hcs
          simp only [List.length_append] at hlen
          simp only [List.length_cons] at hn
          omega
        have hdrop : cs.drop ((p :: ps).length - 1) = rest := by simp [hcs]
        rw [hdrop, ih rest.length hlt rest rfl]
        simp [hc, hcs]
      · rw [join_consFirst _ _ (splitOnFrom_ne_nil _ _ _),
          ih cs.length (by rw [← hn]; simp) cs rfl]

end Pieces

/-! ### Trimming -/

section Trimming

/-- The text without the characters of the class at its start. -/
def trimStart (cls : Char → Bool) (t : Text) : Text := t.dropWhile cls

/-- The text without the characters of the class at its end. -/
def trimEnd (cls : Char → Bool) (t : Text) : Text := (t.reverse.dropWhile cls).reverse

/-- The text without the characters of the class at both ends. -/
def trim (cls : Char → Bool) (t : Text) : Text := trimEnd cls (trimStart cls t)

/-- Carriage returns and line feeds, which are trimmed from the ends of captured output. -/
def isNewline (c : Char) : Bool := c = '\n' || c = '\r'

end Trimming

/-- The decimal digits of a natural number. -/
def ofNat (n : Nat) : Text := Nat.toDigits 10 n

/-- The decimal digits of an integer, after a minus sign when it is negative. -/
def ofInt : Int → Text
  | .ofNat n => ofNat n
  | .negSucc n => '-' :: ofNat (n + 1)

end Text

end JitInspect
