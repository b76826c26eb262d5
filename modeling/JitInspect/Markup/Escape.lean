import JitInspect.Text.Basic

/-!
# Escaped attribute values

In an attribute value the ampersand, the angle brackets and the double quote are written as
entities. Reading them back gives the value again (`unescape_escape`), and an escaped value holds no
bracket and no quote, so that it cannot end the attribute that it stands in (`escape_safe`).
-/

namespace JitInspect

namespace Markup

/-- A character as it is written in an attribute value. -/
def escapeChar (c : Char) : Text :=
  match c with
  | '&' => "&amp;"
  | '<' => "&lt;"
  | '>' => "&gt;"
  | '"' => "&quot;"
  | c => [c]

/-- A text as it is written in an attribute value. -/
def escape (t : Text) : Text := t.flatMap escapeChar

/-- Reads an attribute value in which the four entities stand for their characters. -/
def unescape : Text → Text
  | [] => []
  | '&' :: 'a' :: 'm' :: 'p' :: ';' :: cs => '&' :: unescape cs
  | '&' :: 'l' :: 't' :: ';' :: cs => '<' :: unescape cs
  | '&' :: 'g' :: 't' :: ';' :: cs => '>' :: unescape cs
  | '&' :: 'q' :: 'u' :: 'o' :: 't' :: ';' :: cs => '"' :: unescape cs
  | c :: cs => c :: unescape cs

/-- Whether a character may stand in a quoted attribute value as it is. -/
def isSafe (c : Char) : Bool := c ≠ '<' && c ≠ '>' && c ≠ '"'

theorem unescape_escapeChar_append (c : Char) (t : Text) :
    unescape (escapeChar c ++ t) = c :: unescape t := by
  unfold escapeChar
  split
  · rfl
  · rfl
  · rfl
  · rfl
  · next h _ _ _ =>
    have hc : ¬(c = '&') := h
    simp [unescape, hc]

/-- An escaped text reads back as the text. -/
theorem unescape_escape (t : Text) : unescape (escape t) = t := by
  induction t with
  | nil => rfl
  | cons c cs ih =>
    rw [escape, List.flatMap_cons, unescape_escapeChar_append]
    exact congrArg _ ih

theorem escapeChar_safe (c : Char) : ∀ x ∈ escapeChar c, isSafe x = true := by
  unfold escapeChar
  split
  · exact List.all_eq_true.1 rfl
  · exact List.all_eq_true.1 rfl
  · exact List.all_eq_true.1 rfl
  · exact List.all_eq_true.1 rfl
  · next _ h2 h3 h4 =>
    intro x hx
    obtain rfl := List.mem_singleton.1 hx
    have hlt : ¬(x = '<') := h2
    have hgt : ¬(x = '>') := h3
    have hq : ¬(x = '"') := h4
    simp [isSafe, hlt, hgt, hq]

/-- No bracket and no quote stands in an escaped text. -/
theorem escape_safe (t : Text) : ∀ x ∈ escape t, isSafe x = true := by
  intro x hx
  obtain ⟨c, _, hc⟩ := List.mem_flatMap.1 hx
  exact escapeChar_safe c x hc

end Markup

end JitInspect
