import JitInspect.Proofs.Text.Marked
import JitInspect.Text.ShellWords

/-!
# Words around open places

A text with open places is split into words, and the places are filled with a text that says nothing to
a shell: no space, no quote and, where backslashes are taken away, no backslash (`ShellWords.Inert`).
Then it does not matter which such text this is. The same words come out, with the same open places,
and each of them is a part of the text without the characters that are taken away
(`ShellWords.split_fill`).

The splitter reads one character at a time. A character goes to the word that is begun or is taken away
(`ShellWords.Step.next`), or it ends the word (`ShellWords.Step.cut`).

By POSIX rules the texts that say nothing to a shell are just those that it gives back as one word
(`ShellWords.split_posix_eq_self`).
-/

namespace JitInspect

namespace ShellWords

open Text (Marked)
open Text.Marked (fill fill_nil fill_cons_none fill_cons_some fill_append fill_map_some kept
  kept_append kept_map_some kept_cons_some)

variable {rules : Rules} {mode mode' : Mode} {c : Char} {w word added cs : Text}

/-! ### Characters -/

section Characters

/-- Whether the rules take the character away when it is not quoted or escaped itself. -/
def isDropped (rules : Rules) (c : Char) : Bool := rules = .posix && (isQuote c || c = '\\')

/-- Whether the character goes to a word wherever it stands. -/
def isOrdinary (rules : Rules) (c : Char) : Bool :=
  !isSeparator c && !isQuote c && !isDropped rules c

/-- The text says something and all its characters are ordinary. -/
structure Inert (rules : Rules) (w : Text) : Prop where
  ne_nil : w ≠ []
  ordinary : ∀ c ∈ w, isOrdinary rules c = true

instance (rules : Rules) (w : Text) : Decidable (Inert rules w) :=
  decidable_of_iff (w ≠ [] ∧ w.all (isOrdinary rules) = true)
    ⟨fun h => ⟨h.1, List.all_eq_true.1 h.2⟩, fun h => ⟨h.ne_nil, List.all_eq_true.2 h.ordinary⟩⟩

/-- The words of the rest of a text. -/
def wordsFrom : Rules → Mode → Text → Text → Except Fault (List Text)
  | .posix => posixFrom
  | .windows => windowsFrom

/-- A text is split from between words on. -/
theorem split_eq (rules : Rules) (t : Text) : split rules t = wordsFrom rules .between [] t := by
  cases rules <;> rfl

/-- The splitter stands here in some text: quotes are opened by quotes, and behind a backslash it
stands only if backslashes are taken away. -/
def Mode.IsReached (rules : Rules) : Mode → Prop
  | .between | .bare => True
  | .quoted q => isQuote q = true
  | .escapedBare => rules = .posix
  | .escapedQuoted q => rules = .posix ∧ isQuote q = true

/-- Where the splitter stands behind an ordinary character. -/
def Mode.behind : Mode → Mode
  | .between | .bare | .escapedBare => .bare
  | .quoted q | .escapedQuoted q => .quoted q

/-- A backslash that stays in the word if an ordinary character comes. -/
def Mode.held : Mode → Text
  | .escapedQuoted _ => ['\\']
  | _ => []

/-- The modes behind a character are reached by the same rules. -/
theorem Mode.IsReached.behind (h : mode.IsReached rules) : mode.behind.IsReached rules := by
  cases mode with
  | between | bare | escapedBare => trivial
  | quoted q => exact h
  | escapedQuoted q => exact h.2

/-- Behind a character of a word the splitter is not between words. -/
theorem Mode.behind_ne_between (mode : Mode) : mode.behind ≠ .between := by
  cases mode <;> simp [Mode.behind]

/-- An ordinary character goes to the word. -/
theorem wordsFrom_ordinary (hmode : mode.IsReached rules) (hword : mode = .between → word = [])
    (hc : isOrdinary rules c = true) (cs : Text) :
    wordsFrom rules mode word (c :: cs) =
      wordsFrom rules mode.behind (c :: (mode.held ++ word)) cs := by
  have hneq : ∀ {q : Char}, isQuote q = true → c ≠ q := by
    rintro q hq rfl
    simp [isOrdinary, hq] at hc
  cases rules with
  | posix =>
    obtain ⟨hseparator, hquote, hbackslash⟩ :
        isSeparator c = false ∧ isQuote c = false ∧ c ≠ '\\' := by
      simpa [isOrdinary, isDropped, and_assoc] using hc
    cases mode with
    | between =>
      obtain rfl := hword rfl
      simp [wordsFrom, posixFrom, Mode.behind, Mode.held, hseparator, hquote, hbackslash]
    | bare => simp [wordsFrom, posixFrom, Mode.behind, Mode.held, hseparator, hquote, hbackslash]
    | quoted q => simp [wordsFrom, posixFrom, Mode.behind, Mode.held, hneq hmode, hbackslash]
    | escapedBare => simp [wordsFrom, posixFrom, Mode.behind, Mode.held]
    | escapedQuoted q =>
      simp [wordsFrom, posixFrom, Mode.behind, Mode.held, hneq hmode.2, hbackslash]
  | windows =>
    obtain ⟨hseparator, hquote⟩ : isSeparator c = false ∧ isQuote c = false := by
      simpa [isOrdinary, isDropped] using hc
    cases mode with
    | between =>
      obtain rfl := hword rfl
      simp [wordsFrom, windowsFrom, Mode.behind, Mode.held, hseparator, hquote]
    | bare => simp [wordsFrom, windowsFrom, Mode.behind, Mode.held, hseparator]
    | quoted q => simp [wordsFrom, windowsFrom, Mode.behind, Mode.held, hneq hmode]
    | escapedBare => cases hmode
    | escapedQuoted q => cases hmode.1

/-- So does a text of ordinary characters. -/
theorem wordsFrom_inert (hw : Inert rules w) (hmode : mode.IsReached rules)
    (hword : mode = .between → word = []) (t : Text) :
    wordsFrom rules mode word (w ++ t) =
      wordsFrom rules mode.behind (w.reverse ++ (mode.held ++ word)) t := by
  have hall : ∀ {w : Text} {mode : Mode} {word : Text}, (∀ c ∈ w, isOrdinary rules c = true) →
      mode.IsReached rules → mode ≠ .between → mode.behind = mode → mode.held = [] →
      wordsFrom rules mode word (w ++ t) = wordsFrom rules mode (w.reverse ++ word) t := by
    intro w
    induction w with
    | nil => exact fun _ _ _ _ _ => rfl
    | cons c w ih =>
      intro mode word hw hmode hne hbehind hheld
      obtain ⟨hc, hw⟩ := List.forall_mem_cons.1 hw
      rw [List.cons_append, wordsFrom_ordinary hmode (fun h => absurd h hne) hc, hbehind, hheld,
        ih hw hmode hne hbehind hheld]
      simp
  obtain ⟨c, cs, rfl⟩ := List.exists_cons_of_ne_nil hw.ne_nil
  obtain ⟨hc, hcs⟩ := List.forall_mem_cons.1 hw.ordinary
  rw [List.cons_append, wordsFrom_ordinary hmode hword hc,
    hall hcs hmode.behind mode.behind_ne_between (by cases mode <;> rfl) (by cases mode <;> rfl)]
  simp

end Characters

/-! ### One character -/

section Step

/-- What a character does to the splitter, whatever the word is that is begun. -/
inductive Step (rules : Rules) (mode : Mode) (c : Char) : Prop where
  /-- What is added to the word, last character first, is the character if it is not taken away. -/
  | next (mode' : Mode) (added : Text) (hmode : mode'.IsReached rules) (hne : mode' ≠ .between)
      (hadded : added.reverse.filter (fun c => !isDropped rules c) =
        [c].filter fun c => !isDropped rules c)
      (heq : ∀ word cs, (mode = .between → word = []) →
        wordsFrom rules mode word (c :: cs) = wordsFrom rules mode' (added ++ word) cs)
  /-- Nothing happens between words. -/
  | pass (hmode : mode = .between)
      (heq : ∀ cs, wordsFrom rules mode [] (c :: cs) = wordsFrom rules .between [] cs)
  | cut (added : Text)
      (hadded : added.reverse.filter (fun c => !isDropped rules c) <+:
        [c].filter fun c => !isDropped rules c)
      (heq : ∀ word cs, (mode = .between → word = []) → wordsFrom rules mode word (c :: cs) =
        (wordsFrom rules .between [] cs).map ((added ++ word).reverse :: ·))

/-- What one character does by POSIX rules. -/
theorem step_posix (c : Char) (hmode : mode.IsReached .posix) : Step .posix mode c := by
  have hbackslash : isDropped .posix '\\' = true := rfl
  have hquoted : ∀ {q : Char}, isQuote q = true → isDropped .posix q = true := by
    intro q hq
    simp [isDropped, hq]
  -- In each mode the tests come in the order in which the splitter makes them.
  cases mode with
  | between =>
    by_cases hseparator : isSeparator c = true
    · exact .pass rfl fun cs => by simp [wordsFrom, posixFrom, hseparator]
    by_cases hc : c = '\\'
    · subst hc
      exact .next .escapedBare [] rfl nofun (by simp [hbackslash]) fun word cs hword => by
        simp [wordsFrom, posixFrom, hseparator, hword rfl]
    by_cases hquote : isQuote c = true
    · exact .next (.quoted c) [] hquote nofun (by simp [hquoted hquote]) fun word cs hword => by
        simp [wordsFrom, posixFrom, hseparator, hc, hquote, hword rfl]
    · exact .next .bare [c] trivial nofun rfl fun word cs hword => by
        simp [wordsFrom, posixFrom, hseparator, hc, hquote, hword rfl]
  | bare =>
    by_cases hseparator : isSeparator c = true
    · exact .cut [] List.nil_prefix fun word cs _ => by simp [wordsFrom, posixFrom, hseparator]
    by_cases hc : c = '\\'
    · subst hc
      exact .next .escapedBare [] rfl nofun (by simp [hbackslash]) fun word cs _ => by
        simp [wordsFrom, posixFrom, hseparator]
    by_cases hquote : isQuote c = true
    · exact .next (.quoted c) [] hquote nofun (by simp [hquoted hquote]) fun word cs _ => by
        simp [wordsFrom, posixFrom, hseparator, hc, hquote]
    · exact .next .bare [c] trivial nofun rfl fun word cs _ => by
        simp [wordsFrom, posixFrom, hseparator, hc, hquote]
  | quoted q =>
    by_cases hend : c = q
    · subst hend
      exact .next .bare [] trivial nofun (by simp [hquoted hmode]) fun word cs _ => by
        simp [wordsFrom, posixFrom]
    by_cases hescape : c = '\\' ∧ q = '"'
    · obtain ⟨rfl, rfl⟩ := hescape
      exact .next (.escapedQuoted '"') [] ⟨rfl, rfl⟩ nofun (by simp [hbackslash]) fun word cs _ => by
        simp [wordsFrom, posixFrom]
    · exact .next (.quoted q) [c] hmode nofun rfl fun word cs _ => by
        simp [wordsFrom, posixFrom, hend, hescape]
  | escapedBare =>
    exact .next .bare [c] trivial nofun rfl fun word cs _ => rfl
  | escapedQuoted q =>
    by_cases hend : c = q ∨ c = '\\'
    · exact .next (.quoted q) [c] hmode.2 nofun rfl fun word cs _ => by
        simp [wordsFrom, posixFrom, hend]
    · -- a backslash that escapes nothing is put back ahead of the character
      exact .next (.quoted q) [c, '\\'] hmode.2 nofun (by simp [hbackslash]) fun word cs _ => by
        simp [wordsFrom, posixFrom, hend]

/-- What it does by the other rules. -/
theorem step_windows (c : Char) (hmode : mode.IsReached .windows) : Step .windows mode c := by
  cases mode with
  | between =>
    by_cases hseparator : isSeparator c = true
    · exact .pass rfl fun cs => by simp [wordsFrom, windowsFrom, hseparator]
    by_cases hquote : isQuote c = true
    · exact .next (.quoted c) [c] hquote nofun rfl fun word cs hword => by
        simp [wordsFrom, windowsFrom, hseparator, hquote, hword rfl]
    · exact .next .bare [c] trivial nofun rfl fun word cs hword => by
        simp [wordsFrom, windowsFrom, hseparator, hquote, hword rfl]
  | bare =>
    by_cases hseparator : isSeparator c = true
    · exact .cut [] List.nil_prefix fun word cs _ => by simp [wordsFrom, windowsFrom, hseparator]
    · exact .next .bare [c] trivial nofun rfl fun word cs _ => by
        simp [wordsFrom, windowsFrom, hseparator]
  | quoted q =>
    by_cases hend : c = q
    · exact .cut [c] (List.prefix_refl _) fun word cs _ => by simp [wordsFrom, windowsFrom, hend]
    · exact .next (.quoted q) [c] hmode nofun rfl fun word cs _ => by
        simp [wordsFrom, windowsFrom, hend]
  | escapedBare => cases hmode
  | escapedQuoted q => cases hmode.1

/-- What it does in either case. -/
theorem step (c : Char) (hmode : mode.IsReached rules) : Step rules mode c := by
  cases rules with
  | posix => exact step_posix c hmode
  | windows => exact step_windows c hmode

end Step

/-! ### Open places -/

section Filling

variable {m word' word₁ rest : Marked} {c? : Option Char}

/-- The words of the rest have open places that are filled alike, whatever is filled in, and each word
is a part of the text without the characters that are taken away. -/
def FilledAlike (rules : Rules) (mode : Mode) (word rest : Marked) : Prop :=
  ∃ r : Except Fault (List Marked),
    (∀ w, Inert rules w →
      wordsFrom rules mode (fill w word).reverse (fill w rest) = r.map (List.map (fill w))) ∧
    ∀ ws, r = .ok ws → ∀ m ∈ ws,
      kept (isDropped rules) m <:+: kept (isDropped rules) word ++ kept (isDropped rules) rest

/-- At the end of a text it does not matter when it is filled. -/
theorem FilledAlike.of_end (word : Marked) (r : Except Fault (List Marked))
    (hr : ∀ ws, r = .ok ws → ∀ m ∈ ws, m = word)
    (heq : ∀ w, wordsFrom rules mode (fill w word).reverse [] = r.map (List.map (fill w))) :
    FilledAlike rules mode word [] := by
  refine ⟨r, fun w _ => heq w, fun ws hws m hm => ?_⟩
  rw [hr ws hws m hm]
  exact (List.prefix_append _ _).isInfix

/-- The text has ended. -/
theorem filledAlike_nil (hword : mode = .between → word' = []) (hmode : mode.IsReached rules) :
    FilledAlike rules mode word' [] := by
  have hnone : ∀ (f : Fault) ws, (Except.error f : Except Fault (List Marked)) = .ok ws →
      ∀ m ∈ ws, m = word' := by
    intro f ws hws
    cases hws
  cases mode with
  | between =>
    refine .of_end word' (.ok []) (fun ws hws m hm => ?_) fun w => by cases rules <;> rfl
    cases hws
    cases hm
  | bare =>
    refine .of_end word' (.ok [word']) (fun ws hws m hm => ?_) fun w => ?_
    · cases hws
      exact List.mem_singleton.1 hm
    · cases rules <;> simp [wordsFrom, posixFrom, windowsFrom, Except.map]
  | quoted q =>
    exact .of_end word' (.error .openQuote) (hnone _) fun w => by cases rules <;> rfl
  | escapedBare =>
    cases hmode
    exact .of_end word' (.error .danglingEscape) (hnone _) fun w => rfl
  | escapedQuoted q =>
    cases hmode.1
    exact .of_end word' (.error .danglingEscape) (hnone _) fun w => rfl

/-- The splitter goes on behind a character or a place. -/
theorem FilledAlike.next (h : FilledAlike rules mode' word₁ rest)
    (hkept : kept (isDropped rules) word₁ ++ kept (isDropped rules) rest <:+:
      kept (isDropped rules) word' ++ kept (isDropped rules) (c? :: rest))
    (heq : ∀ w, Inert rules w → wordsFrom rules mode (fill w word').reverse (fill w (c? :: rest)) =
      wordsFrom rules mode' (fill w word₁).reverse (fill w rest)) :
    FilledAlike rules mode word' (c? :: rest) := by
  obtain ⟨r, hfill, hparts⟩ := h
  exact ⟨r, fun w hw => (heq w hw).trans (hfill w hw),
    fun ws hws m hm => (hparts ws hws m hm).trans hkept⟩

/-- A word ends at a character. -/
theorem FilledAlike.cut (h : FilledAlike rules .between [] rest)
    (hkept : kept (isDropped rules) m <+:
      kept (isDropped rules) word' ++ kept (isDropped rules) (c? :: rest))
    (heq : ∀ w, wordsFrom rules mode (fill w word').reverse (fill w (c? :: rest)) =
      (wordsFrom rules .between [] (fill w rest)).map (fill w m :: ·)) :
    FilledAlike rules mode word' (c? :: rest) := by
  obtain ⟨r, hfill, hparts⟩ := h
  refine ⟨r.map (m :: ·), fun w hw => ?_, fun ws hws m' hm' => ?_⟩
  · have hrest := hfill w hw
    rw [fill_nil, List.reverse_nil] at hrest
    rw [heq w, hrest]
    cases r <;> rfl
  · cases r with
    | error f => cases hws
    | ok ws' =>
      cases hws
      rcases List.mem_cons.1 hm' with rfl | hm'
      · exact hkept.isInfix
      · have hsuffix : kept (isDropped rules) rest <:+ kept (isDropped rules) (c? :: rest) :=
          (List.suffix_cons c? rest).filter _
        exact (hparts ws' rfl m' hm').trans (hsuffix.trans (List.suffix_append _ _)).isInfix

/-- What a mode holds back is dropped anyway. -/
theorem Mode.kept_held (h : mode.IsReached rules) :
    kept (isDropped rules) (mode.held.map some) = [] := by
  cases mode with
  | escapedQuoted q =>
    cases h.1
    rfl
  | _ => rfl

/-- It does not matter whether a text is filled first or its words are: induction on the text, one step
at a time. -/
theorem filledAlike (rest : Marked) (hmode : mode.IsReached rules)
    (hword : mode = .between → word' = []) : FilledAlike rules mode word' rest := by
  induction rest generalizing mode word' with
  | nil => exact filledAlike_nil hword hmode
  | cons c? rest ih =>
    have hnone : ∀ w, mode = .between → (fill w word').reverse = [] := by
      intro w hbetween
      rw [hword hbetween]
      rfl
    cases c? with
    | none =>
      have hheld : mode.held.reverse = mode.held := by cases mode <;> rfl
      have hrest : FilledAlike rules mode.behind (word' ++ mode.held.map some ++ [none]) rest :=
        ih hmode.behind fun h => absurd h mode.behind_ne_between
      refine hrest.next ?_ fun w hw => ?_
      · rw [kept_append, kept_append, Mode.kept_held hmode, List.append_nil, List.append_assoc]
        exact List.infix_refl _
      · rw [fill_cons_none, wordsFrom_inert hw hmode (hnone w)]
        simp [fill_map_some, hheld]
    | some c =>
      cases step c hmode with
      | next mode₁ added hmode₁ hne hadded heq =>
        have hrest : FilledAlike rules mode₁ (word' ++ added.reverse.map some) rest :=
          ih hmode₁ fun h => absurd h hne
        refine hrest.next ?_ fun w _ => ?_
        · rw [kept_append, kept_map_some, hadded, kept_cons_some, List.append_assoc]
        · rw [fill_cons_some, heq _ _ (hnone w), fill_append, fill_map_some]
          simp
      | pass hbetween heq =>
        obtain rfl := hword hbetween
        have hrest : FilledAlike rules .between [] rest := ih trivial fun _ => rfl
        refine hrest.next ?_ fun w _ => ?_
        · rw [kept_cons_some]
          exact (List.suffix_append _ _).isInfix
        · exact heq (fill w rest)
      | cut added hadded heq =>
        have hrest : FilledAlike rules .between [] rest := ih trivial fun _ => rfl
        refine hrest.cut (m := word' ++ added.reverse.map some) ?_ fun w => ?_
        · rw [kept_append, kept_map_some, kept_cons_some]
          exact (List.prefix_append_right_inj _).2 ((hadded.map some).trans (List.prefix_append _ _))
        · rw [fill_cons_some, heq _ _ (hnone w), fill_append, fill_map_some]
          simp

/-- A text with open places is split into words with open places. Each of them is a part of the text
without the characters that are taken away. -/
theorem split_fill (rules : Rules) (m : Marked) :
    ∃ r : Except Fault (List Marked),
      (∀ w, Inert rules w → split rules (fill w m) = r.map (List.map (fill w))) ∧
      ∀ ws, r = .ok ws → ∀ m' ∈ ws, kept (isDropped rules) m' <:+: kept (isDropped rules) m := by
  have hall : FilledAlike rules .between [] m := filledAlike m trivial fun _ => rfl
  obtain ⟨r, hfill, hparts⟩ := hall
  exact ⟨r, fun w hw => (split_eq rules _).trans (hfill w hw), hparts⟩

end Filling

/-! ### Texts that a shell gives back -/

section GivenBack

variable {words : List Text}

/-- Words have no more characters than the text that they are taken from. -/
theorem length_posixFrom_le (h : posixFrom mode word cs = .ok words) :
    words.flatten.length ≤ mode.held.length + word.length + cs.length := by
  fun_induction posixFrom mode word cs generalizing words with
  | case1 word | case2 word =>
    obtain rfl := Except.ok.inj h
    simp
  | case3 | case4 | case5 => cases h
  | case10 word c cs hseparator ih =>
    -- The word that ends here is counted with the others.
    cases hrest : posixFrom .between [] cs with
    | error f =>
      rw [hrest] at h
      cases h
    | ok ws =>
      rw [hrest] at h
      obtain rfl := Except.ok.inj h
      have hle := ih hrest
      simp only [Mode.held, List.flatten_cons, List.length_append, List.length_reverse,
        List.length_nil, List.length_cons] at hle ⊢
      omega
  | _ =>
    rename_i ih
    have hle := ih h
    simp only [Mode.held, List.length_nil, List.length_cons] at hle ⊢
    omega

/-- So a text is no word when the splitter has passed over one of its characters. -/
theorem posixFrom_ne (hheld : mode.held = []) (word : Text) (c : Char) (cs : Text) :
    posixFrom mode word cs ≠ .ok [word.reverse ++ c :: cs] := by
  intro h
  have hle := length_posixFrom_le h
  simp only [hheld, List.flatten_cons, List.flatten_nil, List.append_nil, List.length_append,
    List.length_reverse, List.length_cons, List.length_nil] at hle
  omega

/-- A text that is one word as it stands has ordinary characters only. -/
theorem ordinary_of_posixFrom (h : posixFrom .bare word cs = .ok [word.reverse ++ cs]) :
    ∀ c ∈ cs, isOrdinary .posix c = true := by
  induction cs generalizing word with
  | nil => exact fun c hc => absurd hc List.not_mem_nil
  | cons c cs ih =>
    rw [posixFrom] at h
    split at h
    · cases hrest : posixFrom .between [] cs with
      | error f =>
        rw [hrest] at h
        cases h
      | ok ws =>
        rw [hrest] at h
        have hword : word.reverse = word.reverse ++ c :: cs :=
          (List.cons.inj (Except.ok.inj h)).1
        exact absurd (List.self_eq_append_right.1 hword) (List.cons_ne_nil c cs)
    split at h
    · exact absurd h (posixFrom_ne rfl word c cs)
    split at h
    · exact absurd h (posixFrom_ne rfl word c cs)
    · rename_i hseparator hbackslash hquote
      refine List.forall_mem_cons.2 ⟨?_, ih (h.trans (by simp))⟩
      simp [isOrdinary, isDropped, hseparator, hbackslash, hquote]

/-- By POSIX rules a text comes back as one word if and only if it says nothing to a shell. -/
theorem split_posix_eq_self : split .posix w = .ok [w] ↔ Inert .posix w := by
  constructor
  · intro h
    cases w with
    | nil => cases h
    | cons c cs =>
      suffices hbare : posixFrom .bare [] (c :: cs) = .ok [c :: cs] from
        ⟨List.cons_ne_nil c cs, ordinary_of_posixFrom hbare⟩
      by_cases hseparator : isSeparator c = true
      · rw [split, posixFrom, if_pos hseparator] at h
        exact absurd h (posixFrom_ne rfl [] c cs)
      · rw [split, posixFrom, if_neg hseparator] at h
        rw [posixFrom, if_neg hseparator]
        exact h
  · intro hw
    have hreached : Mode.between.IsReached .posix := trivial
    have hwords : wordsFrom .posix .between [] (w ++ []) =
        wordsFrom .posix .bare (w.reverse ++ []) [] := wordsFrom_inert hw hreached (fun _ => rfl) []
    rw [List.append_nil, List.append_nil] at hwords
    rw [split_eq, hwords]
    exact congrArg (fun t => Except.ok [t]) (List.reverse_reverse w)

end GivenBack

end ShellWords

end JitInspect
