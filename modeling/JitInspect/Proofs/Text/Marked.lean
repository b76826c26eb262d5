import JitInspect.Proofs.Text.Pattern

/-!
# Texts with marked places

Replacing a pattern is told character by character (`replace_pattern`, `replace_cons`), and two
replacements that have no character in common can be made in either order (`replace_comm`).

The occurrences of a pattern that replacing finds are places in the text. A text with marked places
(`Text.Marked`) can be filled with the pattern, which gives the text back, or with what replaces it
(`replace_fill`). The marks are the right ones when the pattern begins at no other character
(`Marked.Complete`). That stays so for a part of the text, and it holds when it holds without some
characters that the pattern does not have (`Marked.complete_of_kept`).
-/

namespace JitInspect

namespace Text

variable {pat new pat' new' w x t : Text} {c : Char}

/-! ### Replacing character by character -/

section Replacing

/-- A text in which the pattern cannot begin is passed over. -/
theorem replace_append_of_not_mem {p : Char} {ps : Text} (h : p ∉ x) (new t : Text) :
    replace (p :: ps) new (x ++ t) = x ++ replace (p :: ps) new t := by
  induction x with
  | nil => rfl
  | cons c x ih =>
    rw [List.mem_cons, not_or] at h
    have hstart : ¬ p :: ps <+: c :: (x ++ t) := fun hprefix => h.1 (List.cons_prefix_cons.1 hprefix).1
    rw [List.cons_append, replace_cons hstart, ih h.2]
    rfl

/-- What stands at the start and has nothing of what is put in, stood there before. -/
theorem prefix_of_prefix_replace (hpat : pat ≠ []) (hnew : new ≠ []) (hx : List.Disjoint x new)
    (h : x <+: replace pat new t) : x <+: t := by
  induction x generalizing t with
  | nil => exact List.nil_prefix
  | cons c x ih =>
    obtain ⟨hc, hx⟩ := List.disjoint_cons_left.1 hx
    by_cases hstart : pat <+: t
    · obtain ⟨rest, rfl⟩ := hstart
      obtain ⟨n, ns, rfl⟩ := List.exists_cons_of_ne_nil hnew
      rw [replace_pattern hpat] at h
      exact absurd ((List.cons_prefix_cons.1 h).1 ▸ List.mem_cons_self) hc
    · cases t with
      | nil => exact absurd h (by simp [replace, splitOn, splitOnFrom, join])
      | cons d t =>
        rw [replace_cons hstart] at h
        obtain ⟨rfl, hrest⟩ := List.cons_prefix_cons.1 h
        exact List.cons_prefix_cons.2 ⟨rfl, ih hx hrest⟩

/-- Two patterns can be replaced in either order if none of the texts has a character of another. -/
theorem replace_comm (hpat : pat ≠ []) (hpat' : pat' ≠ []) (hnew : new ≠ []) (hnew' : new' ≠ [])
    (hpats : List.Disjoint pat pat') (hright : List.Disjoint pat' new)
    (hleft : List.Disjoint pat new') (t : Text) :
    replace pat' new' (replace pat new t) = replace pat new (replace pat' new' t) := by
  obtain ⟨p, ps, rfl⟩ := List.exists_cons_of_ne_nil hpat
  obtain ⟨q, qs, rfl⟩ := List.exists_cons_of_ne_nil hpat'
  have hq : q ∉ new := (List.disjoint_cons_left.1 hright).1
  have hp : p ∉ new' := (List.disjoint_cons_left.1 hleft).1
  have hqpat : q ∉ p :: ps := (List.disjoint_cons_right.1 hpats).1
  have hppat : p ∉ q :: qs := (List.disjoint_cons_left.1 hpats).1
  induction hn : t.length using Nat.strongRecOn generalizing t with
  | _ n ih =>
    by_cases hstart : p :: ps <+: t
    · obtain ⟨rest, rfl⟩ := hstart
      have hlt : rest.length < n := by simp only [List.length_append, List.length_cons] at hn; omega
      rw [replace_pattern hpat, replace_append_of_not_mem hq, ih _ hlt rest rfl,
        replace_append_of_not_mem hqpat, replace_pattern hpat]
    · by_cases hstart' : q :: qs <+: t
      · obtain ⟨rest, rfl⟩ := hstart'
        have hlt : rest.length < n := by simp only [List.length_append, List.length_cons] at hn; omega
        rw [replace_pattern hpat', replace_append_of_not_mem hppat, replace_pattern hpat',
          ih _ hlt rest rfl, replace_append_of_not_mem hp]
      · cases t with
        | nil => rfl
        | cons c t =>
          have hlt : t.length < n := by simp only [List.length_cons] at hn; omega
          have hafter : ¬ q :: qs <+: c :: replace (p :: ps) new t := by
            intro hprefix
            obtain ⟨rfl, hrest⟩ := List.cons_prefix_cons.1 hprefix
            exact hstart' (List.cons_prefix_cons.2 ⟨rfl, prefix_of_prefix_replace hpat hnew
              (List.disjoint_cons_left.1 hright).2 hrest⟩)
          have hafter' : ¬ p :: ps <+: c :: replace (q :: qs) new' t := by
            intro hprefix
            obtain ⟨rfl, hrest⟩ := List.cons_prefix_cons.1 hprefix
            exact hstart (List.cons_prefix_cons.2 ⟨rfl, prefix_of_prefix_replace hpat' hnew'
              (List.disjoint_cons_left.1 hleft).2 hrest⟩)
          rw [replace_cons hstart, replace_cons hafter, replace_cons hstart', replace_cons hafter',
            ih _ hlt t rfl]

end Replacing

/-! ### Marked places -/

/-- A text with places that are left open. -/
abbrev Marked := List (Option Char)

namespace Marked

variable {m m' : Marked}

/-- The text with all open places filled alike. -/
def fill (w : Text) (m : Marked) : Text := m.flatMap fun c? => c?.elim w fun c => [c]

@[simp] theorem fill_nil (w : Text) : fill w [] = [] := rfl

@[simp] theorem fill_cons_none (w : Text) (m : Marked) : fill w (none :: m) = w ++ fill w m := rfl

@[simp] theorem fill_cons_some (w : Text) (c : Char) (m : Marked) :
    fill w (some c :: m) = c :: fill w m := rfl

@[simp] theorem fill_append (w : Text) (m m' : Marked) :
    fill w (m ++ m') = fill w m ++ fill w m' := List.flatMap_append

/-- A text without open places stays as it is. -/
theorem fill_map_some (w t : Text) : fill w (t.map some) = t := by
  induction t with
  | nil => rfl
  | cons c cs ih => rw [List.map_cons, fill_cons_some, ih]

/-- Filled with the pattern, the text has an occurrence of it at each open place, and no other one
begins at a character. -/
def Complete (pat : Text) (m : Marked) : Prop :=
  ∀ c rest, some c :: rest <:+ m → ¬ pat <+: fill pat (some c :: rest)

theorem Complete.of_cons {c? : Option Char} (h : Complete pat (c? :: m)) : Complete pat m :=
  fun c rest hsuffix => h c rest (hsuffix.trans (List.suffix_cons c? m))

/-- Replacing the pattern fills the open places with what replaces it. -/
theorem replace_fill (hpat : pat ≠ []) (h : Complete pat m) (new : Text) :
    replace pat new (fill pat m) = fill new m := by
  induction m with
  | nil => rfl
  | cons c? m ih =>
    cases c? with
    | none => rw [fill_cons_none, replace_pattern hpat, ih h.of_cons, fill_cons_none]
    | some c =>
      have hstart : ¬ pat <+: c :: fill pat m := h c m (List.suffix_refl _)
      rw [fill_cons_some, replace_cons hstart, ih h.of_cons, fill_cons_some]

/-- Every text can be marked. -/
theorem exists_complete (hpat : pat ≠ []) (t : Text) : ∃ m, fill pat m = t ∧ Complete pat m := by
  induction hn : t.length using Nat.strongRecOn generalizing t with
  | _ n ih =>
    by_cases hstart : pat <+: t
    · obtain ⟨rest, rfl⟩ := hstart
      have hlength := List.length_pos_iff.2 hpat
      have hlt : rest.length < n := by rw [List.length_append] at hn; omega
      obtain ⟨m, hfill, hcomplete⟩ := ih _ hlt rest rfl
      refine ⟨none :: m, by rw [fill_cons_none, hfill], fun c b hsuffix => ?_⟩
      rcases List.suffix_cons_iff.1 hsuffix with heq | hsuffix
      · cases heq
      · exact hcomplete c b hsuffix
    · cases t with
      | nil => exact ⟨[], rfl, fun c b hsuffix => absurd (List.suffix_nil.1 hsuffix) (by simp)⟩
      | cons c t =>
        have hlt : t.length < n := by rw [List.length_cons] at hn; omega
        obtain ⟨m, hfill, hcomplete⟩ := ih _ hlt t rfl
        refine ⟨some c :: m, by rw [fill_cons_some, hfill], fun d b hsuffix => ?_⟩
        rcases List.suffix_cons_iff.1 hsuffix with heq | hsuffix
        · rw [heq, fill_cons_some, hfill]
          exact hstart
        · exact hcomplete d b hsuffix

theorem Complete.of_part (h : Complete pat m) (hpart : m' <:+: m) : Complete pat m' := by
  obtain ⟨a, b, rfl⟩ := hpart
  intro c rest hsuffix hstart
  obtain ⟨front, rfl⟩ := hsuffix
  refine h c (rest ++ b) ⟨a ++ front, by simp⟩ (hstart.trans ?_)
  rw [← List.cons_append, fill_append]
  exact List.prefix_append _ _

/-! ### Texts without some of their characters -/

section Kept

variable {drop : Char → Bool}

/-- The text without the characters of a class, and with all its open places. -/
def kept (drop : Char → Bool) (m : Marked) : Marked := m.filter fun c? => !c?.any drop

@[simp] theorem kept_cons_none (drop : Char → Bool) (m : Marked) :
    kept drop (none :: m) = none :: kept drop m := rfl

theorem kept_cons_of_drop (h : drop c = true) (m : Marked) :
    kept drop (some c :: m) = kept drop m :=
  List.filter_cons_of_neg (by simp [h])

theorem kept_cons_of_not_drop (h : drop c = false) (m : Marked) :
    kept drop (some c :: m) = some c :: kept drop m :=
  List.filter_cons_of_pos (by simp [h])

@[simp] theorem kept_append (drop : Char → Bool) (m m' : Marked) :
    kept drop (m ++ m') = kept drop m ++ kept drop m' := List.filter_append ..

/-- In a text without open places the characters are filtered. -/
theorem kept_map_some (drop : Char → Bool) (t : Text) :
    kept drop (t.map some) = (t.filter fun c => !drop c).map some := by
  unfold kept
  rw [List.filter_map]
  rfl

theorem kept_cons_some (drop : Char → Bool) (c : Char) (m : Marked) :
    kept drop (some c :: m) = ([c].filter fun c => !drop c).map some ++ kept drop m := by
  rw [← kept_map_some]
  exact kept_append drop [some c] m

/-- Nothing of a text is dropped if it has no character of the class. -/
theorem filter_eq_self (h : ∀ c ∈ w, drop c = false) : w.filter (fun c => !drop c) = w :=
  List.filter_eq_self.2 fun c hc => by rw [h c hc]; rfl

/-- If the word has no character that is dropped, it does not matter whether a text is filled or filtered
first. -/
theorem fill_kept (h : ∀ c ∈ w, drop c = false) (m : Marked) :
    fill w (kept drop m) = (fill w m).filter fun c => !drop c := by
  induction m with
  | nil => rfl
  | cons c? m ih =>
    cases c? with
    | none => rw [kept_cons_none, fill_cons_none, fill_cons_none, List.filter_append,
        filter_eq_self h, ih]
    | some c =>
      cases hc : drop c with
      | true =>
        rw [kept_cons_of_drop hc, fill_cons_some, List.filter_cons_of_neg (by simp [hc]), ih]
      | false =>
        rw [kept_cons_of_not_drop hc, fill_cons_some, fill_cons_some,
          List.filter_cons_of_pos (by simp [hc]), ih]

/-- If the marks are the right ones without some characters, they are so with these. -/
theorem complete_of_kept (hpat : pat ≠ []) (hdrop : ∀ c ∈ pat, drop c = false)
    (h : Complete pat (kept drop m)) : Complete pat m := by
  intro c rest hsuffix hstart
  have hc : drop c = false := by
    obtain ⟨p, ps, rfl⟩ := List.exists_cons_of_ne_nil hpat
    rw [fill_cons_some] at hstart
    exact (List.cons_prefix_cons.1 hstart).1 ▸ hdrop p List.mem_cons_self
  have hcons := kept_cons_of_not_drop hc rest
  have hkept : some c :: kept drop rest <:+ kept drop m := hcons ▸ hsuffix.filter _
  refine h c _ hkept ?_
  rw [← hcons, fill_kept hdrop]
  have hfiltered := hstart.filter (fun c => !drop c)
  rwa [filter_eq_self hdrop] at hfiltered

end Kept

end Marked

/-- Without the characters of the class the pattern begins only where it stands in the text as it is. -/
def StandsIn (pat : Text) (drop : Char → Bool) (t : Text) : Prop :=
  ∀ b, b <:+ t → b.head? = pat.head? → pat <+: b.filter (fun c => !drop c) → pat <+: b

instance (pat : Text) (drop : Char → Bool) (t : Text) : Decidable (StandsIn pat drop t) :=
  decidable_of_iff (∀ b ∈ t.tails, b.head? = pat.head? →
    pat <+: b.filter (fun c => !drop c) → pat <+: b) (by simp only [List.mem_tails, StandsIn])

/-- Then the marks are the right ones also without these characters. -/
theorem Marked.Complete.kept {m : Marked} {drop : Char → Bool} (h : m.Complete pat)
    (hpat : pat ≠ []) (hdrop : ∀ c ∈ pat, drop c = false) (hstands : StandsIn pat drop (m.fill pat)) :
    (m.kept drop).Complete pat := by
  intro c rest hsuffix hstart
  obtain ⟨front, heq⟩ := hsuffix
  obtain ⟨a, b, rfl, -, hb⟩ := List.filter_eq_append_iff.1 heq.symm
  obtain ⟨a', b', rfl, hdropped, hc, hb'⟩ := List.filter_eq_cons_iff.1 hb
  refine h c b' ⟨a ++ a', by simp⟩ (hstands _ ?_ ?_ ?_)
  · rw [← List.append_assoc, Marked.fill_append]
    exact List.suffix_append _ _
  · obtain ⟨p, ps, rfl⟩ := List.exists_cons_of_ne_nil hpat
    rw [Marked.fill_cons_some] at hstart ⊢
    rw [(List.cons_prefix_cons.1 hstart).1]
    rfl
  · have hc' : drop c = false := by simpa using hc
    have hkept : Marked.kept drop (some c :: b') = some c :: rest :=
      (Marked.kept_cons_of_not_drop hc' b').trans (congrArg (some c :: ·) hb')
    rw [← Marked.fill_kept hdrop, hkept]
    exact hstart

end Text

end JitInspect
