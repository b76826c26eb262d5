import Mathlib.Data.List.Forall2

/-!
# Sequences that may fail

A sequence of steps ends well exactly when each of its steps does (`bind_eq_ok`). A list is made
element by element, or passed through a question that may go unanswered: what comes out is known by
the element that it was made from, and a failure by the element that failed.
-/

namespace JitInspect

/-! ### One step after the other -/

section Steps

variable {ε ε₁ α β : Type}

/-- A sequence ends well when both parts do. -/
theorem bind_eq_ok {x : Except ε α} {g : α → Except ε β} {b : β} :
    (x >>= g) = .ok b ↔ ∃ a, x = .ok a ∧ g a = .ok b := by
  constructor
  · intro h
    cases x with
    | error e => cases h
    | ok a => exact ⟨a, rfl, h⟩
  · rintro ⟨a, rfl, h⟩
    exact h

/-- It fails when one of them does. -/
theorem bind_eq_error {x : Except ε α} {g : α → Except ε β} {e : ε} :
    (x >>= g) = .error e ↔ x = .error e ∨ ∃ a, x = .ok a ∧ g a = .error e := by
  constructor
  · intro h
    cases x with
    | error e₁ => exact Or.inl (congrArg Except.error (Except.error.inj h))
    | ok a => exact Or.inr ⟨a, rfl, h⟩
  · rintro (rfl | ⟨a, rfl, h⟩)
    · rfl
    · exact h

/-- A result that was mapped. -/
theorem map_eq_ok {x : Except ε α} {g : α → β} {b : β} :
    x.map g = .ok b ↔ ∃ a, x = .ok a ∧ g a = b := by
  cases x <;> simp [Except.map]

/-- Mapping the fault leaves the result. -/
theorem mapError_eq_ok {x : Except ε α} {g : ε → ε₁} {a : α} :
    x.mapError g = .ok a ↔ x = .ok a := by
  cases x <;> simp [Except.mapError]

end Steps

/-! ### One element after the other -/

section Elements

variable {ε α β : Type} {f : α → Except ε β} {xs : List α} {ys : List β}

/-- When all the elements can be mapped, each is mapped to the result at its place. -/
theorem forall₂_of_mapM (h : xs.mapM f = .ok ys) :
    List.Forall₂ (fun x y => f x = .ok y) xs ys := by
  induction xs generalizing ys with
  | nil =>
    cases h
    exact .nil
  | cons x xs ih =>
    rw [List.mapM_cons] at h
    obtain ⟨y, hy, h⟩ := bind_eq_ok.1 h
    obtain ⟨ys, hys, h⟩ := bind_eq_ok.1 h
    cases h
    exact .cons hy (ih hys)

/-- A traversal that fails has failed at one of the elements. -/
theorem exists_of_mapM_eq_error {e : ε} (h : xs.mapM f = .error e) : ∃ x ∈ xs, f x = .error e := by
  induction xs with
  | nil => cases h
  | cons x xs ih =>
    rw [List.mapM_cons] at h
    rcases bind_eq_error.1 h with hx | ⟨y, -, h⟩
    · exact ⟨x, List.mem_cons_self, hx⟩
    · rcases bind_eq_error.1 h with hxs | ⟨ys, -, h⟩
      · obtain ⟨x₁, hmem, hx₁⟩ := ih hxs
        exact ⟨x₁, List.mem_cons_of_mem _ hmem, hx₁⟩
      · cases h

/-- What is chosen, one element after the other, is one of them or was chosen before. -/
theorem mem_of_foldl_eq_some {choose : Option α → α → Option α} {x : α}
    (hchoose : ∀ best y, choose best y = some y ∨ choose best y = best) {xs : List α} {best : Option α}
    (h : xs.foldl choose best = some x) : x ∈ xs ∨ best = some x := by
  induction xs generalizing best with
  | nil => exact Or.inr h
  | cons y xs ih =>
    rcases ih h with hmem | hbest
    · exact Or.inl (List.mem_cons_of_mem _ hmem)
    · rcases hchoose best y with hy | hsame
      · rw [hy, Option.some.injEq] at hbest
        exact Or.inl (hbest ▸ List.mem_cons_self)
      · exact Or.inr (hsame ▸ hbest)

/-- What passes a filter is in the list, and the question was answered with yes. -/
theorem of_mem_filterM {f : α → Except ε Bool} {xs ys : List α} {y : α}
    (h : xs.filterM f = .ok ys) (hy : y ∈ ys) : y ∈ xs ∧ f y = .ok true := by
  have haux : ∀ (xs acc zs : List α), List.filterAuxM f xs acc = .ok zs → y ∈ zs →
      y ∈ acc ∨ y ∈ xs ∧ f y = .ok true := by
    intro xs
    induction xs with
    | nil =>
      intro acc zs h hy
      cases h
      exact Or.inl hy
    | cons x xs ih =>
      intro acc zs h hy
      obtain ⟨answer, hanswer, h⟩ := bind_eq_ok.1 h
      rcases ih _ _ h hy with hacc | ⟨hmem, hf⟩
      · cases answer with
        | false => exact Or.inl hacc
        | true =>
          rcases List.mem_cons.1 hacc with rfl | hacc
          · exact Or.inr ⟨List.mem_cons_self, hanswer⟩
          · exact Or.inl hacc
      · exact Or.inr ⟨List.mem_cons_of_mem _ hmem, hf⟩
  obtain ⟨zs, hzs, h⟩ := bind_eq_ok.1 h
  cases h
  rcases haux xs [] zs hzs (List.mem_reverse.1 hy) with hnone | hmem
  · cases hnone
  · exact hmem

/-- What passes a filter is known when the question is answered for each element. -/
theorem filterM_of_forall {f : α → Except ε Bool} {xs : List α} {g : α → Bool}
    (h : ∀ x ∈ xs, f x = .ok (g x)) : xs.filterM f = .ok (xs.filter g) := by
  have haux : ∀ (xs acc : List α), (∀ x ∈ xs, f x = .ok (g x)) →
      List.filterAuxM f xs acc = .ok ((xs.filter g).reverse ++ acc) := by
    intro xs
    induction xs with
    | nil => exact fun acc _ => rfl
    | cons x xs ih =>
      intro acc h
      obtain ⟨hx, hxs⟩ := List.forall_mem_cons.1 h
      refine bind_eq_ok.2 ⟨g x, hx, ?_⟩
      rw [ih _ hxs, List.filter_cons]
      cases g x <;> simp
  refine bind_eq_ok.2 ⟨_, haux xs [] h, ?_⟩
  rw [List.append_nil, List.reverse_reverse]
  rfl

end Elements

end JitInspect

