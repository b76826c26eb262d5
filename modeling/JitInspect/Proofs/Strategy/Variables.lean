import JitInspect.Strategy.Environment
import Mathlib.Data.List.Nodup

/-!
# Variables that are set one after the other

Variables are set in order: a new one comes last, a known one keeps its place and takes the new value.
So each key stands in them once (`nodup_keys_setAll`), a key has the value that it was set to last
(`lookup_setAll_of_mem`, `lookup_setAll`), and the keys that were there before stay in front of the
new ones (`keys_setAll`).
-/

namespace JitInspect

namespace Knobs

variable {vars more : Variables} {key value : Text} {v : Text × Text}

/-! ### Keys -/

section Keys

/-- The keys of variables, in order. -/
def keys (vars : Variables) : List Text := vars.map Prod.fst

/-- A variable that is set is added, unless it is there already. -/
theorem keys_set (vars : Variables) (key value : Text) :
    keys (set vars key value) = if key ∈ keys vars then keys vars else keys vars ++ [key] := by
  unfold set keys
  induction vars with
  | nil => rfl
  | cons v vars ih =>
    obtain ⟨k, x⟩ := v
    by_cases hkey : k = key
    · simp [RawValue.setKey, hkey]
    · rw [RawValue.setKey, if_neg hkey, List.map_cons, ih, List.map_cons]
      by_cases hmem : key ∈ vars.map Prod.fst
      · rw [if_pos hmem, if_pos (List.mem_cons_of_mem k hmem)]
      · rw [if_neg hmem, if_neg (by simp [hmem, Ne.symm hkey]), List.cons_append]

theorem nodup_keys_set (h : (keys vars).Nodup) : (keys (set vars key value)).Nodup := by
  rw [keys_set]
  split
  · exact h
  · next hnew =>
    refine List.nodup_append.2 ⟨h, List.nodup_singleton key, fun k hk k' hk' heq => hnew ?_⟩
    rwa [← List.mem_singleton.1 hk', ← heq]

/-- However variables are set, each key stands in them once. -/
theorem nodup_keys_setAll (h : (keys vars).Nodup) : (keys (setAll vars more)).Nodup := by
  unfold setAll
  induction more generalizing vars with
  | nil => exact h
  | cons v more ih => exact ih (nodup_keys_set h)

/-- The variables behind several settings. -/
theorem mem_keys_setAll : key ∈ keys (setAll vars more) ↔ key ∈ keys vars ∨ key ∈ keys more := by
  unfold setAll
  induction more generalizing vars with
  | nil => simp [keys]
  | cons v more ih =>
    have hkeys : keys (v :: more) = v.1 :: keys more := rfl
    rw [List.foldl_cons, ih, keys_set, hkeys, List.mem_cons, ← or_assoc]
    refine or_congr_left ?_
    split
    · next hmem => exact ⟨Or.inl, fun h => h.elim id fun heq => heq ▸ hmem⟩
    · rw [List.mem_append, List.mem_singleton]

/-- The keys of variables that are set stand where they stood, with the new ones behind them. -/
theorem keys_setAll (h : (keys more).Nodup) (vars : Variables) :
    keys (setAll vars more) = keys vars ++ (keys more).filter (· ∉ keys vars) := by
  unfold setAll
  induction more generalizing vars with
  | nil => simp [keys]
  | cons v more ih =>
    obtain ⟨hv, hmore⟩ := List.nodup_cons.1 (show (v.1 :: keys more).Nodup from h)
    have hkeys : keys (v :: more) = v.1 :: keys more := rfl
    rw [List.foldl_cons, ih hmore, keys_set, hkeys]
    by_cases hmem : v.1 ∈ keys vars
    · rw [if_pos hmem, List.filter_cons_of_neg (by simpa using hmem)]
    · have hrest : (keys more).filter (· ∉ keys vars ++ [v.1]) =
          (keys more).filter (· ∉ keys vars) := by
        refine List.filter_congr fun k hk => ?_
        have hne : k ≠ v.1 := fun heq => hv (heq ▸ hk)
        simp [hne]
      rw [if_neg hmem, hrest, List.filter_cons_of_pos (by simpa using hmem), List.append_assoc]
      rfl

/-- The variables that were there before stand in front, some of them with other values, and the new
ones behind them. -/
theorem exists_setAll_eq_append (h : (keys more).Nodup) (vars : Variables) :
    ∃ kept new, setAll vars more = kept ++ new ∧ keys kept = keys vars ∧
      keys new = (keys more).filter (· ∉ keys vars) :=
  List.map_eq_append_iff.1 (keys_setAll h vars)

end Keys

/-! ### Values -/

section Values

theorem lookup_set_self (vars : Variables) (key value : Text) :
    (set vars key value).lookup key = some value := by
  unfold set
  induction vars with
  | nil => simp [RawValue.setKey]
  | cons v vars ih =>
    obtain ⟨k, x⟩ := v
    by_cases hkey : k = key
    · simp [RawValue.setKey, hkey]
    · have hne : (key == k) = false := beq_false_of_ne (Ne.symm hkey)
      simp [RawValue.setKey, hkey, List.lookup_cons, hne, ih]

theorem lookup_set_of_ne {other : Text} (h : other ≠ key) :
    (set vars key value).lookup other = vars.lookup other := by
  have hne : (other == key) = false := beq_false_of_ne h
  unfold set
  induction vars with
  | nil => simp [RawValue.setKey, List.lookup_cons, hne]
  | cons v vars ih =>
    obtain ⟨k, x⟩ := v
    by_cases hkey : k = key
    · simp [RawValue.setKey, hkey, List.lookup_cons, hne]
    · simp [RawValue.setKey, hkey, List.lookup_cons, ih]

/-- A variable that is not among those that are set keeps its value. -/
theorem lookup_setAll (h : ∀ v ∈ more, v.1 ≠ key) :
    (setAll vars more).lookup key = vars.lookup key := by
  unfold setAll
  induction more generalizing vars with
  | nil => rfl
  | cons v more ih =>
    rw [List.foldl_cons, ih fun u hu => h u (List.mem_cons_of_mem _ hu)]
    exact lookup_set_of_ne (h v List.mem_cons_self).symm

/-- A variable keeps the value that it is set to, if it is not set again. -/
theorem lookup_setAll_of_mem (vars before : Variables) (value : Text) {behind : Variables}
    (h : ∀ v ∈ behind, v.1 ≠ key) :
    (setAll vars (before ++ (key, value) :: behind)).lookup key = some value := by
  have hsplit : setAll vars (before ++ (key, value) :: behind) =
      setAll (set (setAll vars before) key value) behind := by
    simp [setAll]
  rw [hsplit, lookup_setAll h, lookup_set_self]

/-- When each key stands once in the variables, its value is the one that stands behind it. -/
theorem lookup_eq_some_iff (h : (keys vars).Nodup) :
    vars.lookup key = some value ↔ (key, value) ∈ vars := by
  induction vars with
  | nil => simp
  | cons v vars ih =>
    obtain ⟨k, x⟩ := v
    obtain ⟨hk, hvars⟩ := List.nodup_cons.1 (show (k :: keys vars).Nodup from h)
    by_cases hkey : key = k
    · subst hkey
      have hnot : (key, value) ∉ vars := fun hmem => hk (List.mem_map_of_mem hmem)
      simp [hnot, eq_comm]
    · have hne : (key == k) = false := beq_false_of_ne hkey
      rw [List.lookup_cons, hne]
      simp [ih hvars, hkey]

/-- A variable has the value that it is set to, if each key is set once. -/
theorem lookup_setAll_of_nodup (h : (keys more).Nodup) (vars : Variables) (hv : v ∈ more) :
    (setAll vars more).lookup v.1 = some v.2 := by
  obtain ⟨before, behind, rfl⟩ := List.append_of_mem hv
  refine lookup_setAll_of_mem vars before v.2 fun u hu heq => ?_
  have hbehind : (v.1 :: keys behind).Nodup := by
    have hparts : keys (before ++ v :: behind) = keys before ++ v.1 :: keys behind :=
      List.map_append
    rw [hparts] at h
    exact (List.nodup_append.1 h).2.1
  refine (List.nodup_cons.1 hbehind).1 ?_
  rw [← heq]
  exact List.mem_map_of_mem hu

/-- What stands behind a key that is set was set for it. -/
theorem mem_of_mem_setAll (hvars : (keys vars).Nodup) (h : (keys more).Nodup)
    (hv : v ∈ setAll vars more) (hkey : v.1 ∈ keys more) : v ∈ more := by
  obtain ⟨u, hu, heq⟩ := List.mem_map.1 hkey
  have hlookup := lookup_setAll_of_nodup h vars hu
  rw [heq, (lookup_eq_some_iff (nodup_keys_setAll hvars)).2 hv] at hlookup
  rwa [← Prod.ext heq (Option.some.inj hlookup).symm]

/-- A variable may be set before or after those are kept whose keys pass a test. -/
theorem filter_set (p : Text → Bool) (vars : Variables) (key value : Text) :
    ((set vars key value).filter fun v => p v.1) =
      if p key then set (vars.filter fun v => p v.1) key value else vars.filter fun v => p v.1 := by
  unfold set
  induction vars with
  | nil => cases hp : p key <;> simp [RawValue.setKey, hp]
  | cons v vars ih =>
    obtain ⟨k, x⟩ := v
    rw [RawValue.setKey]
    split
    · next heq =>
      subst heq
      cases hp : p k <;> simp [RawValue.setKey, hp]
    · next hne =>
      rw [List.filter_cons, ih, List.filter_cons]
      cases p k <;> cases p key <;> simp [RawValue.setKey, hne]

/-- Setting variables and filtering them by name can be exchanged. -/
theorem filter_setAll (p : Text → Bool) (vars more : Variables) :
    ((setAll vars more).filter fun v => p v.1) =
      setAll (vars.filter fun v => p v.1) (more.filter fun v => p v.1) := by
  unfold setAll
  induction more generalizing vars with
  | nil => rfl
  | cons v more ih =>
    rw [List.foldl_cons, ih, filter_set, List.filter_cons]
    cases p v.1 <;> rfl

/-- The variables that are set win over those that were there before. -/
structure Wins (more vars after : Variables) : Prop where
  /-- Each of them has the value that it is set to, -/
  given : ∀ v ∈ more, after.lookup v.1 = some v.2
  /-- the others keep theirs, -/
  kept : ∀ key, key ∉ keys more → after.lookup key = vars.lookup key
  /-- and the keys stand where they stood, with the new ones behind them. -/
  keys_eq : keys after = keys vars ++ (keys more).filter (· ∉ keys vars)

/-- Variables that are set last win. -/
theorem wins_setAll (h : (keys more).Nodup) (vars : Variables) : Wins more vars (setAll vars more) where
  given _ hv := lookup_setAll_of_nodup h vars hv
  kept _ hkey := lookup_setAll fun _ hv heq => hkey (heq ▸ List.mem_map_of_mem hv)
  keys_eq := keys_setAll h vars

end Values

/-! ### Keys that a run sets -/

section Parts

variable {h : Host} {info : SymbolInfo} {s : Settings} {l : RuntimeLayout} {route : Route}
  {file : Option Text} {P : Text → Prop}

/-- The knobs for another generator. -/
def altJitKnobs : List Text := ["AltJitName", "AltJit"]

/-- The knobs for flow graphs. -/
def flowGraphKnobs : List Text := ["JitDumpFg", "JitDumpFgDot", "JitDumpFgPhase", "JitDumpFgFile"]

/-- What holds of the knobs for another compiler holds of its variables. -/
theorem forall_ofAltJit (hknob : ∀ name ∈ altJitKnobs, P (h.defaults.knobStart ++ name)) :
    ∀ v ∈ ofAltJit h route info, P v.1 := by
  unfold ofAltJit
  split
  · simpa [altJitKnobs] using hknob
  · exact List.forall_mem_nil _

theorem forall_ofRunApp (hknob : P (h.defaults.knobStart ++ ListingKind.disasm.knob)) :
    ∀ v ∈ ofRunApp h route, P v.1 := by
  unfold ofRunApp
  split
  · split
    · exact List.forall_mem_nil _
    · exact List.forall_mem_singleton.2 hknob
  · exact List.forall_mem_nil _

theorem forall_ofPack (hkey : P coreLibraries) : ∀ v ∈ ofPack s l, P v.1 := by
  unfold ofPack
  split
  · split
    · exact List.forall_mem_singleton.2 hkey
    · exact List.forall_mem_nil _
  · exact List.forall_mem_nil _

theorem forall_ofFlowGraphs (hknob : ∀ name ∈ flowGraphKnobs, P (h.defaults.knobStart ++ name)) :
    ∀ v ∈ ofFlowGraphs h info file, P v.1 := by
  unfold ofFlowGraphs
  split
  · split
    · exact List.forall_mem_nil _
    · simpa [flowGraphKnobs] using hknob
  · exact List.forall_mem_nil _

end Parts

end Knobs

end JitInspect
