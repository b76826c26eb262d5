import JitInspect.Proofs.Strategy.Variables
import JitInspect.Proofs.Text.LowerCase
import JitInspect.Proofs.Text.Pattern

/-!
# Variables of the user

A run sets some variables by itself, and the variables of the user are set after them
(`environment_wins`). A compiler that has no variables of its own is handed options instead, and there
the spelling of a key is lost: all keys that name one knob (`Names`), with the newer or the older
beginning and in any case, give one option. An option may therefore be given several times, and the
last one counts (`lastValue`).

The user decides about each knob that a variable of the user names (`environment_decides`). The last
variable that names the knob is a new one of the user, or it stood there before; in the second case
it is the only one there that names the knob, since no two keys that a run sets by itself do
(`eq_of_names`), and it is the very variable of the user.
-/

namespace JitInspect

namespace Knobs

variable {h : Host} {strategy : Strategy} {info : SymbolInfo} {s : Settings} {l : RuntimeLayout}
  {file : Option Text} {vars more : Variables} {key value knob : Text}

/-! ### Keys that name a knob -/

section Names

/-- The key names the knob, in the newer or the older spelling and in any case. -/
def Names (key knob : Text) : Prop :=
  Text.lower key = "dotnet_" ++ knob ∨ Text.lower key = "complus_" ++ knob

/-- A key is read as a knob when it names it. -/
theorem knobOf_eq_some_iff (hstart : h.defaults.knobStart = "DOTNET_") :
    knobOf h key = some knob ↔ Names key knob := by
  have hnewer : Text.lower "DOTNET_" = "dotnet_" := by decide
  have holder : Text.lower legacyStart = "complus_" := by decide
  rw [knobOf, hstart, hnewer, holder]
  cases hfirst : Text.after? "dotnet_" (Text.lower key) with
  | some rest =>
    have hkey := Text.eq_append_of_after? hfirst
    change some rest = some knob ↔ _
    rw [Names, hkey, Option.some.injEq]
    constructor
    · rintro rfl
      exact Or.inl rfl
    · rintro (heq | heq)
      · exact List.append_cancel_left heq
      · cases heq
  | none =>
    have hnot : Text.lower key ≠ "dotnet_" ++ knob := by
      intro hkey
      rw [hkey, Text.after?_append] at hfirst
      cases hfirst
    change Text.after? "complus_" (Text.lower key) = some knob ↔ _
    rw [Names, or_iff_right hnot]
    refine ⟨Text.eq_append_of_after?, fun hkey => ?_⟩
    rw [hkey, Text.after?_append]

/-- The knobs that a run may set by itself. -/
def ownKnobs : List Text :=
  ["JitDisasm", "JitDump", "JitPrintInlinedMethods", "AltJitName", "AltJit", "TieredPGO",
    "JitDisasmDiffable", "TieredCompilation", "JitDumpFg", "JitDumpFgDot", "JitDumpFgPhase",
    "JitDumpFgFile"]

/-- The keys of the variables that a run may set by itself. -/
def ownKeys : List Text := coreLibraries :: ownKnobs.map ("DOTNET_" ++ ·)

/-- No two of them name the same knob. -/
theorem eq_of_names {a b : Text} (ha : a ∈ ownKeys) (hb : b ∈ ownKeys) (hknob : Names a knob)
    (hknob' : Names b knob) : a = b := by
  have hdistinct : ∀ a ∈ ownKeys, ∀ b ∈ ownKeys,
      knobOf {} a = knobOf {} b → knobOf {} a = none ∨ a = b := by
    decide +kernel
  have h₁ : knobOf {} a = some knob := (knobOf_eq_some_iff rfl).2 hknob
  have h₂ : knobOf {} b = some knob := (knobOf_eq_some_iff rfl).2 hknob'
  refine (hdistinct a ha b hb (h₁.trans h₂.symm)).resolve_left fun hnone => ?_
  rw [hnone] at h₁
  cases h₁

/-- A run sets no other variables by itself. -/
theorem mem_ownKeys (hstart : h.defaults.knobStart = "DOTNET_")
    (hkey : key ∈ keys (base h strategy info s l file)) : key ∈ ownKeys := by
  have hknob : ∀ name ∈ ownKnobs, h.defaults.knobStart ++ name ∈ ownKeys := by
    intro name hname
    rw [hstart]
    exact List.mem_cons_of_mem _ (List.mem_map_of_mem hname)
  have haltJit : ∀ name ∈ altJitKnobs, name ∈ ownKnobs := by decide
  have hgraphs : ∀ name ∈ flowGraphKnobs, name ∈ ownKnobs := by decide
  rw [base, mem_keys_setAll] at hkey
  rcases hkey with hnil | hkey
  · cases hnil
  obtain ⟨v, hv, rfl⟩ := List.mem_map.1 hkey
  simp only [List.cons_append, List.mem_cons, List.mem_append, List.not_mem_nil, or_false] at hv
  rcases hv with rfl | ((((hv | rfl | rfl) | hv) | rfl) | hv) | hv
  · exact hknob _ (by cases strategy.listing <;> decide)
  · exact forall_ofAltJit (fun name hname => hknob name (haltJit name hname)) v hv
  · exact hknob _ (by decide)
  · exact hknob _ (by decide)
  · exact forall_ofPack List.mem_cons_self v hv
  · exact hknob _ (by decide)
  · exact forall_ofFlowGraphs (fun name hname => hknob name (hgraphs name hname)) v hv
  · exact forall_ofRunApp (hknob _ (by decide)) v hv

end Names

/-! ### The last option for a knob -/

section Last

/-- The value of the last option for the knob among those that the variables stand for. -/
def lastValue (h : Host) (vars : Variables) (knob : Text) : Option Text :=
  ((options h vars).filter fun o => o.1 = optionStart ++ knob).getLast?.map Prod.snd

/-- The variables that name the knob. -/
def naming (h : Host) (vars : Variables) (knob : Text) : Variables :=
  vars.filter fun v => knobOf h v.1 = some knob

/-- The variables that name a knob. -/
theorem mem_naming (hstart : h.defaults.knobStart = "DOTNET_") {v : Text × Text} :
    v ∈ naming h vars knob ↔ v ∈ vars ∧ Names v.1 knob := by
  rw [naming, List.mem_filter, decide_eq_true_iff, knobOf_eq_some_iff hstart]

/-- The options for a knob are those of the variables that name it. -/
theorem filter_options (h : Host) (vars : Variables) (knob : Text) :
    ((options h vars).filter fun o => o.1 = optionStart ++ knob) =
      (naming h vars knob).map fun v => (optionStart ++ knob, v.2) := by
  unfold options naming
  induction vars with
  | nil => rfl
  | cons v vars ih =>
    obtain ⟨k, x⟩ := v
    simp only [List.filterMap_cons, List.filter_cons]
    cases hknob : knobOf h k with
    | none => simpa using ih
    | some name =>
      by_cases hname : name = knob
      · simpa [hname] using ih
      · simpa [hname] using ih

/-- The last option for a knob has the value of the last variable that names it. -/
theorem lastValue_eq (h : Host) (vars : Variables) (knob : Text) :
    lastValue h vars knob = (naming h vars knob).getLast?.map Prod.snd := by
  rw [lastValue, filter_options, List.getLast?_map, Option.map_map]
  rfl

/-- A variable that does not name the knob may be set. -/
theorem lastValue_set (hkey : knobOf h key ≠ some knob) (vars : Variables) (value : Text) :
    lastValue h (set vars key value) knob = lastValue h vars knob := by
  have hnaming : naming h (set vars key value) knob = naming h vars knob :=
    (filter_set (fun k => knobOf h k = some knob) vars key value).trans (if_neg (by simpa using hkey))
  rw [lastValue_eq, lastValue_eq, hnaming]

/-- Variables behind others have the last word if they have one. -/
theorem lastValue_append (h : Host) (vars more : Variables) (knob : Text) :
    lastValue h (vars ++ more) knob = (lastValue h more knob).or (lastValue h vars knob) := by
  simp only [lastValue_eq, naming, List.filter_append, List.getLast?_append, Option.map_or]

/-- A knob that no variable names has no value. -/
theorem lastValue_eq_none (hstart : h.defaults.knobStart = "DOTNET_")
    (hnone : ∀ v ∈ vars, ¬ Names v.1 knob) : lastValue h vars knob = none := by
  have hnaming : naming h vars knob = [] := by
    refine List.eq_nil_iff_forall_not_mem.2 fun v hv => ?_
    obtain ⟨hmem, hname⟩ := (mem_naming hstart).1 hv
    exact hnone v hmem hname
  rw [lastValue_eq, hnaming]
  rfl

/-- The last option for a knob has the value of one of the variables that name it. -/
theorem exists_lastValue (hstart : h.defaults.knobStart = "DOTNET_") {v : Text × Text}
    (hv : v ∈ vars) (hname : Names v.1 knob) :
    ∃ u ∈ vars, Names u.1 knob ∧ lastValue h vars knob = some u.2 := by
  have hnaming : v ∈ naming h vars knob := (mem_naming hstart).2 ⟨hv, hname⟩
  obtain ⟨u, hu⟩ :=
    Option.isSome_iff_exists.1 (List.getLast?_isSome.2 (List.ne_nil_of_mem hnaming))
  obtain ⟨hmem, hnamed⟩ := (mem_naming hstart).1 (List.mem_of_getLast? hu)
  refine ⟨u, hmem, hnamed, ?_⟩
  rw [lastValue_eq, hu]
  rfl

/-- If the user names the knob, the last option for it carries a value that the user gave for it. -/
def Decides (h : Host) (overrides vars : Variables) (knob : Text) : Prop :=
  (∃ v ∈ overrides, Names v.1 knob) →
    ∃ v ∈ overrides, Names v.1 knob ∧ lastValue h vars knob = some v.2

/-- The variables of the user decide about a knob, whatever is set before, if at most one key of that
names the knob. -/
theorem decides_setAll (hstart : h.defaults.knobStart = "DOTNET_") (hvars : (keys vars).Nodup)
    (hmore : (keys more).Nodup)
    (hdistinct : ∀ a ∈ keys vars, ∀ b ∈ keys vars, Names a knob → Names b knob → a = b) :
    Decides h more (setAll vars more) knob := by
  rintro ⟨v, hv, hname⟩
  have hgiven : ∀ u ∈ setAll vars more, u.1 ∈ keys more → u ∈ more := fun u hu hkey =>
    mem_of_mem_setAll hvars hmore hu hkey
  obtain ⟨kept, new, hsplit, hkept, hnew⟩ := exists_setAll_eq_append hmore vars
  rw [hsplit] at hgiven ⊢
  rw [lastValue_append]
  by_cases hnamed : ∃ u ∈ new, Names u.1 knob
  · obtain ⟨w, hw, hwname⟩ := hnamed
    obtain ⟨u, hu, huname, hlast⟩ := exists_lastValue hstart hw hwname
    have hkey : u.1 ∈ keys new := List.mem_map_of_mem hu
    rw [hnew] at hkey
    refine ⟨u, hgiven u (List.mem_append_right kept hu) (List.mem_filter.1 hkey).1, huname, ?_⟩
    rw [hlast]
    rfl
  · -- no new variable names the knob, so the one of the user was there before
    have hold : v.1 ∈ keys kept := by
      rw [hkept]
      by_contra hnot
      have hkey : v.1 ∈ keys new := by
        rw [hnew]
        exact List.mem_filter.2 ⟨List.mem_map_of_mem hv, decide_eq_true hnot⟩
      obtain ⟨u, hu, heq⟩ := List.mem_map.1 hkey
      exact hnamed ⟨u, hu, heq ▸ hname⟩
    obtain ⟨w, hw, hkey⟩ := List.mem_map.1 hold
    obtain ⟨u, hu, huname, hlast⟩ := exists_lastValue hstart hw (hkey ▸ hname)
    have hsame : u.1 = v.1 := by
      rw [← hkept] at hdistinct
      exact hdistinct _ (List.mem_map_of_mem hu) _ hold huname hname
    refine ⟨u, hgiven u (List.mem_append_left new hu) ?_, huname, ?_⟩
    · rw [hsame]
      exact List.mem_map_of_mem hv
    · rw [lastValue_eq_none hstart fun x hx hxname => hnamed ⟨x, hx, hxname⟩, hlast]
      rfl

end Last

/-! ### Options as arguments -/

section Arguments

/-- A name that is accepted has no equals sign. -/
theorem not_mem_of_acceptVariables {place : List Step} {accepted : Variables}
    (haccepted : Settings.acceptVariables place vars = .ok accepted) :
    ∀ key ∈ keys vars, '=' ∉ key := by
  intro key hkey
  obtain ⟨v, hv, rfl⟩ := List.mem_map.1 hkey
  unfold Settings.acceptVariables at haccepted
  split at haccepted
  · next hnone =>
    have hname := List.find?_eq_none.1 hnone v hv
    simp only [Settings.isVariableName, Bool.not_eq_true', Bool.not_eq_false,
      Bool.and_eq_true] at hname
    simpa using hname.1.2
  · cases haccepted

/-- Without equals signs in the keys there are none in the options. -/
theorem not_mem_option (hstart : h.defaults.knobStart = "DOTNET_")
    (hkeys : ∀ key ∈ keys vars, '=' ∉ key) :
    ∀ o ∈ options h vars, '=' ∉ o.1 := by
  intro o ho
  obtain ⟨v, hv, hoption⟩ := List.mem_filterMap.1 ho
  obtain ⟨knob, hknob, rfl⟩ := Option.map_eq_some_iff.1 hoption
  have hlower : '=' ∉ Text.lower v.1 := Text.not_mem_lower (hkeys v.1 (List.mem_map_of_mem hv))
  have hstartless : '=' ∉ optionStart := by decide
  have hname : '=' ∉ knob := by
    rcases (knobOf_eq_some_iff hstart).1 hknob with heq | heq <;> rw [heq] at hlower <;>
      exact fun hmem => hlower (List.mem_append_right _ hmem)
  rw [List.mem_append]
  exact fun hmem => hmem.elim hstartless hname

/-- So each argument is read as its option and its value. -/
theorem splitFirst_optionArgs (hstart : h.defaults.knobStart = "DOTNET_")
    (hkeys : ∀ key ∈ keys vars, '=' ∉ key) :
    (optionArgs h vars).map (Text.splitFirst "=") = (options h vars).map some := by
  rw [optionArgs, List.map_map]
  refine List.map_congr_left fun ⟨option, value⟩ ho => ?_
  have hnot : ¬ "=" <:+: option := by
    rintro ⟨above, below, heq⟩
    refine not_mem_option hstart hkeys _ ho ?_
    simp [← heq]
  have hfirst : Text.FirstAt "=" (option ++ ("=" ++ value)) option value :=
    Text.firstAt_append (by decide) hnot value
  rw [← List.append_assoc] at hfirst
  exact Text.splitFirst_eq_some_iff.2 hfirst

end Arguments

/-! ### The variables of a run -/

section Environment

/-- The variables of the user win over those of the run, and decide about the options. -/
theorem environment_wins (hmore : (keys s.overrides).Nodup) :
    Wins s.overrides (environment h strategy info { s with overrides := [] } l file)
      (environment h strategy info s l file) :=
  wins_setAll hmore (base h strategy info s l file)

/-- What a run sets by itself it sets once. -/
theorem nodup_keys_base : (keys (base h strategy info s l file)).Nodup :=
  nodup_keys_setAll List.nodup_nil

/-- The override that is given last decides on each knob. -/
theorem environment_decides (hstart : h.defaults.knobStart = "DOTNET_")
    (hmore : (keys s.overrides).Nodup) (knob : Text) :
    Decides h s.overrides (environment h strategy info s l file) knob :=
  decides_setAll hstart nodup_keys_base hmore fun _ ha _ hb =>
    eq_of_names (mem_ownKeys hstart ha) (mem_ownKeys hstart hb)

/-- A variable that does not name the knob changes nothing about it. -/
theorem Decides.set {overrides : Variables} (hdecides : Decides h overrides vars knob)
    (hkey : knobOf h key ≠ some knob) (value : Text) :
    Decides h overrides (Knobs.set vars key value) knob := by
  intro hnamed
  obtain ⟨v, hv, hname, hlast⟩ := hdecides hnamed
  exact ⟨v, hv, hname, (lastValue_set hkey vars value).trans hlast⟩

/-- There is no equals sign in the name of a variable unless an override brings it. -/
theorem not_mem_keys_environment (hstart : h.defaults.knobStart = "DOTNET_")
    (hkeys : ∀ key ∈ keys s.overrides, '=' ∉ key) :
    ∀ key ∈ keys (environment h strategy info s l file), '=' ∉ key := by
  have hown : ∀ key ∈ ownKeys, '=' ∉ key := by decide
  intro key hkey
  rcases mem_keys_setAll.1 hkey with hbase | hgiven
  · exact hown key (mem_ownKeys hstart hbase)
  · exact hkeys key hgiven

end Environment

end Knobs

end JitInspect
