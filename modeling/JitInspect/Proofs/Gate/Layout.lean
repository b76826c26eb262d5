import JitInspect.Gate
import JitInspect.Proofs.FileTree.Globbing
import JitInspect.Proofs.Sequences

/-!
# What the gates supply

The gates look for the folders of a local runtime and hand on those that the route needs. A layout that
they hand on is either empty, because no local runtime is used, or as `Gate.Supplies` describes it: its
folders lie below the root of the repository (`Path.Within`), and they were there when the gates looked.
That is what `Gate.passes_of_check` reads off a run that passes; which folders there are depends on the route
and on whether the project is published.
-/

namespace JitInspect

namespace Disk

variable {d : Disk} {dir p : Path}

/-! ### Paths that a pattern matches -/

section Globbing

/-- Folders below a folder are absolute just when it is. -/
theorem anchor_of_mem_foldersFrom {depth : ℕ} (h : p ∈ foldersFrom d depth dir) :
    p.anchor = dir.anchor := by
  induction depth generalizing dir with
  | zero =>
    rw [foldersFrom, List.mem_singleton] at h
    rw [h]
  | succ depth ih =>
    rw [foldersFrom] at h
    rcases List.mem_cons.1 h with rfl | h
    · rfl
    · obtain ⟨q, hq, hp⟩ := List.mem_flatMap.1 h
      obtain ⟨n, -, rfl⟩ := List.mem_map.1 (List.mem_filter.1 hq).1
      have hanchor := ih hp
      exact hanchor

/-- Paths below a folder start where it starts. -/
theorem anchor_of_mem_globParts {pats : List Text} {ps : List Path}
    (h : globParts d dir pats = .ok ps) (hp : p ∈ ps) : p.anchor = dir.anchor := by
  induction pats generalizing dir ps with
  | nil =>
    cases h
    rw [List.mem_singleton] at hp
    rw [hp]
  | cons pat pats ih =>
    rw [globParts] at h
    by_cases hany : pat = anyFolders
    · simp only [if_pos hany] at h
      obtain ⟨q, hq, qs, hglob, hp⟩ := exists_of_mem_gather h hp
      exact (ih hglob hp).trans (anchor_of_mem_foldersFrom hq)
    simp only [if_neg hany] at h
    by_cases hpattern : GlobItem.isPattern pat = true
    · simp only [if_pos hpattern] at h
      obtain ⟨names, -, h⟩ := bind_eq_ok.1 h
      obtain ⟨n, -, qs, hglob, hp⟩ := exists_of_mem_gather h hp
      have hbelow : ∃ answer : Bool, (if answer && GlobItem.fits pat n then
          globParts d ⟨dir.anchor, dir.parts ++ [n]⟩ pats else pure []) = .ok qs := by
        by_cases hlast : pats.isEmpty = true
        · rw [if_pos hlast] at hglob
          exact ⟨true, hglob⟩
        · rw [if_neg hlast] at hglob
          obtain ⟨answer, -, hglob⟩ := bind_eq_ok.1 hglob
          exact ⟨answer, hglob⟩
      obtain ⟨answer, hglob⟩ := hbelow
      by_cases hfits : (answer && GlobItem.fits pat n) = true
      · rw [if_pos hfits] at hglob
        have hanchor := ih hglob hp
        exact hanchor
      · rw [if_neg hfits] at hglob
        cases hglob
        cases hp
    · simp only [if_neg hpattern] at h
      obtain ⟨answer, -, h⟩ := bind_eq_ok.1 (eq_of_mem_orNothing h hp)
      by_cases hanswer : answer = true
      · rw [if_pos hanswer] at h
        have hanchor := ih h hp
        exact hanchor
      · rw [if_neg hanswer] at h
        cases h
        cases hp

end Globbing

end Disk

namespace RuntimeLayout

variable {h : Host} {d : Disk} {root dir : Path} {arch : Text}

/-! ### The folders that are looked for -/

section Folders

/-- The folder of the libraries is within the root. -/
theorem within_coreFolder (root : Path) : root.Within (coreFolder root) :=
  ((Path.within_child root (by decide)).trans (Path.within_child _ (by decide))).trans
    (Path.within_child _ (by decide))

theorem within_coreBuild (h : Host) (root : Path) (arch flavor : Text) :
    root.Within (coreBuild h root arch flavor) := by
  refine (within_coreFolder root).trans (Path.within_child _ ?_)
  obtain ⟨first, rest, hname, hfirst⟩ :
      ∃ first rest, h.os.name = first :: rest ∧ first ≠ Path.separator := by
    cases h.os <;> exact ⟨_, _, rfl, by decide⟩
  rw [hname]
  exact fun heq => hfirst (Option.some.inj heq)

theorem anchor_packFolder (root : Path) : (packFolder root).anchor = root.anchor :=
  (((Path.within_child root (by decide)).trans (Path.within_child _ (by decide))).trans
    (Path.within_child _ (by decide))).anchor

/-- The build of the core that is found lies below the root and is there. -/
theorem findChecked_eq_some (hfind : findChecked h d root arch = .ok (some dir)) :
    root.Within dir ∧ d.isDirectory dir.text = .ok true := by
  unfold findChecked at hfind
  obtain ⟨isThere, hchecked, hfind⟩ := bind_eq_ok.1 hfind
  cases isThere with
  | true =>
    cases hfind
    exact ⟨within_coreBuild _ _ _ _, hchecked⟩
  | false =>
    obtain ⟨isThere, hdebug, hfind⟩ := bind_eq_ok.1 hfind
    cases isThere with
    | true =>
      cases hfind
      exact ⟨within_coreBuild _ _ _ _, hdebug⟩
    | false => cases hfind

/-- The tools for native programs that are found lie below the root, and their compiler's folder is
there. -/
theorem findNativeTools_eq_some (hfind : findNativeTools h d root arch = .ok (some dir)) :
    root.Within dir ∧ d.isDirectory (dir.child "ilc").text = .ok true := by
  unfold findNativeTools at hfind
  obtain ⟨isThere, -, hfind⟩ := bind_eq_ok.1 hfind
  cases isThere with
  | false => cases hfind
  | true =>
    obtain ⟨isThere, hilc, hfind⟩ := bind_eq_ok.1 hfind
    cases isThere with
    | false => cases hfind
    | true =>
      cases hfind
      exact ⟨within_coreBuild _ _ _ _, hilc⟩

/-- The pack that is found starts where the root does and is there. -/
theorem findPack_eq_some (hfind : findPack h d root arch = .ok (some dir)) :
    dir.anchor = root.anchor ∧ d.isDirectory dir.text = .ok true := by
  unfold findPack at hfind
  obtain ⟨isThere, -, hfind⟩ := bind_eq_ok.1 hfind
  cases isThere with
  | false => cases hfind
  | true =>
    obtain ⟨found, hfound, hfind⟩ := bind_eq_ok.1 hfind
    obtain ⟨packs, hpacks, hfind⟩ := bind_eq_ok.1 hfind
    have hchosen : dir ∈ packs ∨ none = some dir := by
      refine mem_of_foldl_eq_some (fun best p => ?_) (Except.ok.inj hfind)
      cases best with
      | none => exact Or.inl rfl
      | some b =>
        by_cases hlt : b.parts < p.parts
        · exact Or.inl (if_pos hlt)
        · exact Or.inr (if_neg hlt)
    rcases hchosen with hmem | hnone
    · obtain ⟨hin, hdirectory⟩ := of_mem_filterM hpacks hmem
      refine ⟨?_, hdirectory⟩
      rw [← anchor_packFolder root]
      unfold Disk.glob at hfound
      simp only at hfound
      split at hfound
      · cases hfound
      · exact Disk.anchor_of_mem_globParts hfound hin
    · cases hnone

end Folders

end RuntimeLayout

namespace Gate

variable {h : Host} {d : Disk} {o : Settings} {route : Route} {l : RuntimeLayout} {root : Path}

/-! ### The layouts that are handed on -/

section Layouts

/-- The layouts that a route with a local runtime below the root is supplied with. -/
inductive Supplies (d : Disk) (o : Settings) (root : Path) : Route → RuntimeLayout → Prop where
  /-- The compiler for native programs needs nothing but its tools. -/
  | native (typed : Text) (tools : Path) (hwithin : root.Within tools)
      (hilc : d.isDirectory (tools.child "ilc").text = .ok true) :
      Supplies d o root (.localIlc typed) { root := some root, nativeTools := some tools }
  /-- A published program comes with its assemblies. -/
  | published (route : Route) (checked : Path) (hroute : ∀ typed, route ≠ .localIlc typed)
      (hpublish : o.publish = true) (hwithin : root.Within checked)
      (hchecked : d.isDirectory checked.text = .ok true) :
      Supplies d o root route { root := some root, checked := some checked }
  /-- A program that is only built takes the assemblies of a pack. -/
  | built (route : Route) (checked pack : Path) (hroute : ∀ typed, route ≠ .localIlc typed)
      (hpublish : o.publish = false) (hwithin : root.Within checked)
      (hchecked : d.isDirectory checked.text = .ok true) (hanchor : pack.anchor = root.anchor)
      (hpack : d.isDirectory pack.text = .ok true) :
      Supplies d o root route { root := some root, checked := some checked, pack := some pack }

/-- Only the compiler for native programs is looked after in a way of its own. -/
theorem layout_eq_of_ne (hroute : ∀ typed, route ≠ .localIlc typed) :
    layout h d o route = layout h d o .disasm := by
  cases route with
  | localIlc typed => exact absurd rfl (hroute typed)
  | _ => rfl

/-- A layout that was found supplies what the route needs. -/
theorem layout_eq_ok (hlayout : layout h d o route = .ok l) :
    ∃ root, expandHome h (Path.ofText o.runtimePath) = .ok root ∧ Supplies d o root route l := by
  by_cases hroute : ∃ typed, route = .localIlc typed
  · obtain ⟨typed, rfl⟩ := hroute
    obtain ⟨root, hroot, hlayout⟩ := bind_eq_ok.1 hlayout
    obtain ⟨found, hfound, hlayout⟩ := bind_eq_ok.1 hlayout
    cases found with
    | none => cases hlayout
    | some tools =>
      cases hlayout
      obtain ⟨hwithin, hilc⟩ := RuntimeLayout.findNativeTools_eq_some (mapError_eq_ok.1 hfound)
      exact ⟨root, hroot, .native typed tools hwithin hilc⟩
  · have hnot : ∀ typed, route ≠ .localIlc typed := fun typed heq => hroute ⟨typed, heq⟩
    rw [layout_eq_of_ne hnot] at hlayout
    obtain ⟨root, hroot, hlayout⟩ := bind_eq_ok.1 hlayout
    obtain ⟨found, hfound, hlayout⟩ := bind_eq_ok.1 hlayout
    refine ⟨root, hroot, ?_⟩
    cases found with
    | none => cases hlayout
    | some checked =>
      obtain ⟨hwithin, hchecked⟩ := RuntimeLayout.findChecked_eq_some (mapError_eq_ok.1 hfound)
      simp only at hlayout
      by_cases hpublish : o.publish = true
      · rw [if_pos hpublish] at hlayout
        cases hlayout
        exact .published route checked hnot hpublish hwithin hchecked
      · rw [if_neg hpublish] at hlayout
        obtain ⟨found, hfound, hlayout⟩ := bind_eq_ok.1 hlayout
        cases found with
        | none => cases hlayout
        | some pack =>
          cases hlayout
          obtain ⟨hanchor, hpack⟩ := RuntimeLayout.findPack_eq_some (mapError_eq_ok.1 hfound)
          exact .built route checked pack hnot (by simpa using hpublish) hwithin hchecked hanchor hpack

/-- The root of a local runtime can be read back from its path. -/
theorem proper_of_expandHome {p : Path} (hp : p.Proper) (hroot : expandHome h p = .ok root) :
    root.Proper := by
  unfold expandHome at hroot
  split at hroot
  · next user rest hanchor hparts =>
    simp only at hroot
    generalize (if user.isEmpty then some h.home else h.users.lookup user) = home? at hroot
    cases home? with
    | none => cases hroot
    | some home =>
      cases hroot
      intro n hn
      have hmem : n ∈ (Path.ofText home).parts ++ rest := hn
      rcases List.mem_append.1 hmem with hn | hn
      · exact Path.proper_ofText home n hn
      · exact hp n (by rw [hparts]; exact List.mem_cons_of_mem _ hn)
  · cases hroot
    exact hp

end Layouts

/-! ### Passing the gates -/

section Passing

variable {symbol? : Option Symbol} {info? : Option SymbolInfo}

/-- A gate with a condition is passed when it does not hold. -/
theorem rejectWhen_eq_ok {condition : Bool} {f : GateFault} :
    rejectWhen condition f = .ok () ↔ condition = false := by
  cases condition <;> simp [rejectWhen]

/-- Gates behind one another are passed one by one. -/
theorem rejectWhen_bind_eq_ok {α : Type} {condition : Bool} {f : GateFault}
    {next : Unit → Except GateFault α} {a : α} :
    (rejectWhen condition f >>= next) = .ok a ↔ condition = false ∧ next () = .ok a := by
  rw [bind_eq_ok, ← rejectWhen_eq_ok (f := f)]
  constructor
  · rintro ⟨_, hok, hnext⟩
    exact ⟨hok, hnext⟩
  · rintro ⟨hok, hnext⟩
    exact ⟨(), hok, hnext⟩

/-- The gates on compilers ahead of time let every other run pass. -/
theorem aot_eq_ok_iff : aot o = .ok () ↔ (o.isAot = true →
    o.pgo = false ∧ o.runApp = false ∧ o.tiered = false ∧ o.flowGraphs = false) := by
  unfold aot
  cases o.isAot with
  | false => simp
  | true =>
    rw [if_neg (by decide), rejectWhen_bind_eq_ok, rejectWhen_bind_eq_ok, rejectWhen_bind_eq_ok,
      rejectWhen_eq_ok, forall_prop_of_true rfl]

/-- What is known of a run that passes the gates. -/
structure Passes (h : Host) (d : Disk) (o : Settings) (route : Route) (l : RuntimeLayout) : Prop where
  /-- A compiler ahead of time draws no flow graphs. -/
  flowGraphs : o.isAot = true → o.flowGraphs = false
  /-- The crossgen compiler comes from a local runtime. -/
  crossgen : o.compiler = .crossgen → o.customRuntime = true
  /-- Either no local runtime is used, or the route is supplied with one. -/
  layout : (o.customRuntime = false ∨ route = .nativePublish) ∧ l = {} ∨
    o.customRuntime = true ∧ route ≠ .nativePublish ∧
      ∃ root, root.Proper ∧ expandHome h (Path.ofText o.runtimePath) = .ok root ∧
        Supplies d o root route l

/-- What the gates hand on has passed them all. -/
theorem passes_of_check (hcheck : check h d symbol? info? o route = .ok l) :
    Passes h d o route l := by
  unfold check at hcheck
  split at hcheck
  · next s info =>
    obtain ⟨_, -, hcheck⟩ := bind_eq_ok.1 hcheck
    obtain ⟨_, -, hcheck⟩ := bind_eq_ok.1 hcheck
    obtain ⟨_, haot, hcheck⟩ := bind_eq_ok.1 hcheck
    obtain ⟨hcrossgen, hcheck⟩ := rejectWhen_bind_eq_ok.1 hcheck
    refine ⟨fun hisAot => (aot_eq_ok_iff.1 haot hisAot).2.2.2, fun hcompiler => ?_, ?_⟩
    · simpa [hcompiler] using hcrossgen
    · by_cases hnone : (!o.customRuntime || route = .nativePublish) = true
      · rw [if_pos hnone] at hcheck
        cases hcheck
        exact Or.inl ⟨by simpa using hnone, rfl⟩
      · rw [if_neg hnone] at hcheck
        obtain ⟨root, hroot, hsupplies⟩ := layout_eq_ok hcheck
        simp only [Bool.or_eq_true, Bool.not_eq_true', decide_eq_true_eq, not_or,
          Bool.not_eq_false] at hnone
        exact Or.inr ⟨hnone.1, hnone.2, root,
          proper_of_expandHome (Path.proper_ofText _) hroot, hroot, hsupplies⟩
  · cases hcheck

end Passing

end Gate

end JitInspect
