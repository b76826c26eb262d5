import JitInspect.Proofs.Run.Pipeline

/-!
# Temporary files

A run creates up to four temporary files: one with the properties for the build, one for the flow
graphs, and two for publishing a native program. The first one is deleted as soon as the build has ended
(`Job.startBuild_leaves`). The others are set down for deletion at the end of the run; the moments between
the creation of a file and its being set down are what has to be looked after.

An action accounts for files (`Action.AccountsFor`) if each file that it has begun to create is set down
for deletion or is not there, however the action ends, and if it has created and set down all of them
when it ends well. This is followed from action to action up to the last part of a run
(`Job.accountsFor_list`).
-/

namespace JitInspect

/-! ### Accounting for files -/

/-- Between the two worlds the files were created one after the other, at least some of them, and each
of them that was begun is set down for deletion or is not there. -/
structure World.Accounts (w : World) (files : List Text) (w₁ : World) : Prop where
  le : w.temporaries ≤ w₁.temporaries
  le_add : w₁.temporaries ≤ w.temporaries + files.length
  toDelete : w.toDelete <+: w₁.toDelete
  begun : ∀ file ∈ files.take (w₁.temporaries - w.temporaries),
    file ∈ w₁.toDelete ∨ w₁.disk.holdsFile file = false

/-- Between the two worlds all the files were created and set down for deletion. -/
structure World.Reserves (w : World) (files : List Text) (w₁ : World) : Prop where
  temporaries : w₁.temporaries = w.temporaries + files.length
  toDelete : w.toDelete <+: w₁.toDelete
  mem : ∀ file ∈ files, file ∈ w₁.toDelete

namespace World

variable {w w₁ w₂ : World} {files more : List Text}

/-- The files were set down behind what was there, together with others. -/
theorem Reserves.of_eq (more : List Text) (ht : w₁.temporaries = w.temporaries + files.length)
    (hd : w₁.toDelete = w.toDelete ++ (files ++ more)) : w.Reserves files w₁ where
  temporaries := ht
  toDelete := hd ▸ List.prefix_append _ _
  mem _ hfile := hd ▸ List.mem_append_right _ (List.mem_append_left _ hfile)

/-- Files that are set down for deletion are accounted for. -/
theorem Reserves.accounts (h : w.Reserves files w₁) : w.Accounts files w₁ where
  le := by rw [h.temporaries]; exact Nat.le_add_right _ _
  le_add := Nat.le_of_eq h.temporaries
  toDelete := h.toDelete
  begun file hfile := Or.inl (h.mem file (List.mem_of_mem_take hfile))

theorem Reserves.trans (h : w.Reserves files w₁) (h₁ : w₁.Reserves more w₂) :
    w.Reserves (files ++ more) w₂ where
  temporaries := by rw [h₁.temporaries, h.temporaries, List.length_append, Nat.add_assoc]
  toDelete := h.toDelete.trans h₁.toDelete
  mem file hfile := by
    rcases List.mem_append.1 hfile with hfile | hfile
    · exact h₁.toDelete.subset (h.mem file hfile)
    · exact h₁.mem file hfile

/-- What was reserved before stays set down for deletion. -/
theorem Reserves.trans_accounts (h : w.Reserves files w₁) (h₁ : w₁.Accounts more w₂) :
    w.Accounts (files ++ more) w₂ where
  le := Nat.le_trans h.accounts.le h₁.le
  le_add := by
    have hle := h₁.le_add
    rw [h.temporaries] at hle
    rwa [List.length_append, ← Nat.add_assoc]
  toDelete := h.toDelete.trans h₁.toDelete
  begun file hfile := by
    have hcount : w₂.temporaries - w.temporaries =
        files.length + (w₂.temporaries - w₁.temporaries) := by
      have hle := h₁.le
      rw [h.temporaries] at hle ⊢
      omega
    rw [hcount, List.take_length_add_append] at hfile
    rcases List.mem_append.1 hfile with hfile | hfile
    · exact Or.inl (h₁.toDelete.subset (h.mem file hfile))
    · exact h₁.begun file hfile

/-- What was only begun is accounted for among more files. -/
theorem Accounts.append (h : w.Accounts files w₁) (more : List Text) :
    w.Accounts (files ++ more) w₁ where
  le := h.le
  le_add := by
    have hle := h.le_add
    rw [List.length_append]
    omega
  toDelete := h.toDelete
  begun file hfile := by
    have hle := h.le_add
    rw [List.take_append_of_le_length (by omega)] at hfile
    exact h.begun file hfile

end World

namespace Action

variable {α β : Type} {files more : ℕ → List Text}

/-- The action creates the files that are named by the number of temporary files before. However it
ends, it accounts for those that it has begun; when it ends well, it has created and reserved all. -/
def AccountsFor (files : ℕ → List Text) (a : Action α) : Prop :=
  ∀ w, w.Accounts (files w.temporaries) (a.perform w).2 ∧
    ∀ x, (a.perform w).1 = .ok x → w.Reserves (files w.temporaries) (a.perform w).2

/-- An action that creates no temporary file has none to account for. -/
theorem Keeps.accountsFor {a : Action α} (ha : KeepsTemporaries a) : AccountsFor (fun _ => []) a := by
  intro w
  have hkept : w.Reserves [] (a.perform w).2 :=
    ⟨(ha w).1, (ha w).2 ▸ List.prefix_refl _, fun _ hfile => absurd hfile List.not_mem_nil⟩
  exact ⟨hkept.accounts, fun _ _ => hkept⟩

/-- A sequence accounts for the files of both actions. -/
theorem AccountsFor.bind {a : Action α} {g : α → Action β} (ha : AccountsFor files a)
    (hg : ∀ x, AccountsFor more (g x)) :
    AccountsFor (fun n => files n ++ more (n + (files n).length)) (a >>= g) := by
  intro w
  obtain ⟨haccounts, hreserves⟩ := ha w
  rcases hrun : a.perform w with ⟨f | x, w₁⟩
  · rw [hrun] at haccounts
    rw [perform_bind_of_error hrun]
    refine ⟨haccounts.append _, fun y hy => ?_⟩
    cases hy
  · rw [hrun] at hreserves
    have hall : w.Reserves (files w.temporaries) w₁ := hreserves x rfl
    rw [perform_bind_of_ok hrun]
    obtain ⟨haccounts₁, hreserves₁⟩ := hg x w₁
    rw [hall.temporaries] at haccounts₁ hreserves₁
    exact ⟨hall.trans_accounts haccounts₁, fun y hy => hall.trans (hreserves₁ y hy)⟩

/-- An action may be followed by one that creates nothing. -/
theorem AccountsFor.bind_keeps {a : Action α} {g : α → Action β} (ha : AccountsFor files a)
    (hg : ∀ x, KeepsTemporaries (g x)) : AccountsFor files (a >>= g) := by
  have hboth := ha.bind fun x => (hg x).accountsFor
  simpa only [List.append_nil] using hboth

end Action

namespace Job

open JitInspect.Action

variable {ws : Workshop} {j : Job} {n : ℕ} {w w₁ : World} {environment : Variables} {o : Text}

/-! ### Building -/

section Building

/-- The build creates one file and deletes it, however it ends. -/
theorem startBuild_leaves (h : Host) (j : Job) (w : World) :
    ((j.startBuild h).perform w).2.temporaries = w.temporaries + 1 ∧
      ((j.startBuild h).perform w).2.toDelete = w.toDelete ∧
      ((j.startBuild h).perform w).2.disk.holdsFile
        (temporaryPath h (w.temporaries + 1) ".props") = false := by
  unfold startBuild
  have hfile := perform_temporaryFile h ".props" w
  cases hcreated : w.disk.createFile (temporaryPath h (w.temporaries + 1) ".props") with
  | error f =>
    rw [hcreated] at hfile
    rw [perform_bind_of_error hfile]
    exact ⟨rfl, rfl, Disk.holdsFile_of_createFile_error hcreated⟩
  | ok d =>
    rw [hcreated] at hfile
    rw [perform_bind_of_ok hfile]
    have hkeeps : KeepsTemporaries (writeText (temporaryPath h (w.temporaries + 1) ".props")
        Knobs.buildProperties >>= fun _ => start (j.buildCommand h
          (temporaryPath h (w.temporaries + 1) ".props"))) :=
      (Keeps.writeText _ _).bind fun _ => keepsTemporaries_start _
    obtain ⟨log, hdelete⟩ := perform_delete (temporaryPath h (w.temporaries + 1) ".props")
      ((writeText (temporaryPath h (w.temporaries + 1) ".props") Knobs.buildProperties >>= fun _ =>
        start (j.buildCommand h (temporaryPath h (w.temporaries + 1) ".props"))).perform
          { w with temporaries := w.temporaries + 1, disk := d }).2
    obtain ⟨hcount, hset⟩ := hkeeps { w with temporaries := w.temporaries + 1, disk := d }
    rw [perform_thenAlways _ hdelete]
    exact ⟨hcount, hset, Disk.holdsFile_without⟩

/-- A build creates one temporary file and deletes it itself. -/
theorem build_leaves (ws : Workshop) (j : Job) (w : World) :
    ((j.build ws).perform w).2.temporaries = w.temporaries + 1 ∧
      ((j.build ws).perform w).2.toDelete = w.toDelete := by
  unfold build
  rw [perform_bind_of_ok (perform_report _ w)]
  refine keepsTemporaries_behind (fun printed => Keeps.checkpoint.bind fun _ => ?_) ?_
  · cases buildErrors? printed with
    | some errors => exact Keeps.throw _
    | none =>
      exact j.keeps_overlay.bind fun _ =>
        Keeps.ite LoaderCache.keepsTemporaries_ensure (Keeps.pure _)
  · have hleaves := startBuild_leaves ws.host j
    exact ⟨(hleaves _).1, (hleaves _).2.1⟩

end Building

/-! ### Publishing a native program -/

section Publishing

/-- The last steps of publishing a native program, with the file for the listing and the one with the
properties. -/
def publishNative (ws : Workshop) (j : Job) (environment : Variables) (file properties : Text) :
    Action Listed := do
  let environment := Knobs.set environment (ws.host.defaults.knobStart ++ "JitStdOutFile") file
  Action.writeText properties (Knobs.nativeProperties ws.host environment)
  let printed ← j.startPlan ws (j.planInputs environment (some (Path.ofText properties)))
  nativeListing file printed

/-- The two files for publishing a native program. -/
def publishingFiles (ws : Workshop) (n : ℕ) : List Text :=
  [temporaryPath ws.host (n + 1) ".asm", temporaryPath ws.host (n + 2) ".props"]

/-- The world in which these two files are created and set down for deletion. -/
def publishing (ws : Workshop) (w : World) (disk : Disk) (log : List LogRecord) : World :=
  { w with
    temporaries := w.temporaries + 2
    disk
    log
    toDelete := w.toDelete ++ publishingFiles ws w.temporaries }

/-- The first steps of publishing a native program create its two files. The one for the listing is
deleted at once, as it is the compiler that writes it; only then is the other one created, and both
are set down for deletion. -/
inductive Publishes (ws : Workshop) (j : Job) (environment : Variables) (w : World) :
    Except Failure Listed × World → Prop where
  | noListing (f : FileFault)
      (hfile : w.disk.createFile (temporaryPath ws.host (w.temporaries + 1) ".asm") = .error f) :
      Publishes ws j environment w
        (.error (.ofFile f), { w with temporaries := w.temporaries + 1 })
  | noProperties (d : Disk) (log : List LogRecord) (f : FileFault)
      (hfile : w.disk.createFile (temporaryPath ws.host (w.temporaries + 1) ".asm") = .ok d)
      (hproperties : (d.without (temporaryPath ws.host (w.temporaries + 1) ".asm")).createFile
        (temporaryPath ws.host (w.temporaries + 2) ".props") = .error f) :
      Publishes ws j environment w
        (.error (.ofFile f), { w with
          temporaries := w.temporaries + 2
          disk := d.without (temporaryPath ws.host (w.temporaries + 1) ".asm"), log })
  | reserved (d d₁ : Disk) (log : List LogRecord)
      (hfile : w.disk.createFile (temporaryPath ws.host (w.temporaries + 1) ".asm") = .ok d)
      (hproperties : (d.without (temporaryPath ws.host (w.temporaries + 1) ".asm")).createFile
        (temporaryPath ws.host (w.temporaries + 2) ".props") = .ok d₁) :
      Publishes ws j environment w
        ((j.publishNative ws environment (temporaryPath ws.host (w.temporaries + 1) ".asm")
          (temporaryPath ws.host (w.temporaries + 2) ".props")).perform (publishing ws w d₁ log))

/-- Native compilation begins as `Publishes` tells. -/
theorem publishes_executeNative (ws : Workshop) (j : Job) (environment : Variables) (w : World) :
    j.Publishes ws environment w ((j.executeNative ws environment).perform w) := by
  unfold executeNative
  have hlisting := perform_temporaryFile ws.host ".asm" w
  cases hfile : w.disk.createFile (temporaryPath ws.host (w.temporaries + 1) ".asm") with
  | error f =>
    rw [hfile] at hlisting
    rw [perform_bind_of_error hlisting]
    exact .noListing f hfile
  | ok d =>
    rw [hfile] at hlisting
    obtain ⟨log, hdelete⟩ := perform_delete (temporaryPath ws.host (w.temporaries + 1) ".asm")
      { w with temporaries := w.temporaries + 1, disk := d }
    rw [perform_bind_of_ok hlisting, perform_bind_of_ok hdelete]
    have hsecond := perform_temporaryFile ws.host ".props"
      { w with
        temporaries := w.temporaries + 1
        disk := d.without (temporaryPath ws.host (w.temporaries + 1) ".asm"), log }
    cases hproperties : (d.without (temporaryPath ws.host (w.temporaries + 1) ".asm")).createFile
        (temporaryPath ws.host (w.temporaries + 2) ".props") with
    | error f =>
      simp only [hproperties] at hsecond
      rw [perform_bind_of_error hsecond]
      exact .noProperties d log f hfile hproperties
    | ok d₁ =>
      simp only [hproperties] at hsecond
      rw [perform_bind_of_ok hsecond, perform_bind_of_ok (perform_deleteLater _ _)]
      exact .reserved d d₁ log hfile hproperties

/-- Carrying out a plan creates no temporary file. -/
theorem keepsTemporaries_startPlan (ws : Workshop) (j : Job) (inputs : PlanInputs) :
    KeepsTemporaries (j.startPlan ws inputs) :=
  j.keeps_startPlan keepsTemporaries_start _ _

theorem keepsTemporaries_publishNative (ws : Workshop) (j : Job) (environment : Variables)
    (file properties : Text) :
    KeepsTemporaries (j.publishNative ws environment file properties) :=
  (Keeps.writeText _ _).bind fun _ => (j.keepsTemporaries_startPlan ws _).bind fun _ =>
    keeps_nativeListing _ _

end Publishing

/-! ### The files of an execution -/

section Files

/-- The files for publishing a native program, when there were so many temporary files before. -/
def nativeFiles (ws : Workshop) (j : Job) (n : ℕ) : List Text :=
  if j.strategy.route = .nativePublish then publishingFiles ws n else []

/-- The files that the last part of a run creates, one after the other. -/
def executionFiles (ws : Workshop) (j : Job) (n : ℕ) : List Text :=
  (j.graphFile ws n).toList ++ j.nativeFiles ws (j.behindGraphs n)

/-- The file for the flow graphs is set down for deletion as soon as it is created, and the dump that
the code generator writes beside it. -/
theorem perform_flowGraphFile (ws : Workshop) (hgraphs : j.settings.flowGraphs = true) (w : World) :
    (j.flowGraphFile ws).perform w =
      match w.disk.createFile (temporaryPath ws.host (w.temporaries + 1) []) with
      | .ok disk =>
        (.ok (some (temporaryPath ws.host (w.temporaries + 1) [])), { w with
          temporaries := w.temporaries + 1
          disk
          toDelete := w.toDelete ++ [temporaryPath ws.host (w.temporaries + 1) [],
            temporaryPath ws.host (w.temporaries + 1) [] ++ dumpExtension] })
      | .error f => (.error (.ofFile f), { w with temporaries := w.temporaries + 1 }) := by
  unfold flowGraphFile
  rw [if_pos hgraphs]
  have hfile := perform_temporaryFile ws.host [] w
  cases hcreated : w.disk.createFile (temporaryPath ws.host (w.temporaries + 1) []) with
  | error f =>
    rw [hcreated] at hfile
    exact perform_bind_of_error hfile
  | ok d =>
    rw [hcreated] at hfile
    rw [perform_bind_of_ok hfile, perform_bind_of_ok (perform_deleteLater _ _)]
    rfl

/-- The file for the flow graphs is the next temporary file, if they are on. -/
theorem graphFile_eq (ws : Workshop) (hgraphs : j.settings.flowGraphs = true) :
    j.graphFile ws n = some (temporaryPath ws.host (n + 1) []) := if_pos hgraphs

theorem accountsFor_flowGraphFile (ws : Workshop) (j : Job) :
    AccountsFor (fun n => (j.graphFile ws n).toList) (j.flowGraphFile ws) := by
  intro w
  by_cases hgraphs : j.settings.flowGraphs = true
  · rw [perform_flowGraphFile ws hgraphs]
    simp only [graphFile_eq ws hgraphs, Option.toList_some]
    cases hcreated : w.disk.createFile (temporaryPath ws.host (w.temporaries + 1) []) with
    | error f =>
      refine ⟨⟨Nat.le_add_right _ _, Nat.le_refl _, List.prefix_refl _, fun file hmem => ?_⟩,
        fun x hx => by cases hx⟩
      obtain rfl := List.mem_singleton.1 (List.mem_of_mem_take hmem)
      exact Or.inr (Disk.holdsFile_of_createFile_error hcreated)
    | ok d =>
      have hreserves : w.Reserves [temporaryPath ws.host (w.temporaries + 1) []] { w with
          temporaries := w.temporaries + 1
          disk := d
          toDelete := w.toDelete ++ [temporaryPath ws.host (w.temporaries + 1) [],
            temporaryPath ws.host (w.temporaries + 1) [] ++ dumpExtension] } :=
        .of_eq [temporaryPath ws.host (w.temporaries + 1) [] ++ dumpExtension] rfl rfl
      exact ⟨hreserves.accounts, fun _ _ => hreserves⟩
  · unfold flowGraphFile graphFile
    simp only [hgraphs, Bool.false_eq_true, if_false]
    exact Keeps.accountsFor (Keeps.pure _) w

theorem accountsFor_executeNative (ws : Workshop) (j : Job) (environment : Variables) :
    AccountsFor (publishingFiles ws) (j.executeNative ws environment) := by
  intro w
  have hcases := publishes_executeNative ws j environment w
  generalize (j.executeNative ws environment).perform w = run at hcases
  cases hcases with
  | noListing f hfile =>
    refine ⟨⟨Nat.le_add_right _ _, ?_, List.prefix_refl _, fun file hmem => ?_⟩,
      fun x hx => by cases hx⟩
    · simp [publishingFiles]
    · simp only [publishingFiles, Nat.add_sub_cancel_left, List.take_succ_cons, List.take_zero,
        List.mem_singleton] at hmem
      subst hmem
      exact Or.inr (Disk.holdsFile_of_createFile_error hfile)
  | noProperties d log f hfile hproperties =>
    refine ⟨⟨Nat.le_add_right _ _, ?_, List.prefix_refl _, fun file hmem => Or.inr ?_⟩,
      fun x hx => by cases hx⟩
    · simp [publishingFiles]
    · have hmem := List.mem_of_mem_take hmem
      rcases List.mem_cons.1 hmem with rfl | hmem
      · exact Disk.holdsFile_without
      · obtain rfl := List.mem_singleton.1 hmem
        exact Disk.holdsFile_of_createFile_error hproperties
  | reserved d d₁ log hfile hproperties =>
    have hkept := keepsTemporaries_publishNative ws j environment
      (temporaryPath ws.host (w.temporaries + 1) ".asm")
      (temporaryPath ws.host (w.temporaries + 2) ".props") (publishing ws w d₁ log)
    have hreserves : w.Reserves (publishingFiles ws w.temporaries) _ := .of_eq [] hkept.1 hkept.2
    exact ⟨hreserves.accounts, fun _ _ => hreserves⟩

theorem accountsFor_execute (ws : Workshop) (j : Job) (file : Option Text) :
    AccountsFor (j.nativeFiles ws) (j.execute ws file) := by
  unfold execute nativeFiles
  by_cases hroute : j.strategy.route = .nativePublish
  · simp only [hroute, if_true]
    exact accountsFor_executeNative ws j _
  · simp only [hroute, if_false]
    exact Keeps.accountsFor ((j.keepsTemporaries_startPlan ws _).bind fun _ => Keeps.pure _)

/-- The number of temporary files behind the one for the flow graphs counts that one. -/
theorem add_length_graphFile (ws : Workshop) (j : Job) (n : ℕ) :
    n + (j.graphFile ws n).toList.length = j.behindGraphs n := by
  unfold graphFile behindGraphs
  by_cases hgraphs : j.settings.flowGraphs = true
  · rw [if_pos hgraphs, if_pos hgraphs]
    rfl
  · rw [if_neg hgraphs, if_neg hgraphs]
    rfl

/-- The last part of a run accounts for the files that it creates. -/
theorem accountsFor_list (ws : Workshop) (j : Job) :
    AccountsFor (j.executionFiles ws) (Request.list ws j) := by
  have hlist := (accountsFor_flowGraphFile ws j).bind fun file =>
    (accountsFor_execute ws j file).bind_keeps fun l =>
      Keeps.checkpoint.bind fun _ => Request.keeps_present ws j file l
  simp only [add_length_graphFile] at hlist
  exact hlist

/-- The dump of the flow graphs is set down for deletion together with its file, unless that file cannot
be created; then nothing else happens. -/
theorem list_dump {file : Text} (hfile : j.graphFile ws w.temporaries = some file) :
    file ++ dumpExtension ∈ ((Request.list ws j).perform w).2.toDelete ∨
      ∃ f, w.disk.createFile file = .error f ∧
        ((Request.list ws j).perform w).2 = { w with temporaries := w.temporaries + 1 } := by
  have hgraphs : j.settings.flowGraphs = true := by
    unfold graphFile at hfile
    by_contra hno
    rw [if_neg hno] at hfile
    cases hfile
  rw [graphFile_eq ws hgraphs] at hfile
  obtain rfl := Option.some.inj hfile
  have hgraph := perform_flowGraphFile ws hgraphs w
  unfold Request.list
  cases hcreated : w.disk.createFile (temporaryPath ws.host (w.temporaries + 1) []) with
  | error f =>
    rw [hcreated] at hgraph
    refine Or.inr ⟨f, rfl, ?_⟩
    rw [perform_bind_of_error hgraph]
  | ok d =>
    rw [hcreated] at hgraph
    refine Or.inl ?_
    rw [perform_bind_of_ok hgraph]
    have hrest := (accountsFor_execute ws j (some (temporaryPath ws.host (w.temporaries + 1) []))).bind_keeps
      fun l => Keeps.checkpoint.bind fun _ => Request.keeps_present ws j
        (some (temporaryPath ws.host (w.temporaries + 1) [])) l
    exact (hrest _).1.toDelete.subset (by simp)

end Files

end Job

end JitInspect
