import JitInspect.Proofs.FileTree.Adding
import JitInspect.Proofs.Loader.Freshness

/-!
# Builds of the loader

A call of the cache asks for the version of the toolchain, builds the loader unless both of its files
are in the cache, and copies them (`LoaderCache.Course`). Everything that a call does besides starting
these two processes is the cache's own: it adds its sources to the folder of the loader, and no file
is lost when it copies. Whatever the processes do, and wherever the call is cancelled, it goes one of
these ways (`LoaderCache.exists_course`).

From the ways that a call can go it is read off what every call keeps to (`LoaderCache.Orderly`). In
particular, when a tool has failed or the call is cancelled, the call has not come to its copies.

When the cache is used by one call after another (`LoaderCache.History`), the files of an edition stay
there once a build has left both of them. So no later call builds for the edition, and at most one
build for it is ever completed, however many failed before (`LoaderCache.orderly_and_builds_once`).
-/

namespace JitInspect

/-! ### Actions that start nothing -/

section Silence

open JitInspect.Action

variable {α β : Type} {w w₁ w₂ : World} {R : Disk → Disk → Prop}

/-- Nothing has been started, and the disk has changed as the relation allows. -/
structure World.Silent (R : Disk → Disk → Prop) (w w₁ : World) : Prop where
  started : w₁.started = w.started
  outcomes : w₁.outcomes = w.outcomes
  disk : R w.disk w₁.disk

theorem World.Silent.trans [Disk.Frame R] (h : w.Silent R w₁) (h₁ : w₁.Silent R w₂) :
    w.Silent R w₂ :=
  ⟨h₁.started.trans h.started, h₁.outcomes.trans h.outcomes, Disk.Frame.trans h.disk h₁.disk⟩

/-- What holds of a sequence is what holds where its first action fails and of the second action where
the first one ends well. -/
theorem Action.Keeps.bind_cases {S : World → World → Prop} {a : Action α} {g : α → Action β}
    {Q : Except Failure β × World → Prop} (ha : Keeps S a)
    (herror : ∀ f w₁, S w w₁ → a.perform w = (.error f, w₁) → Q (.error f, w₁))
    (hok : ∀ x w₁, S w w₁ → a.perform w = (.ok x, w₁) → Q ((g x).perform w₁)) :
    Q ((a >>= g).perform w) := by
  have hw := ha w
  rcases hrun : a.perform w with ⟨f | x, w₁⟩
  · rw [hrun] at hw
    rw [perform_bind_of_error hrun]
    exact herror f w₁ hw hrun
  · rw [hrun] at hw
    rw [perform_bind_of_ok hrun]
    exact hok x w₁ hw hrun

/-- A change of the disk that keeps a frame is silent. -/
theorem Action.silent_change {x : Disk.Change α} (hx : Disk.Change.Keeps R x) :
    Keeps (World.Silent R) (change x) := by
  intro w
  rw [perform_change]
  exact ⟨rfl, rfl, hx w.disk⟩

instance : Disk.Frame Eq := ⟨fun _ => rfl, Eq.trans⟩

/-- Behind a process nothing has happened to the disk. -/
theorem World.RanTo.silent {q : Process} (h : w.RanTo q w₁) (h₁ : w₁.Silent Eq w₂) : w.RanTo q w₂ :=
  ⟨h₁.started.trans h.started, h₁.outcomes.trans h.outcomes, h₁.disk.symm.trans h.disk⟩

/-- A command is run to its end. -/
theorem Action.keeps_start (x : Command) :
    Keeps (fun w w₁ => w.RanTo (w.next x) w₁) (start x) := by
  intro w
  rw [perform_start_eq]
  exact w.ranTo_after x

variable [Disk.Frame R]

theorem World.Silent.refl (w : World) : w.Silent R w := ⟨rfl, rfl, Disk.Frame.refl w.disk⟩

/-- Where the disk stays as it is, any relation allows it. -/
theorem World.Silent.of_eq (h : w.Silent Eq w₁) : w.Silent R w₁ :=
  ⟨h.started, h.outcomes, h.disk ▸ Disk.Frame.refl w.disk⟩

/-- Reporting is silent. -/
theorem Action.silent_report (t : Text) : Keeps (World.Silent R) (report t) :=
  fun w => ⟨rfl, rfl, Disk.Frame.refl w.disk⟩

/-- A question about the disk is silent. -/
theorem Action.silent_ask (question : Disk → Except FileFault α) :
    Keeps (World.Silent R) (ask question) := by
  intro w
  rw [perform_ask]
  exact World.Silent.refl w

/-- A checkpoint is silent. -/
theorem Action.silent_checkpoint : Keeps (World.Silent R) checkpoint := by
  intro w
  rw [perform_checkpoint]
  exact World.Silent.refl w

end Silence

namespace LoaderCache

variable {c : LoaderCache} {framework : Text} {p folder : Path} {w w₁ : World} {d d₁ : Disk}
  {ps : List Process}

open JitInspect.Action

/-! ### How a call goes -/

section Courses

/-- The cache creates something at the path for the loader in the folder: the folder itself, one above
it, or one of the two sources. -/
def Owns (folder q : Path) : Prop :=
  (q.anchor = folder.anchor ∧ q.parts <+: folder.parts) ∨
    q = folder.child (loaderName ++ ".cs") ∨ q = folder.child (loaderName ++ ".csproj")

/-- The process that tells the version in a call. -/
def asking (c : LoaderCache) (w : World) : Process := w.next c.versionCommand

/-- The process that builds the loader in a call, when it starts with the disk. -/
def building (c : LoaderCache) (w : World) (folder : Path) (d : Disk) : Process :=
  ⟨⟨c.buildCommand folder, d⟩, w.outcomes[1]?.getD {}⟩

/-- The call is for a loader in the folder: the version in its name is the one that is told, or a new
identifier if what is told is no version. -/
def Names (c : LoaderCache) (framework : Text) (w : World) (folder : Path) : Prop :=
  ∃ printed, w.nextOutcome.ending = .ok printed ∧
    folder = c.folderOf framework
      (if isVersion (Text.strip printed.output) then Text.strip printed.output
        else Text.hex identifierLength (w.identifiers + 1))

/-- The call has stopped before any file was copied, or it has come to copying: then no file is lost,
the destination holds both files when it is done, and it fails for nothing but the disk. -/
def Ends (p : Path) (d d₁ : Disk) (e : Except Failure Unit) : Prop :=
  (d₁ = d ∧ ∃ f, e = .error f) ∨
    d.KeepsFiles d₁ ∧ (e = .ok () → holdsAll d₁ (filesIn p) = .ok true) ∧
      ∀ f, e = .error f → ∃ fault, f = .ofFile fault

/-- How a call goes: the processes that it starts, the disk that it leaves behind, and how it ends. -/
inductive Course (c : LoaderCache) (framework : Text) (p : Path) (w : World) :
    List Process → Disk → Except Failure Unit → Prop where
  /-- No process is started, as nothing is to be done or the destination cannot be served. -/
  | idle {e : Except Failure Unit} (h : e = .ok () → holdsAll w.disk (filesIn p) = .ok true) :
      Course c framework p w [] w.disk e
  /-- The version is asked for, and the call stops. -/
  | asked {f : Failure} : Course c framework p w [c.asking w] (c.asking w).left (.error f)
  /-- Both files are in the cache. -/
  | found {folder : Path} {d : Disk} {e : Except Failure Unit} (hnames : c.Names framework w folder)
      (hholds : holdsAll (c.asking w).left (filesIn (outputOf folder)) = .ok true)
      (hends : Ends p (c.asking w).left d e) : Course c framework p w [c.asking w] d e
  /-- One of the files is not in the cache, and the call stops before it starts the build. -/
  | prepared {folder : Path} {d : Disk} {f : Failure} (hnames : c.Names framework w folder)
      (hlacks : holdsAll (c.asking w).left (filesIn (outputOf folder)) = .ok false)
      (hadds : (c.asking w).left.Adds (Owns folder) d) :
      Course c framework p w [c.asking w] d (.error f)
  /-- One of the files is not in the cache, and the loader is built. -/
  | built {folder : Path} {d d₁ : Disk} {e : Except Failure Unit} (hnames : c.Names framework w folder)
      (hlacks : holdsAll (c.asking w).left (filesIn (outputOf folder)) = .ok false)
      (hadds : (c.asking w).left.Adds (Owns folder) d)
      (hends : Ends p (c.building w folder d).left d₁ e)
      (hmade : e = .ok () →
        holdsAll (c.building w folder d).left (filesIn (outputOf folder)) = .ok true) :
      Course c framework p w [c.asking w, c.building w folder d] d₁ e

/-- A file that is written unless it exists is added. -/
theorem silent_writeOnce {paths : Path → Prop} {file : Path} (hfile : paths file) (content : Text) :
    Keeps (World.Silent (Disk.Adds paths)) (writeOnce file content) := by
  intro w
  refine (silent_ask (R := Disk.Adds paths) _).bind_cases (Q := fun r => w.Silent _ r.2)
    (fun f w₁ h _ => h) fun isThere w₁ h hrun => ?_
  obtain ⟨hthere, rfl⟩ := perform_ask_eq_ok.1 hrun
  cases isThere with
  | true => exact h
  | false =>
    have hnot : w.disk.isFile file.text ≠ .ok true := by
      rw [hthere]
      simp
    change w.Silent _ ((Action.writeText file.text content).perform w).2
    rw [perform_writeText]
    cases hwrite : w.disk.writeBytes file.text (Text.toUtf8 content) with
    | error f => exact h
    | ok d => exact ⟨rfl, rfl, Disk.adds_writeBytes hfile hnot hwrite⟩

/-- Creating the folder adds it, and those above it. -/
theorem silent_makePath (folder : Path) :
    Keeps (World.Silent (Disk.Adds (Owns folder))) (change (Disk.makePath folder)) :=
  silent_change fun d => (Disk.adds_makePath folder d).mono fun _ => Or.inl

/-- What a change of the disk fails for is a fault of the disk. -/
theorem exists_fault_of_change {α : Type} {x : Disk.Change α} {f : Failure}
    (h : (change x).perform w = (.error f, w₁)) : ∃ fault, f = .ofFile fault := by
  rw [perform_change] at h
  rcases hrun : StateT.run x.run w.disk with ⟨fault | y, d⟩
  · rw [hrun] at h
    cases h
    exact ⟨fault, rfl⟩
  · rw [hrun] at h
    cases h

/-- Copying loses no file, and what it fails for is a fault of the disk. -/
theorem silent_copies {names : List Text} {source : Path} {e : Except Failure Unit}
    (h : (names.forM fun n => change
      (Disk.copyFile (source.child n) (p.child n))).perform w = (e, w₁)) :
    w.Silent Disk.KeepsFiles w₁ ∧ ∀ f, e = .error f → ∃ fault, f = .ofFile fault := by
  induction names generalizing w with
  | nil =>
    cases h
    exact ⟨World.Silent.refl _, fun f hf => nomatch hf⟩
  | cons n names ih =>
    have hcopy := silent_change (Disk.keepsFiles_copyFile (source.child n) (p.child n))
    revert h
    refine hcopy.bind_cases (Q := fun r => r = (e, w₁) → _) ?_ ?_
    · intro f w₂ hw hrun h
      cases h
      refine ⟨hw, fun f' hf' => ?_⟩
      cases hf'
      exact exists_fault_of_change hrun
    · intro x w₂ hw hrun h
      obtain ⟨hrest, hfails⟩ := ih h
      exact ⟨hw.trans hrest, hfails⟩

/-- The version is asked for, and what is given is the folder that is named. -/
theorem perform_folder (c : LoaderCache) (framework : Text) (w : World) :
    w.RanTo (c.asking w) ((c.folder framework).perform w).2 ∧
      ∀ folder, ((c.folder framework).perform w).1 = .ok folder → c.Names framework w folder := by
  have hran : w.RanTo (c.asking w) (w.after c.versionCommand).2 := w.ranTo_after c.versionCommand
  have hidentifiers := w.identifiers_after c.versionCommand
  rw [LoaderCache.folder, perform_bind, perform_start_eq]
  rcases hafter : w.after c.versionCommand with ⟨f | printed, w₁⟩
  · rw [hafter] at hran
    exact ⟨hran, fun folder h => nomatch h⟩
  have hending : w.nextOutcome.ending = .ok printed := World.ending_of_after (by rw [hafter])
  rw [hafter] at hran hidentifiers
  dsimp only at hran hidentifiers ⊢
  rw [perform_bind, perform_checkpoint]
  cases w₁.isCancelled with
  | true => exact ⟨hran, fun folder h => nomatch h⟩
  | false =>
    by_cases hversion : isVersion (Text.strip printed.output) = true
    · simp only [hversion, if_true]
      refine ⟨hran, fun folder h => ⟨printed, hending, ?_⟩⟩
      rw [if_pos hversion]
      exact (Except.ok.inj h).symm
    · simp only [hversion]
      refine ⟨⟨hran.started, hran.outcomes, hran.disk⟩, fun folder h => ⟨printed, hending, ?_⟩⟩
      rw [if_neg hversion, ← hidentifiers]
      exact (Except.ok.inj h).symm

/-- A build stops before its command is started, or it starts the command and then leaves the disk as
it is. It ends well only if the command has left both files. -/
def BuildEnds (c : LoaderCache) (folder : Path) (w : World) (r : Except Failure Unit × World) : Prop :=
  ((∃ f, r.1 = .error f) ∧ w.Silent (Disk.Adds (Owns folder)) r.2) ∨
    ∃ w₁, w.Silent (Disk.Adds (Owns folder)) w₁ ∧ w₁.RanTo (w₁.next (c.buildCommand folder)) r.2 ∧
      (r.1 = .ok () → holdsAll r.2.disk (filesIn (outputOf folder)) = .ok true)

/-- A build ends in one of the ways that are listed. -/
theorem perform_build (c : LoaderCache) (folder : Path) (framework : Text) (w : World) :
    c.BuildEnds folder w ((c.build folder framework).perform w) := by
  have hcode : Owns folder (folder.child (loaderName ++ ".cs")) := Or.inr (Or.inl rfl)
  have hproject : Owns folder (folder.child (loaderName ++ ".csproj")) := Or.inr (Or.inr rfl)
  have hstops : ∀ {f w₁}, w.Silent (Disk.Adds (Owns folder)) w₁ →
      c.BuildEnds folder w (.error f, w₁) := fun h => Or.inl ⟨⟨_, rfl⟩, h⟩
  refine (silent_makePath folder).bind_cases (fun f w₁ h _ => hstops h) fun _ w₁ h₁ _ => ?_
  refine (silent_writeOnce hcode _).bind_cases
    (fun f w₂ h _ => hstops (h₁.trans h)) fun _ w₂ h₂ _ => ?_
  refine (silent_writeOnce hproject _).bind_cases
    (fun f w₃ h _ => hstops ((h₁.trans h₂).trans h)) fun _ w₃ h₃ _ => ?_
  refine silent_checkpoint.bind_cases
    (fun f w₄ h _ => hstops (((h₁.trans h₂).trans h₃).trans h)) fun _ w₄ h₄ _ => ?_
  have hready := ((h₁.trans h₂).trans h₃).trans h₄
  -- What follows the command only looks at the disk.
  have hran : ∀ {e w₅}, w₄.RanTo (w₄.next (c.buildCommand folder)) w₅ →
      (e = .ok () → holdsAll w₅.disk (filesIn (outputOf folder)) = .ok true) →
        c.BuildEnds folder w (e, w₅) := fun h hmade => Or.inr ⟨w₄, hready, h, hmade⟩
  refine (keeps_start _).bind_cases (fun f w₅ h _ => hran h nofun) fun printed w₅ h₅ _ => ?_
  refine (silent_checkpoint (R := Eq)).bind_cases
    (fun f w₆ h _ => hran (h₅.silent h) nofun) fun _ w₆ h₆ _ => ?_
  refine (silent_ask (R := Eq) _).bind_cases
    (fun f w₇ h _ => hran ((h₅.silent h₆).silent h) nofun) fun there w₇ h₇ hrun => ?_
  obtain ⟨hthere, rfl⟩ := perform_ask_eq_ok.1 hrun
  cases there with
  | true => exact hran ((h₅.silent h₆).silent h₇) fun _ => hthere
  | false => exact hran ((h₅.silent h₆).silent h₇) nofun

/-- Silence ahead of a build does not change how it ends. -/
theorem BuildEnds.of_silent {r : Except Failure Unit × World} (hw : w.Silent Eq w₁)
    (h : c.BuildEnds folder w₁ r) : c.BuildEnds folder w r := by
  rcases h with ⟨hfails, hsilent⟩ | ⟨w₂, hsilent, hran⟩
  · exact Or.inl ⟨hfails, hw.of_eq.trans hsilent⟩
  · exact Or.inr ⟨w₂, hw.of_eq.trans hsilent, hran⟩

/-- A loader is built only if it is not in the cache. -/
def BuildOnceEnds (c : LoaderCache) (folder : Path) (w : World) (r : Except Failure Unit × World) :
    Prop :=
  w.Silent Eq r.2 ∧ (r.1 = .ok () → holdsAll w.disk (filesIn (outputOf folder)) = .ok true) ∨
    holdsAll w.disk (filesIn (outputOf folder)) = .ok false ∧ c.BuildEnds folder w r

/-- A build that is made once ends in one of the ways that are listed. -/
theorem perform_buildOnce (c : LoaderCache) (folder : Path) (framework : Text) (w : World) :
    c.BuildOnceEnds folder w ((c.buildOnce folder framework).perform w) := by
  refine (silent_ask (R := Eq) _).bind_cases (fun f w₁ h _ => ?_) fun holds w₁ h hrun => ?_
  · exact Or.inl ⟨h, fun hok => nomatch hok⟩
  obtain ⟨hholds, rfl⟩ := perform_ask_eq_ok.1 hrun
  cases holds with
  | true => exact Or.inl ⟨h, fun _ => hholds⟩
  | false =>
    refine (silent_report (R := Eq) _).bind_cases (fun f w₁ h₁ hrun => nomatch hrun) fun _ w₁ h₁ _ => ?_
    exact Or.inr ⟨hholds, (perform_build c folder framework w₁).of_silent h₁⟩

/-- Behind the build, the files are copied unless the call is cancelled. -/
theorem perform_copyTo (folder p : Path) (w : World) :
    ∀ r, (checkpoint >>= fun _ => copyTo p folder).perform w = r →
      r.2.started = w.started ∧ Ends p w.disk r.2.disk r.1 := by
  rintro r rfl
  refine (silent_checkpoint (R := Eq)).bind_cases
    (Q := fun r => r.2.started = w.started ∧ Ends p w.disk r.2.disk r.1) (fun f w₁ h _ => ?_)
    fun _ w₁ h _ => ?_
  · exact ⟨h.started, Or.inl ⟨h.disk.symm, f, rfl⟩⟩
  · rcases hrun : (copyTo p folder).perform w₁ with ⟨e, w₂⟩
    obtain ⟨hsilent, hfails⟩ := silent_copies hrun
    refine ⟨hsilent.started.trans h.started, Or.inr ⟨?_, ?_, hfails⟩⟩
    · rw [h.disk]
      exact hsilent.disk
    · rintro rfl
      exact holdsAll_of_copyTo hrun

/-- The call has gone some way. -/
def Goes (c : LoaderCache) (framework : Text) (p : Path) (w : World)
    (r : Except Failure Unit × World) : Prop :=
  ∃ ps, Course c framework p w ps r.2.disk r.1 ∧
    r.2.started = (ps.map Process.toStarted).reverse ++ w.started

/-- The process of a build is the second one of the call. -/
theorem next_eq_building {w₂ : World} (hran : w.RanTo (c.asking w) w₁)
    (hsilent : w₁.Silent (Disk.Adds (Owns folder)) w₂) :
    w₂.next (c.buildCommand folder) = c.building w folder w₂.disk := by
  have houtcome : w₂.nextOutcome = w.outcomes[1]?.getD {} := by
    rw [World.nextOutcome, hsilent.outcomes, hran.outcomes, List.head?_tail]
  rw [World.next, houtcome]
  rfl

/-- How a call goes on when it knows the folder. -/
theorem goes_of_names (hnames : c.Names framework w folder) (hran : w.RanTo (c.asking w) w₁) :
    c.Goes framework p w ((c.buildOnce folder framework >>= fun _ => checkpoint >>= fun _ =>
      copyTo p folder).perform w₁) := by
  have hasked : ∀ {w₂ : World}, w₂.started = w₁.started →
      w₂.started = ([c.asking w].map Process.toStarted).reverse ++ w.started :=
    fun h => h.trans hran.started
  have hboth : ∀ {w₂ w₃ w₄ : World} {q : Process}, w₁.Silent (Disk.Adds (Owns folder)) w₂ →
      w₂.RanTo q w₃ → w₄.started = w₃.started →
        w₄.started = ([c.asking w, q].map Process.toStarted).reverse ++ w.started :=
    fun hsilent hbuilt h => by rw [h, hbuilt.started, hsilent.started, hran.started]; rfl
  have hadds : ∀ {w₂ : World}, w₁.Silent (Disk.Adds (Owns folder)) w₂ →
      (c.asking w).left.Adds (Owns folder) w₂.disk := fun h => hran.disk ▸ h.disk
  have hends := perform_buildOnce c folder framework w₁
  unfold BuildOnceEnds at hends
  rw [hran.disk] at hends
  rcases hrun : (c.buildOnce folder framework).perform w₁ with ⟨f | u, w₂⟩
  all_goals
    rw [hrun] at hends
    rcases hends with
      ⟨hsilent, hholds⟩ | ⟨hlacks, ⟨hfails, hsilent⟩ | ⟨w₃, hsilent, hbuilt, hmade⟩⟩
  -- The call stops before the files are copied.
  case error.inl =>
    rw [perform_bind_of_error hrun]
    have hdisk : w₂.disk = (c.asking w).left := hsilent.disk.symm.trans hran.disk
    refine ⟨[c.asking w], ?_, hasked hsilent.started⟩
    dsimp only
    rw [hdisk]
    exact .asked
  case error.inr.inl =>
    rw [perform_bind_of_error hrun]
    exact ⟨_, .prepared hnames hlacks (hadds hsilent), hasked hsilent.started⟩
  case error.inr.inr =>
    rw [perform_bind_of_error hrun]
    rw [next_eq_building hran hsilent] at hbuilt
    have hstops : Ends p (c.building w folder w₃.disk).left w₂.disk (.error f) :=
      Or.inl ⟨hbuilt.disk, f, rfl⟩
    exact ⟨_, .built hnames hlacks (hadds hsilent) hstops nofun, hboth hsilent hbuilt rfl⟩
  -- The call comes to the copies.
  case ok.inl =>
    rw [perform_bind_of_ok hrun]
    obtain ⟨hstarted, hcopies⟩ := perform_copyTo folder p w₂ _ rfl
    have hdisk : w₂.disk = (c.asking w).left := hsilent.disk.symm.trans hran.disk
    rw [hdisk] at hcopies
    exact ⟨_, .found hnames (hholds rfl) hcopies, hasked (hstarted.trans hsilent.started)⟩
  case ok.inr.inl =>
    obtain ⟨f, hf⟩ := hfails
    cases hf
  case ok.inr.inr =>
    rw [perform_bind_of_ok hrun]
    obtain ⟨hstarted, hcopies⟩ := perform_copyTo folder p w₂ _ rfl
    rw [next_eq_building hran hsilent] at hbuilt
    have hmade := hmade rfl
    rw [hbuilt.disk] at hcopies hmade
    have hcourse := Course.built hnames hlacks (hadds hsilent) hcopies fun _ => hmade
    exact ⟨_, hcourse, hboth hsilent hbuilt hstarted⟩

/-- Every call goes one of these ways. -/
theorem exists_course (c : LoaderCache) (framework : Text) (p : Path) (w : World) :
    c.Goes framework p w ((c.ensure framework p).perform w) := by
  have hidle : ∀ {e : Except Failure Unit} {w₁ : World}, w.Silent Eq w₁ →
      (e = .ok () → holdsAll w.disk (filesIn p) = .ok true) → c.Goes framework p w (e, w₁) := by
    intro e w₁ h hdone
    have hcourse : Course c framework p w [] w₁.disk e := h.disk ▸ .idle hdone
    exact ⟨[], hcourse, h.started⟩
  refine (silent_ask (R := Eq) _).bind_cases (fun f w₁ h _ => hidle h nofun) fun isThere w₁ h hrun => ?_
  obtain ⟨-, rfl⟩ := perform_ask_eq_ok.1 hrun
  cases isThere with
  | false => exact hidle h nofun
  | true =>
    refine (silent_ask (R := Eq) _).bind_cases (fun f w₁ h _ => hidle h nofun)
      fun holds w₁ h hrun => ?_
    obtain ⟨hholds, rfl⟩ := perform_ask_eq_ok.1 hrun
    cases holds with
    | true => exact hidle h fun _ => hholds
    | false =>
      refine (silent_report (R := Eq) _).bind_cases (fun f w₁ _ hrun => nomatch hrun)
        fun _ w₁ _ hrun => ?_
      rw [perform_report] at hrun
      cases hrun
      have hfolder : Keeps (fun w w₁ => w.RanTo (c.asking w) w₁) (c.folder framework) :=
        fun w => (perform_folder c framework w).1
      refine hfolder.bind_cases (fun f w₂ hran _ => ?_) fun folder w₂ hran hrun => ?_
      · have hdisk : w₂.disk = (c.asking w).left := hran.disk
        have hcourse : Course c framework p w [c.asking w] w₂.disk (.error f) := hdisk ▸ .asked
        exact ⟨_, hcourse, hran.started⟩
      · obtain ⟨printed, hending, hname⟩ :=
          (perform_folder c framework _).2 folder (congrArg Prod.fst hrun)
        exact goes_of_names ⟨printed, hending, hname⟩ ⟨hran.started, hran.outcomes, hran.disk⟩

end Courses

/-! ### What every call keeps to -/

section Calls

/-- Before the processes, between them and behind them the disk has changed as the relation allows. -/
def Between (R : Disk → Disk → Prop) (d : Disk) : List Process → Disk → Prop
  | [], d₁ => R d d₁
  | q :: qs, d₁ => R d q.disk ∧ Between R q.left qs d₁

/-- Nothing has changed at the location and below it. -/
def SameWithin (goal : Location) (d d₁ : Disk) : Prop :=
  ∀ loc, goal <+: loc → d₁.tree.get? loc = d.tree.get? loc

/-- The location lies outside of the cache: if the cache creates something for the loader in the
folder, it is not at the location and not below it. -/
def LiesOutside (d : Disk) (folder : Path) (goal : Location) : Prop :=
  ∀ q loc, Owns folder q → d.place q.text = some loc → goal <+: loc → d.tree.get? loc ≠ none

/-- What is added to a folder changes nothing at a location outside it. -/
theorem sameWithin_of_adds {goal : Location} (h : d.Adds (Owns folder) d₁)
    (houtside : LiesOutside d folder goal) : SameWithin goal d d₁ :=
  fun loc hloc => h.get?_eq fun q hq hplace => houtside q loc hq hplace hloc

/-- What every call keeps to. It starts at most two processes, the second one to build a loader that
is not in the cache. The files are in the destination when it is done. When a tool has failed or the
call is cancelled, it has itself changed nothing in the destination. -/
structure Orderly (c : LoaderCache) (framework : Text) (p : Path) (w : World) (ps : List Process)
    (r : Except Failure Unit × World) : Prop where
  started : r.2.started = (ps.map Process.toStarted).reverse ++ w.started
  outcome : ∀ (i : ℕ) (q : Process), ps[i]? = some q → q.outcome = w.outcomes[i]?.getD {}
  processes : ps = [] ∨ (∃ v, ps = [v] ∧ v.command = c.versionCommand) ∨
    ∃ v b folder, ps = [v, b] ∧ v.command = c.versionCommand ∧ b.command = c.buildCommand folder ∧
      c.Names framework w folder ∧ holdsAll v.left (filesIn (outputOf folder)) = .ok false
  delivers : r.1 = .ok () → holdsAll r.2.disk (filesIn p) = .ok true
  spares : (∃ t, r.1 = .error (.tool t) ∨ r.1 = .error (.cancelled t)) →
    ∀ goal, w.disk.place p.text = some goal →
      (∀ folder, c.Names framework w folder → LiesOutside (c.asking w).left folder goal) →
        Between (SameWithin goal) w.disk ps r.2.disk

/-- A call that ended well has delivered the loader. -/
theorem Ends.delivers {e : Except Failure Unit} (h : Ends p d d₁ e) (hdone : e = .ok ()) :
    holdsAll d₁ (filesIn p) = .ok true := by
  rcases h with ⟨-, f, rfl⟩ | ⟨-, hholds, -⟩
  · cases hdone
  · exact hholds hdone

/-- A tool that has failed and a cancelled call are no faults of the disk. -/
theorem Ends.eq {e : Except Failure Unit} (h : Ends p d d₁ e)
    (hfails : ∃ t, e = .error (.tool t) ∨ e = .error (.cancelled t)) : d₁ = d := by
  rcases h with ⟨hsame, -⟩ | ⟨-, -, hfault⟩
  · exact hsame
  · obtain ⟨t, rfl | rfl⟩ := hfails
    all_goals
      obtain ⟨fault, h⟩ := hfault _ rfl
      cases h

section Course

variable {e : Except Failure Unit}

/-- The question for the version is answered by the first outcome. -/
theorem outcome_asking (c : LoaderCache) (w : World) :
    (c.asking w).outcome = w.outcomes[0]?.getD {} := by
  unfold asking World.next World.nextOutcome
  rw [List.head?_eq_getElem?]

/-- The commands of a call end as the outcomes say, in order. -/
theorem Course.outcome (h : Course c framework p w ps d e) (i : ℕ) (q : Process)
    (hq : ps[i]? = some q) : q.outcome = w.outcomes[i]?.getD {} := by
  have hfirst : ∀ qs : List Process, (c.asking w :: qs)[0]? = some q →
      q.outcome = w.outcomes[0]?.getD {} := by
    intro qs hq
    obtain rfl : c.asking w = q := Option.some.inj hq
    exact outcome_asking c w
  cases h with
  | idle => cases hq
  | built hnames hlacks hadds hends hmade =>
    match i with
    | 0 => exact hfirst _ hq
    | 1 =>
      obtain rfl := Option.some.inj hq
      rfl
  | asked | found hnames hholds hends | prepared hnames hlacks hadds =>
    match i with
    | 0 => exact hfirst _ hq

/-- A call asks for the version and builds at most once, and it builds only where there is no build yet.
-/
theorem Course.processes (h : Course c framework p w ps d e) :
    ps = [] ∨ (∃ v, ps = [v] ∧ v.command = c.versionCommand) ∨
      ∃ v b folder, ps = [v, b] ∧ v.command = c.versionCommand ∧
        b.command = c.buildCommand folder ∧ c.Names framework w folder ∧
          holdsAll v.left (filesIn (outputOf folder)) = .ok false := by
  cases h with
  | idle => exact Or.inl rfl
  | built hnames hlacks hadds hends hmade =>
    exact Or.inr (Or.inr ⟨_, _, _, rfl, rfl, rfl, hnames, hlacks⟩)
  | asked | found hnames hholds hends | prepared hnames hlacks hadds =>
    exact Or.inr (Or.inl ⟨_, rfl, rfl⟩)

/-- A call that ended well has delivered the loader. -/
theorem Course.delivers (h : Course c framework p w ps d e) (hdone : e = .ok ()) :
    holdsAll d (filesIn p) = .ok true := by
  cases h with
  | idle hholds => exact hholds hdone
  | found _ _ hends => exact hends.delivers hdone
  | built _ _ _ hends _ => exact hends.delivers hdone
  | asked | prepared => cases hdone

/-- A call that fails because of a tool or of cancellation leaves every location alone that lies outside
its folder. -/
theorem Course.spares {goal : Location} (h : Course c framework p w ps d e)
    (hfails : ∃ t, e = .error (.tool t) ∨ e = .error (.cancelled t))
    (houtside : ∀ folder, c.Names framework w folder → LiesOutside (c.asking w).left folder goal) :
    Between (SameWithin goal) w.disk ps d := by
  have hsame : ∀ d, SameWithin goal d d := fun _ _ _ => rfl
  cases h with
  | idle => exact hsame _
  | asked => exact ⟨hsame _, hsame _⟩
  | found _ _ hends =>
    obtain rfl := hends.eq hfails
    exact ⟨hsame _, hsame _⟩
  | prepared hnames _ hadds => exact ⟨hsame _, sameWithin_of_adds hadds (houtside _ hnames)⟩
  | built hnames _ hadds hends _ =>
    obtain rfl := hends.eq hfails
    exact ⟨hsame _, sameWithin_of_adds hadds (houtside _ hnames), hsame _⟩

end Course

/-- Every call takes its course. -/
theorem exists_orderly (c : LoaderCache) (framework : Text) (p : Path) (w : World) :
    ∃ ps, c.Orderly framework p w ps ((c.ensure framework p).perform w) := by
  obtain ⟨ps, hcourse, hstarted⟩ := c.exists_course framework p w
  exact ⟨ps, hstarted, hcourse.outcome, hcourse.processes, hcourse.delivers,
    fun hfails _ _ houtside => hcourse.spares hfails houtside⟩

end Calls

/-! ### Calls, one after another -/

section Histories

variable {x y : Edition} {xs : List Edition}

/-- Both files of the edition are in the cache. -/
def HasBinaries (c : LoaderCache) (x : Edition) (d : Disk) : Prop :=
  holdsAll d (filesIn (outputOf (c.editionFolder x))) = .ok true

/-- A build stays where files are kept. -/
theorem hasBinaries_of_keepsFiles (hkeeps : d.KeepsFiles d₁) (h : c.HasBinaries x d) :
    c.HasBinaries x d₁ := by
  unfold HasBinaries at h ⊢
  rw [holdsAll_eq_ok_true] at h ⊢
  exact fun q hq => hkeeps _ (h q hq)

/-- A call for the edition: the version that is told, if any, is that of the edition. The command that
tells it leaves the cache alone, and the one that builds leaves alone what is in other folders. -/
structure CallsFor (c : LoaderCache) (w : World) (x : Edition) : Prop where
  version : ∀ printed, w.nextOutcome.ending = .ok printed →
    isVersion (Text.strip printed.output) = true ∧ Text.strip printed.output = x.toolchain
  asks : ∀ y, c.HasBinaries y w.disk → c.HasBinaries y (c.asking w).left
  builds : ∀ d y, c.editionFolder y ≠ c.editionFolder x → c.HasBinaries y d →
    c.HasBinaries y (c.building w (c.editionFolder x) d).left

/-- The call for the edition starts a build that leaves both files in the cache. -/
def Completes (c : LoaderCache) (w : World) (x : Edition) (p : Path) : Prop :=
  ∃ d, ((c.ensure x.framework p).perform w).2.started =
      (c.building w (c.editionFolder x) d).toStarted :: (c.asking w).toStarted :: w.started ∧
    c.HasBinaries x (c.building w (c.editionFolder x) d).left

/-- What calls lead to, one after another, however they end, and the editions for which a build has
left both files, the last one first. Between the calls anything may happen but in the cache. -/
inductive History (c : LoaderCache) (w : World) : List Edition → World → Prop where
  | start : History c w [] w
  | elsewhere {xs : List Edition} {w₁ w₂ : World} (h : History c w xs w₁)
      (hkept : ∀ y, c.HasBinaries y w₁.disk → c.HasBinaries y w₂.disk) : History c w xs w₂
  | call {xs : List Edition} {w₁ : World} {x : Edition} {p : Path} (h : History c w xs w₁)
      (hcall : c.CallsFor w₁ x) (hnot : ¬c.Completes w₁ x p) :
      History c w xs ((c.ensure x.framework p).perform w₁).2
  | completing {xs : List Edition} {w₁ : World} {x : Edition} {p : Path} (h : History c w xs w₁)
      (hcall : c.CallsFor w₁ x) (hcompletes : c.Completes w₁ x p) :
      History c w (x :: xs) ((c.ensure x.framework p).perform w₁).2

/-- The folder of a call is that of its edition. -/
theorem CallsFor.folder_eq (hcall : c.CallsFor w x) (hnames : c.Names x.framework w folder) :
    folder = c.editionFolder x := by
  obtain ⟨printed, hending, rfl⟩ := hnames
  obtain ⟨hversion, htoolchain⟩ := hcall.version printed hending
  rw [if_pos hversion, htoolchain]
  rfl

/-- However a call ends, files are kept. -/
theorem Ends.keepsFiles {e : Except Failure Unit} (h : Ends p d d₁ e) : d.KeepsFiles d₁ := by
  rcases h with ⟨rfl, -⟩ | ⟨hkeeps, -⟩
  · exact fun _ hpath => hpath
  · exact hkeeps

/-- Files that are in the cache stay there in a call, also those of its own edition: a build is not
started then. -/
theorem Course.hasBinaries {e : Except Failure Unit} (h : Course c x.framework p w ps d e)
    (hcall : c.CallsFor w x) (hy : c.HasBinaries y w.disk) : c.HasBinaries y d := by
  have hasked := hcall.asks y hy
  cases h with
  | idle => exact hy
  | asked => exact hasked
  | found _ _ hends => exact hasBinaries_of_keepsFiles hends.keepsFiles hasked
  | prepared _ _ hadds => exact hasBinaries_of_keepsFiles hadds.keepsFiles hasked
  | built hnames hlacks hadds hends hmade =>
    obtain rfl := hcall.folder_eq hnames
    have hother : c.editionFolder y ≠ c.editionFolder x := by
      intro hsame
      unfold HasBinaries at hasked
      rw [hsame, hlacks] at hasked
      cases hasked
    exact hasBinaries_of_keepsFiles hends.keepsFiles
      (hcall.builds _ y hother (hasBinaries_of_keepsFiles hadds.keepsFiles hasked))

/-- A call that starts two processes builds a loader that is not in the cache. -/
theorem Course.of_length_two {e : Except Failure Unit} (h : Course c framework p w ps d e)
    (hps : ps.length = 2) :
    ∃ folder d₁, ps = [c.asking w, c.building w folder d₁] ∧ c.Names framework w folder ∧
      holdsAll (c.asking w).left (filesIn (outputOf folder)) = .ok false ∧
        Ends p (c.building w folder d₁).left d e ∧
          (e = .ok () →
            holdsAll (c.building w folder d₁).left (filesIn (outputOf folder)) = .ok true) := by
  cases h with
  | built hnames hlacks hadds hends hmade => exact ⟨_, _, rfl, hnames, hlacks, hends, hmade⟩
  | idle | asked | found | prepared => cases hps

/-- A build that leaves both files in the cache has not found them there. -/
theorem Completes.not_hasBinaries (h : c.Completes w x p) (hcall : c.CallsFor w x) :
    ¬c.HasBinaries x w.disk ∧ c.HasBinaries x ((c.ensure x.framework p).perform w).2.disk := by
  obtain ⟨d, hstarted, hbinaries⟩ := h
  obtain ⟨ps, hcourse, hps⟩ := c.exists_course x.framework p w
  rw [hps] at hstarted
  have hlength : ps.length = 2 := by
    have hcount := congrArg List.length hstarted
    rw [List.length_append, List.length_reverse, List.length_map, List.length_cons,
      List.length_cons] at hcount
    omega
  obtain ⟨folder, d₁, rfl, hnames, hlacks, hends, -⟩ := hcourse.of_length_two hlength
  obtain rfl := hcall.folder_eq hnames
  obtain rfl : d₁ = d := congrArg Started.disk (List.cons.inj hstarted).1
  refine ⟨fun hhas => ?_, hasBinaries_of_keepsFiles hends.keepsFiles hbinaries⟩
  have hasked := hcall.asks x hhas
  unfold HasBinaries at hasked
  rw [hlacks] at hasked
  cases hasked

/-- A call that starts two processes and ends well has built the loader. -/
theorem CallsFor.completes (hcall : c.CallsFor w x)
    (hdone : ((c.ensure x.framework p).perform w).1 = .ok ())
    (htwo : ((c.ensure x.framework p).perform w).2.started.length = w.started.length + 2) :
    c.Completes w x p := by
  obtain ⟨ps, hcourse, hps⟩ := c.exists_course x.framework p w
  have hlength : ps.length = 2 := by
    rw [hps, List.length_append, List.length_reverse, List.length_map] at htwo
    omega
  obtain ⟨folder, d₁, rfl, hnames, -, -, hmade⟩ := hcourse.of_length_two hlength
  obtain rfl := hcall.folder_eq hnames
  exact ⟨d₁, hps, hmade hdone⟩

/-- No edition is built twice, since each one that was built is still there: the invariant that a history
carries. -/
theorem History.inv (h : c.History w xs w₁) : xs.Nodup ∧ ∀ x ∈ xs, c.HasBinaries x w₁.disk := by
  induction h with
  | start => exact ⟨List.nodup_nil, fun x hx => absurd hx List.not_mem_nil⟩
  | elsewhere _ hkept ih => exact ⟨ih.1, fun x hx => hkept x (ih.2 x hx)⟩
  | call _ hcall _ ih =>
    obtain ⟨ps, hcourse, -⟩ := c.exists_course _ _ _
    exact ⟨ih.1, fun y hy => hcourse.hasBinaries hcall (ih.2 y hy)⟩
  | completing _ hcall hcompletes ih =>
    obtain ⟨ps, hcourse, -⟩ := c.exists_course _ _ _
    obtain ⟨hlacked, hhas⟩ := hcompletes.not_hasBinaries hcall
    refine ⟨List.nodup_cons.2 ⟨fun hmem => hlacked (ih.2 _ hmem), ih.1⟩, ?_⟩
    exact List.forall_mem_cons.2 ⟨hhas, fun y hy => hcourse.hasBinaries hcall (ih.2 y hy)⟩

/-- Every call is orderly, and in any history of calls at most one build for an edition leaves both of
its files in the cache. -/
theorem orderly_and_builds_once (c : LoaderCache) :
    (∀ framework p w, ∃ ps, c.Orderly framework p w ps ((c.ensure framework p).perform w)) ∧
      ∀ w xs w₁, c.History w xs w₁ → xs.Nodup :=
  ⟨fun framework p w => c.exists_orderly framework p w, fun _ _ _ h => h.inv.1⟩

end Histories

/-! ### A build that fails, one that does not, and a copy -/

section Sample

open Usage

/-- What happens in a call for the newer edition, when the build does such things. -/
def ahead (o : Outcome) : List Outcome := [{ ending := .ok { output := newer.toolchain } }, o]

/-- The build for the newer edition is going to fail. -/
def failure : World := { beforehand with outcomes := ahead (failing newer) }

/-- The build has failed, and the next one is not going to. -/
def retried : World :=
  { ((sample.cache.ensure newer.framework ⟨.root, ["a"]⟩).perform failure).2 with
    outcomes := ahead (Usage.building newer) }

/-- The first destination is served, and the other one is asked for. -/
def served : World :=
  { ((sample.cache.ensure newer.framework ⟨.root, ["a"]⟩).perform retried).2 with
    outcomes := ahead (Usage.building newer) }

/-- The disk behind the first try, which fails. -/
theorem disk_retried : retried.disk =
    ((sample.cache.ensure newer.framework ⟨.root, ["a"]⟩).perform failure).2.disk := by
  simp only [retried]

/-- The disk behind the second try, which ends well. -/
theorem disk_served : served.disk =
    ((sample.cache.ensure newer.framework ⟨.root, ["a"]⟩).perform retried).2.disk := by
  simp only [served]

/-- A build that fails keeps files. -/
theorem keepsFiles_failing (x : Command) :
    Disk.Change.Keeps Disk.KeepsFiles ((failing newer).effect x) :=
  fun d => (Disk.adds_makePath _ d).keepsFiles

/-- A build that ends well keeps files. -/
theorem keepsFiles_building (x : Command) :
    Disk.Change.Keeps Disk.KeepsFiles ((Usage.building newer).effect x) := by
  have hwrite : ∀ path, Disk.Change.Keeps Disk.KeepsFiles
      (Disk.single fun d => d.writeBytes path (stamp newer)) := by
    intro path d
    rw [Disk.run_single]
    cases hwrite : d.writeBytes path (stamp newer) with
    | error f => exact Disk.Frame.refl d
    | ok d₁ => exact fun _ => Disk.isFile_of_writeBytes hwrite
  exact Disk.Change.Keeps.bind (keepsFiles_failing x) fun _ => (hwrite _).bind fun _ => hwrite _

/-- A call for the newer edition, when the build loses no files. -/
theorem callsFor_newer {o : Outcome} (hw : w.outcomes = ahead o)
    (hkeeps : ∀ x, Disk.Change.Keeps Disk.KeepsFiles (o.effect x)) :
    sample.cache.CallsFor w newer := by
  refine ⟨fun printed hprinted => ?_, fun y hy => ?_, fun d y _ hy => ?_⟩
  · rw [World.nextOutcome, hw] at hprinted
    obtain rfl := Except.ok.inj hprinted
    decide +kernel
  · have hasking : (sample.cache.asking w).left = w.disk := by
      rw [asking, Process.left, World.next, World.nextOutcome, hw]
      rfl
    rw [hasking]
    exact hy
  · have hbuilding : (sample.cache.building w (sample.cache.editionFolder newer) d).outcome = o := by
      rw [building, hw]
      rfl
    refine hasBinaries_of_keepsFiles ?_ hy
    rw [Process.left, hbuilding]
    exact hkeeps _ d

/-- The build that fails does not count, the next one does, and a third call needs none. -/
theorem orderly_and_builds_once_newer : ∃ w₁, sample.cache.History failure [newer] w₁ ∧
    [newer].Nodup := by
  have hfailure : sample.cache.CallsFor failure newer :=
    callsFor_newer (by simp only [failure]) keepsFiles_failing
  have hretried : sample.cache.CallsFor retried newer :=
    callsFor_newer (by simp only [retried]) keepsFiles_building
  have hserved : sample.cache.CallsFor served newer :=
    callsFor_newer (by simp only [served]) keepsFiles_building
  have hlacks : holdsAll ((sample.cache.ensure newer.framework ⟨.root, ["a"]⟩).perform failure).2.disk
      (filesIn (outputOf (sample.cache.editionFolder newer))) = .ok false := by decide +kernel
  have hfails : ¬sample.cache.Completes failure newer ⟨.root, ["a"]⟩ := by
    intro h
    have hhas := (h.not_hasBinaries hfailure).2
    rw [HasBinaries, hlacks] at hhas
    cases hhas
  have hbuilds : sample.cache.Completes retried newer ⟨.root, ["a"]⟩ :=
    hretried.completes (by decide +kernel) (by decide +kernel)
  have hcopies : ¬sample.cache.Completes served newer ⟨.root, ["b"]⟩ := by
    intro h
    have hhas := (hbuilds.not_hasBinaries hretried).2
    rw [← disk_served] at hhas
    exact (h.not_hasBinaries hserved).1 hhas
  have h₁ : sample.cache.History failure [] retried :=
    (History.start.call hfailure hfails).elsewhere fun _ hy => by rwa [disk_retried]
  have h₂ : sample.cache.History failure [newer] served :=
    (h₁.completing hretried hbuilds).elsewhere fun _ hy => by rwa [disk_served]
  have h₃ := h₂.call hserved hcopies
  exact ⟨_, h₃, (orderly_and_builds_once sample.cache).2 _ _ _ h₃⟩

end Sample

end LoaderCache

end JitInspect
