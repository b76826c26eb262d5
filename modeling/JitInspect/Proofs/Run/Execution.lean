import JitInspect.Proofs.FileTree.Writing
import JitInspect.Proofs.Run.Cancellation
import JitInspect.Proofs.Run.Errand

/-!
# Executing a plan

The last part of a run starts one process. Where that process writes to is settled beforehand: the
flow graphs go into a temporary file, and so does the listing of the compiler for native programs.
The end of the run can then be read off the process (`Job.Concludes`): whether it printed errors, and
whether the files that it was told to write are there (`Job.Succeeds`).
-/

namespace JitInspect

namespace Job

/-! ### The files of an execution -/

section Files

variable (ws : Workshop) (j : Job) (n : ℕ)

/-- The file for the flow graphs, when there were so many temporary files before. -/
def graphFile : Option Text :=
  if j.settings.flowGraphs then some (Action.temporaryPath ws.host (n + 1) []) else none

/-- How many temporary files there are behind the one for the flow graphs. -/
def behindGraphs : ℕ := if j.settings.flowGraphs then n + 1 else n

/-- The file for the listing of the compiler for native programs. -/
def nativeFile : Text := Action.temporaryPath ws.host (j.behindGraphs n + 1) ".asm"

/-- The file of properties for the compiler for native programs. -/
def nativeProperties : Text := Action.temporaryPath ws.host (j.behindGraphs n + 2) ".props"

/-- The variables of the execution. -/
def executionVariables : Variables :=
  Knobs.environment ws.host j.strategy j.info j.settings j.layout (j.graphFile ws n)

/-- What the plan of the execution is made from. -/
def executionInputs : PlanInputs :=
  if j.strategy.route = .nativePublish then
    j.planInputs
      (Knobs.set (j.executionVariables ws n) (ws.host.defaults.knobStart ++ "JitStdOutFile")
        (j.nativeFile ws n))
      (some (Path.ofText (j.nativeProperties ws n)))
  else j.planInputs (j.executionVariables ws n) none

/-- The command is the one of the plan. -/
def IsExecution (c : Command) : Prop :=
  ∃ plan, j.strategy.plan ws.host (j.executionInputs ws n) = .ok plan ∧ c = plan.command

end Files

/-- There is a dump of flow graphs that is not blank. -/
def HasDump (d : Disk) (file : Text) : Prop :=
  ∃ content, d.readBytes file = .ok content ∧
    Text.blank (Text.unifyNewlines (Text.ofUtf8 content)) = false

/-- The process has done what it was executed for. -/
structure Succeeds (ws : Workshop) (j : Job) (n : ℕ) (p : Process) : Prop where
  errors : p.printed.errors = []
  listing : j.strategy.route = .nativePublish → p.left.holdsFile (j.nativeFile ws n) = true
  graphs : ∀ file, j.graphFile ws n = some file → HasDump p.left (file ++ dumpExtension)

/-- How a run ends whose plan was executed by the process. -/
inductive Concludes (ws : Workshop) (j : Job) (n : ℕ) (p : Process) :
    Except Failure RunResult → Prop where
  | cancelled : Concludes ws j n p (.error Failure.atCheckpoint)
  | unforeseen (u : Unforeseen) (herrors : j.strategy.route ≠ .nativePublish → p.printed.errors = []) :
      Concludes ws j n p (.error (.unforeseen u))
  | errors (x : RunResult) (hroute : j.strategy.route ≠ .nativePublish)
      (herrors : p.printed.errors ≠ []) (hstatus : x.status = .failed)
      (houtput : x.output = p.printed.output ++ "\nERROR:\n" ++ p.printed.errors) :
      Concludes ws j n p (.ok x)
  | failed (o : Text) (hnot : ¬ j.Succeeds ws n p)
      (herrors : j.strategy.route ≠ .nativePublish → p.printed.errors = []) :
      Concludes ws j n p (.error (.tool o))
  | completed (x : RunResult) (hsucceeds : j.Succeeds ws n p) (hstatus : x.status = .completed) :
      Concludes ws j n p (.ok x)

end Job

namespace Action

variable {w w₁ : World}

/-- What a temporary file that could be created is called. No file is lost by it. -/
theorem temporaryFile_eq_ok {h : Host} {extension file : Text}
    (hrun : (temporaryFile h extension).perform w = (.ok file, w₁)) :
    file = temporaryPath h (w.temporaries + 1) extension ∧
      w₁.temporaries = w.temporaries + 1 ∧
      ∀ other, w.disk.isFile other = .ok true → w₁.disk.isFile other = .ok true := by
  rw [perform_temporaryFile] at hrun
  cases hcreate : w.disk.createFile (temporaryPath h (w.temporaries + 1) extension) with
  | error f =>
    rw [hcreate] at hrun
    cases hrun
  | ok d =>
    rw [hcreate] at hrun
    cases hrun
    exact ⟨rfl, rfl, fun other hother => (Disk.puts_of_createFile hcreate).isFile_of hother⟩

end Action

namespace Job

open JitInspect.Action

variable {ws : Workshop} {j : Job} {n : ℕ} {w w₁ : World}

/-! ### Executing the plan -/

section Executing

/-- Reading the listing changes nothing. -/
theorem perform_nativeListing_snd (file : Text) (printed : Printed) (w : World) :
    ((nativeListing file printed).perform w).2 = w := by
  unfold nativeListing
  by_cases herrors : (!printed.ok) = true
  · rw [if_pos herrors]
    rfl
  rw [if_neg herrors, perform_bind_of_ok (perform_get w)]
  by_cases hfile : (!w.disk.holdsFile file) = true
  · rw [if_pos hfile]
    rfl
  rw [if_neg hfile, perform_bind, perform_readText]
  cases w.disk.readBytes file <;> rfl

end Executing

/-! ### Presenting what the execution gave -/

section Presenting

/-- What is read as the dump: a dump that is not there is empty. -/
theorem perform_dumpText (file : Text) (w : World) :
    (dumpText file).perform w =
      (match w.disk.readBytes file with
        | .ok content => .ok (Text.unifyNewlines (Text.ofUtf8 content))
        | .error e => if e.isMissing then .ok [] else .error (Failure.ofFile e), w) := by
  unfold dumpText
  rw [perform_tryCatch, perform_readText]
  cases w.disk.readBytes file with
  | ok content => rfl
  | error e =>
    simp only [Except.map, Except.mapError, Failure.ofFile]
    by_cases hmissing : e.isMissing = true
    · simp only [hmissing, if_true]
      rfl
    · simp only [hmissing]
      rfl

/-- Condensing the listing always ends well and leaves the disk as it is. -/
theorem perform_shown (j : Job) (raw asIs : Text) (w : World) :
    ∃ t records, (j.shown raw asIs).perform w = (.ok t, { w with log := records }) := by
  unfold shown
  by_cases hcondenses : j.strategy.condenses = true
  · rw [if_pos hcondenses]
    obtain ⟨records, hlog⟩ := perform_logs
      (Listing.condense j.settings.minimalComments j.source raw).2 w
    exact ⟨_, records, perform_bind_of_ok hlog⟩
  · rw [if_neg hcondenses]
    exact ⟨asIs, w.log, rfl⟩

end Presenting

end Job

end JitInspect
