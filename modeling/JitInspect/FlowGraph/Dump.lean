import JitInspect.FileTree.Disk
import JitInspect.FlowGraph.Phase
import JitInspect.Log

/-!
# Splitting a dump

A dump is split at the header of its graphs. Every graph that names a phase is numbered and may be
stored; one that names none, or cannot be stored, is passed over with a warning and takes no number.
-/

namespace JitInspect

namespace FlowGraph

/-- The pieces of a dump between the headers. -/
def fragments (dump : Text) : List Text := Text.splitOn header dump

/-- The graph of a piece, with its header. -/
def graphOf (fragment : Text) : Text := header ++ "\n" ++ fragment

/-- The warning for a graph that names no phase. -/
def LabelFault.warning (f : LabelFault) : LogRecord :=
  ⟨.warning, "Skipping flow graph fragment: " ++ f.message⟩

/-- What became of the pieces that are not blank, in order: a phase or a warning. `ordinal` and
`absolute` count the phases so far in the tier and in the dump, and `store` keeps a phase. -/
def number {σ : Type} (store : Phase → StateM σ (Except LogRecord Phase)) :
    (ordinal absolute : Nat) → List Text → StateM σ (List (Except LogRecord Phase))
  | _, _, [] => pure []
  | ordinal, absolute, f :: fs =>
    if Text.blank f then number store ordinal absolute fs
    else
      match phaseName f with
      | .error e => do
        let rest ← number store ordinal absolute fs
        pure (.error e.warning :: rest)
      | .ok name => do
        let before := if name = initialPhase then 0 else ordinal
        match ← store ⟨before + 1, absolute + 1, fileNameOf name, graphOf f, none, none⟩ with
        | .ok p => do
          let rest ← number store (before + 1) (absolute + 1) fs
          pure (.ok p :: rest)
        | .error w => do
          let rest ← number store before absolute fs
          pure (.error w :: rest)

/-- The phases of a dump that was split, and the warnings. -/
structure Split where
  phases : List Phase
  warnings : List LogRecord

/-- Sorts out the phases and the warnings. -/
def Split.ofResults (rs : List (Except LogRecord Phase)) : Split where
  phases := rs.filterMap fun r => r.toOption
  warnings := rs.filterMap fun r => match r with
    | .ok _ => none
    | .error w => some w

/-- The phases of a dump, kept in memory only. -/
def split (dump : Text) : Split :=
  Split.ofResults ((number (σ := Unit) (fun p => pure (.ok p)) 0 0 (fragments dump)).run ()).1

/-- Where a phase is stored in a directory. -/
def Phase.pathIn (dir : Path) (p : Phase) : Path := dir.child (p.identifier ++ ".dot")

/-- Writes a phase's graph into a directory. -/
def storeIn (dir : Path) (p : Phase) : StateM Disk (Except LogRecord Phase) := fun d =>
  let path := (p.pathIn dir).text
  match d.writeBytes path (Text.toUtf8 p.graph) with
  | .ok d' => (.ok { p with file := some path }, d')
  | .error _ => (.error ⟨.warning, "Failed to write flow graph " ++ path⟩, d)

/-- The phases of a dump, each written into the directory, which is created when it is missing. -/
def splitInto (dir : Path) (dump : Text) : Disk.Change Split := do
  Disk.makePath dir
  let rs ← (number (storeIn dir) 0 0 (fragments dump) : StateM Disk _)
  pure (Split.ofResults rs)

end FlowGraph

end JitInspect
