import JitInspect.Settings.Basic
import JitInspect.Symbol.Selector
import JitInspect.Text.ShellWords

/-!
# Strategies

A strategy is the way in which a run gets a listing: through the loader, by running the program
itself, or by one of the compilers that generate code ahead of time. The options decide which one is
taken.
-/

namespace JitInspect

/-- What the generator prints. -/
inductive ListingKind where
  | disasm
  | dump
  | inlinees
  deriving DecidableEq, Repr

namespace ListingKind

/-- The generator's knob that asks for the listing. -/
def knob : ListingKind → Text
  | disasm => "JitDisasm"
  | dump => "JitDump"
  | inlinees => "JitPrintInlinedMethods"

/-- All kinds. -/
def all : List ListingKind := [disasm, dump, inlinees]

/-- The kind with the given knob. -/
def ofKnob? (t : Text) : Option ListingKind := all.find? fun k => k.knob = t

/-- The kind that the options ask for. -/
def ofSettings (s : Settings) : ListingKind :=
  if s.dump then dump else if s.inlinees then inlinees else disasm

end ListingKind

/-- How the code is generated, with what only that way needs. -/
inductive Route where
  | disasm
  | dump
  | inlinees
  /-- The loader with another generator beside the stock one. -/
  | altJit (file : Text)
  /-- The program itself, with what to list in place of the symbol. -/
  | runApp (listed : Option Text)
  | crossgen (args : List Text)
  /-- The compiler for native programs of a local runtime, with its arguments as typed. -/
  | localIlc (args : Text)
  /-- A native program by the stock toolchain. -/
  | nativePublish
  deriving DecidableEq, Repr

/-- The way in which a run gets a listing. -/
structure Strategy where
  route : Route
  listing : ListingKind
  deriving DecidableEq, Repr

namespace Route

/-- The word for the route. -/
def key : Route → Text
  | disasm => "jit-disasm"
  | dump => "jit-dump"
  | inlinees => "print-inlinees"
  | altJit _ => "alt-jit"
  | runApp _ => "run-app"
  | crossgen _ => "crossgen2"
  | localIlc _ => "nativeaot-custom"
  | nativePublish => "nativeaot-default"

/-- The listing that the route prints when none is named. -/
def defaultListing : Route → ListingKind
  | dump => .dump
  | inlinees => .inlinees
  | _ => .disasm

/-- Whether a build precedes the execution. -/
def needsBuild (r : Route) : Bool := r ≠ nativePublish

/-- Whether the loader is executed. -/
def usesLoader : Route → Bool
  | disasm | dump | inlinees | altJit _ => true
  | runApp _ | crossgen _ | localIlc _ | nativePublish => false

end Route

/-- The arguments typed for a compiler cannot be split into words. -/
structure ArgumentFault where
  fault : ShellWords.Fault
  deriving DecidableEq, Repr

/-- What is said of arguments that cannot be split. -/
def ArgumentFault.message (f : ArgumentFault) : Text :=
  "Malformed crossgen2/ilc arguments: " ++ f.fault.message

namespace Strategy

/-- The word for the strategy. -/
def key (s : Strategy) : Text := s.route.key

/-- Whether the output is condensed. -/
def condenses (s : Strategy) : Bool := s.listing = .disasm

/-- The rules by which arguments are split. -/
def wordRules (h : Host) : ShellWords.Rules := if h.os = .windows then .windows else .posix

/-- Arguments as typed, with a space for each line break. -/
def onOneLine (t : Text) : Text := Text.replace "\n" " " (Text.replace "\r\n" " " t)

/-- Splits the arguments that a user typed for a compiler. -/
def splitArgs (h : Host) (t : Text) : Except ArgumentFault (List Text) :=
  (ShellWords.split (wordRules h) (onOneLine t)).mapError ArgumentFault.mk

/-- What to list in place of the symbol, if anything. -/
def listedInstead (s : Settings) : Option Text :=
  let t := Text.strip (s.listingOverride.getD [])
  if t.isEmpty then none else some t

/-- The strategy that the options ask for. A compiler ahead of time comes first, then running the
program, then another generator, then the kind of listing. -/
def select (h : Host) (s : Settings) : Except ArgumentFault Strategy :=
  let listing := ListingKind.ofSettings s
  match s.compiler with
  | .crossgen => (splitArgs h s.crossgenArgs).map fun args => ⟨.crossgen args, listing⟩
  | .nativeAot =>
    if s.customRuntime then (splitArgs h s.ilcArgs).map fun _ => ⟨.localIlc s.ilcArgs, listing⟩
    else .ok ⟨.nativePublish, listing⟩
  | .jit =>
    if s.runApp then .ok ⟨.runApp (listedInstead s), listing⟩
    else if s.usesAltJit then .ok ⟨.altJit (Text.strip s.customJit), listing⟩
    else
      match listing with
      | .dump => .ok ⟨.dump, .dump⟩
      | .inlinees => .ok ⟨.inlinees, .inlinees⟩
      | .disasm => .ok ⟨.disasm, .disasm⟩

end Strategy

end JitInspect
