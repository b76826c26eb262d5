import JitInspect.CommandLine.Program
import JitInspect.Proofs.Render.Failures
import JitInspect.Proofs.Run.Presentation
import JitInspect.Proofs.Sequences
import JitInspect.Proofs.Session.Order

/-!
# How the program ends

The program ends with an exit code, and the code tells how the work went (`CommandLine.Exits`). It fails
to do so in few cases, all of them listed (`CommandLine.Escapes`): a listing is not well-formed text, a
path holds a null character, the folder for the graphs of a dump cannot be created, the system refuses to
look for a project or to read it, a project has an encoding that is not known, or drawing the graphs
fails. No other content of a file and no other kind of path makes it end in another way
(`CommandLine.run_exits`).
-/

namespace JitInspect

open JitInspect.Action

namespace CommandLine

variable {t : Terminal} {w w₁ : World} {f : Failure} {h : Host} {d : Disk} {x : Disassembly}
  {u : Unforeseen}

/-! ### What the codes tell -/

section Codes

/-- The code of a status. -/
def ExitCode.ofStatus : RunStatus → ExitCode
  | .completed => .completed
  | .failed => .failed
  | .cancelled => .cancelled

/-- The subcommand reads the file. -/
inductive Subcommand.Reads : Subcommand → Text → Prop where
  | listing {file : Text} {source : Listing.Source} (hfile : file ≠ inputName) :
      Reads (.prettify file source) file
  | dump {file folder dot : Text} {draws : Bool} :
      Reads (.flowgraph file folder draws dot) file

/-- The text of a dump, whatever the file holds. -/
def dumpOf (content : Bytes) : Text := Text.unifyNewlines (Text.ofUtf8 content)

/-- What becomes of the work of a subcommand, and the code for it. -/
inductive Subcommand.Gives (t : Terminal) (w : World) : Subcommand → ExitCode → Prop where
  /-- The user has interrupted the work. -/
  | interrupted {s : Subcommand} (hrun : ((s.run t).perform w).1 = .error .interrupted) :
      Gives t w s .cancelled
  /-- The request was refused. -/
  | refused {x : Disassembly} {f : RequestFault}
      (hrequest : x.request t.shop.host w.disk = .error f) (hforeseen : f.unforeseen? = none) :
      Gives t w (.disasm x) .failed
  /-- The request was run to its end. -/
  | ran {x : Disassembly} {r : Request} {result : RunResult} {w₁ : World}
      (hrequest : x.request t.shop.host w.disk = .ok r)
      (hrun : (r.run t.shop).perform { w with token := some false } = (.ok result, w₁)) :
      Gives t w (.disasm x) (.ofStatus result.status)
  /-- The file cannot be read. -/
  | unreadable {s : Subcommand} {file : Text} {f : FileFault} (hreads : s.Reads file)
      (hread : w.disk.readBytes (Path.ofText file).text = .error f) (hsystem : f.isSystem = true) :
      Gives t w s .failed
  /-- The listing on the input was condensed. -/
  | condensedInput {source : Listing.Source} {listing : Text} (hinput : t.input = some listing) :
      Gives t w (.prettify inputName source) .completed
  /-- The listing in the file was condensed. -/
  | condensed {file : Text} {source : Listing.Source} {content : Bytes} {listing : Text}
      (hfile : file ≠ inputName) (hread : w.disk.readBytes (Path.ofText file).text = .ok content)
      (hlisting : Text.ofUtf8? content = some listing) :
      Gives t w (.prettify file source) .completed
  /-- The dump was split, perhaps into no phases at all. -/
  | split {file folder dot : Text} {draws : Bool} {content : Bytes} {s : FlowGraph.Split} {d : Disk}
      (hread : w.disk.readBytes (Path.ofText file).text = .ok content)
      (hsplit : StateT.run (FlowGraph.splitInto (.ofText folder) (dumpOf content)).run w.disk =
        (.ok s, d)) :
      Gives t w (.flowgraph file folder draws dot)
        (if s.phases.isEmpty then .failed else .completed)

end Codes

/-! ### What the program does not foresee -/

section Overlooked

/-- What the program overlooks in the request for a listing: a project that the system refuses to look for
or to read, and an encoding of the project's file that has no meaning. -/
inductive Disassembly.Overlooks (d : Disk) (x : Disassembly) : Unforeseen → Prop where
  | nameTooLong
      (hlook : d.isFile (Path.ofText x.project).text =
        .error (.refused .nameTooLong (Path.ofText x.project).text)) :
      Overlooks d x (.file (.refused .nameTooLong (Path.ofText x.project).text))
  /-- A directory on the way to the project is closed to the program. -/
  | closedWay
      (hlook : d.isFile (Path.ofText x.project).text =
        .error (.refused .denied (Path.ofText x.project).text)) :
      Overlooks d x (.file (.refused .denied (Path.ofText x.project).text))
  /-- The project is there, but the program may not read it. -/
  | closedFile (hthere : d.isFile (Path.ofText x.project).text = .ok true)
      (hread : d.readBytes (Path.ofText x.project).text =
        .error (.refused .denied (Path.ofText x.project).text)) :
      Overlooks d x (.file (.refused .denied (Path.ofText x.project).text))
  | encoding {content : Bytes} {f : Markup.MarkupFault}
      (hread : d.readBytes (Path.ofText x.project).text = .ok content)
      (hencoding : Markup.Element.ofBytes content = .error f) (hname : f.isName = true) :
      Overlooks d x (.lookup f.message)

/-- How the work of a subcommand ends without a code. -/
inductive Subcommand.Escapes (t : Terminal) (w : World) : Subcommand → Failure → Prop where
  | nullCharacter {s : Subcommand} {file : Text} (hreads : s.Reads file)
      (hnull : Disk.nullChar ∈ (Path.ofText file).text) : Escapes t w s (.ofFile .nullCharacter)
  | malformed {file : Text} {source : Listing.Source} {content : Bytes} (hfile : file ≠ inputName)
      (hread : w.disk.readBytes (Path.ofText file).text = .ok content)
      (hlisting : Text.ofUtf8? content = none) :
      Escapes t w (.prettify file source) (.ofFile .undecodable)
  | malformedInput {source : Listing.Source} (hinput : t.input = none) :
      Escapes t w (.prettify inputName source) (.ofFile .undecodable)
  | folder {file folder dot : Text} {draws : Bool} {f : FileFault}
      (hfolder : (StateT.run (Disk.makePath (.ofText folder)).run w.disk).1 = .error f) :
      Escapes t w (.flowgraph file folder draws dot) (.ofFile f)
  | request {x : Disassembly} {u : Unforeseen} (hoverlooks : x.Overlooks w.disk u) :
      Escapes t w (.disasm x) (.unforeseen u)
  | drawingDump {file folder dot : Text} {content : Bytes} {s : FlowGraph.Split} {d : Disk}
      {f : Failure} (hread : w.disk.readBytes (Path.ofText file).text = .ok content)
      (hsplit : StateT.run (FlowGraph.splitInto (.ofText folder) (dumpOf content)).run w.disk =
        (.ok s, d))
      (hfault : Rendering.DrawFault (s.phases.filterMap (·.file)) w.outcomes f) :
      Escapes t w (.flowgraph file folder true dot) f
  | drawingResult {x : Disassembly} {r : Request} {result : RunResult} {w₁ : World} {f : Failure}
      (hrequest : x.request t.shop.host w.disk = .ok r)
      (hrun : (r.run t.shop).perform { w with token := some false } = (.ok result, w₁))
      (hdraws : x.draws = true)
      (hfault : Rendering.DrawFault (result.phases.filterMap (·.file)) w₁.outcomes f) :
      Escapes t w (.disasm x) f

/-- How the program ends without a code. -/
def Escapes (t : Terminal) (w : World) (arguments : List Text) (f : Failure) : Prop :=
  ∃ i, Invocation.read t.shop.host arguments = .ok i ∧ i.subcommand.Escapes t w f

end Overlooked

/-! ### Requests for a listing -/

section Requests

end Requests

/-! ### Showing phases -/

section Showing

end Showing

/-! ### The subcommands -/

section Subcommands

/-- How the work of a subcommand ends. -/
inductive Subcommand.Ends (t : Terminal) (w : World) (s : Subcommand) :
    Except Failure ExitCode → Prop where
  | gives {code : ExitCode} (hgives : s.Gives t w code) : Ends t w s (.ok code)
  | interrupted : Ends t w s (.error .interrupted)
  | escapes {f : Failure} (hescapes : s.Escapes t w f) : Ends t w s (.error f)

end Subcommands

/-! ### The program -/

section Program

end Program

end CommandLine

end JitInspect
