import JitInspect.Main
import JitInspect.Session.Schedule
import JitInspect.Supervision.Steps
import JitInspect.Proofs.CommandLine.Exits
import JitInspect.Proofs.FlowGraph.Files
import JitInspect.Proofs.FlowGraph.Written
import JitInspect.Proofs.Gate.RuntimePaths
import JitInspect.Proofs.Listing.ProgramOutput
import JitInspect.Proofs.Listing.Recondensing
import JitInspect.Proofs.Listing.Sizes
import JitInspect.Proofs.Loader.Builds
import JitInspect.Proofs.Project.Conditions
import JitInspect.Proofs.Project.OldFrameworks
import JitInspect.Proofs.Project.Resolution
import JitInspect.Proofs.Render.Leftovers
import JitInspect.Proofs.Run.Cleanup
import JitInspect.Proofs.Run.Handover
import JitInspect.Proofs.Run.Overlay
import JitInspect.Proofs.Session.GraphFolders
import JitInspect.Proofs.Session.Interleaving
import JitInspect.Proofs.Strategy.Items
import JitInspect.Proofs.Strategy.Placeholder
import JitInspect.Proofs.Supervision.Relay
import JitInspect.Proofs.FileTree.Globbing
import JitInspect.Proofs.Text.Order
import JitInspect.Proofs.FileTree.RealPath
import JitInspect.Proofs.Gate.Packs
import JitInspect.Proofs.Markup.ReadBack
import JitInspect.Proofs.Project.Loading
import JitInspect.Proofs.Symbol.TypeNames
import JitInspect.Proofs.Gate.FlowGraphs
import JitInspect.Proofs.Strategy.Listings
