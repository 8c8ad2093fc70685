import FileRoutes.Main
import FileRoutes.Route.Table
import FileRoutes.Proofs.Text.Utf8
import FileRoutes.Proofs.Text.Percent
import FileRoutes.Proofs.Pattern.Regex
import FileRoutes.Proofs.Pattern.Matching
import FileRoutes.Proofs.Pattern.RoundTrip
import FileRoutes.Proofs.Disk.Tree
import FileRoutes.Proofs.Path.Descend
import FileRoutes.Proofs.Disk.Resolve
import FileRoutes.Proofs.Scan.Walk
import FileRoutes.Proofs.Scan.Visited
import FileRoutes.Proofs.Scan.Collect
import FileRoutes.Proofs.Scan.Pages
import FileRoutes.Proofs.Disk.View
import FileRoutes.Proofs.Route.Manifest
import FileRoutes.Proofs.Route.Order
import FileRoutes.Proofs.Scan.Relisted
import FileRoutes.Proofs.Route.Enumeration
import FileRoutes.Proofs.Pattern.Overlap
import FileRoutes.Proofs.Route.Precedence
import FileRoutes.Proofs.Text.Quoted
import FileRoutes.Proofs.Text.Reader
import FileRoutes.Proofs.Artifact.Types
import FileRoutes.Proofs.Artifact.Routes
import FileRoutes.Proofs.Artifact.Faithful
import FileRoutes.Proofs.Disk.Growth
import FileRoutes.Proofs.Disk.Put
import FileRoutes.Proofs.Disk.Make
import FileRoutes.Proofs.Disk.Output
import FileRoutes.Proofs.Generation.Outcome
import FileRoutes.Proofs.Generation.Failure
import FileRoutes.Proofs.Scan.Unnoticed
import FileRoutes.Proofs.Generation.Success
import FileRoutes.Proofs.Route.Shadowing
import FileRoutes.Proofs.Path.Components
import FileRoutes.Proofs.Scan.Directories
import FileRoutes.Proofs.Watch.Filter
import FileRoutes.Proofs.Disk.Locks
import FileRoutes.Proofs.Scan.Locks
import FileRoutes.Proofs.Pattern.Segments
import FileRoutes.Proofs.Pattern.Values
import FileRoutes.Proofs.Pattern.Positions
import FileRoutes.Proofs.Pattern.Extraction
import FileRoutes.Proofs.Pattern.Filling
import FileRoutes.Proofs.Pattern.Rebuilding
import FileRoutes.Proofs.Pattern.Outcomes
import FileRoutes.Proofs.Route.Lookup
import FileRoutes.Proofs.Watch.Gates
import FileRoutes.Proofs.Disk.Create
import FileRoutes.Proofs.Generation.Spared
import FileRoutes.Proofs.Command.Scaffold
import FileRoutes.Proofs.Command.Session
import FileRoutes.Proofs.Command.Settled
import FileRoutes.Proofs.Pattern.Recovery
import FileRoutes.Proofs.Route.Partition
import FileRoutes.Proofs.Generation.Payload
import FileRoutes.Proofs.Page.Declaration
import FileRoutes.Proofs.Watch.Position
import FileRoutes.Proofs.Glob.Names
import FileRoutes.Proofs.Glob.Reading
import FileRoutes.Proofs.Glob.Exclusion
import FileRoutes.Proofs.Toml.Keys
import FileRoutes.Proofs.Config.Reading
import FileRoutes.Proofs.Command.Configuration
