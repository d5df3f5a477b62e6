import HostRoster.KeyMap
import HostRoster.Json.Value
import HostRoster.Json.Printer
import HostRoster.Json.Reader
import HostRoster.Json.Decoder
import HostRoster.Host
import HostRoster.Error
import HostRoster.Bucket
import HostRoster.Correlation
import HostRoster.Diff
import HostRoster.Guardrails
import HostRoster.Plan
import HostRoster.Text.Blank
import HostRoster.Calendar
import HostRoster.Instant
import HostRoster.Instant.Reader
import HostRoster.Host.Json
import HostRoster.Plan.Json
import HostRoster.Digest.Sha256
import HostRoster.Config.Fingerprint
import HostRoster.Guardrails.Json
import HostRoster.Service.Wire
import HostRoster.Service.Status
import HostRoster.Program
import HostRoster.Program.Limit
import HostRoster.Program.Server
import HostRoster.Remote
import HostRoster.Execution
import HostRoster.Reconciliation
import HostRoster.Cluster
import HostRoster.Text.Width
import HostRoster.Report.Table
import HostRoster.Reconciliation.Report
import HostRoster.Report.Message
import HostRoster.Report.Plan
import HostRoster.Report.Run
import HostRoster.Yaml.Cursor
import HostRoster.Yaml.Scalar
import HostRoster.Yaml.Token
import HostRoster.Yaml.Token.Reader
import HostRoster.Yaml.Node
import HostRoster.Yaml.Node.Reader
import HostRoster.Yaml.Decoder
import HostRoster.Config
import HostRoster.Config.Reader
import HostRoster.Config.Url
import HostRoster.Config.Check
import HostRoster.Report.Check
import HostRoster.State
import HostRoster.Instant.Json
import HostRoster.State.Json
import HostRoster.Lock
import HostRoster.Lock.Json
import HostRoster.Report.State
import HostRoster.Path
import HostRoster.FileSystem
import HostRoster.ObjectStorage
import HostRoster.Network
import HostRoster.Machine
import HostRoster.World
import HostRoster.Store
import HostRoster.Store.Files
import HostRoster.Store.Objects
import HostRoster.Store.Backend
import HostRoster.Errand
import HostRoster.Json.Lenient
import HostRoster.Error.Json
import HostRoster.Cluster.Json
import HostRoster.Correlation.Json
import HostRoster.Config.Json
import HostRoster.Text.Utf8
import HostRoster.Service.Client
import HostRoster.Report.Status
import HostRoster.Config.Dotenv
import HostRoster.Config.Source
import HostRoster.Command
import HostRoster.Command.Arguments
import HostRoster.Command.Init
import HostRoster.Command.Context
import HostRoster.Command.Run
import HostRoster.Main
import HostRoster.Proofs.Accounting
import HostRoster.Proofs.Adoption
import HostRoster.Proofs.Assignment
import HostRoster.Proofs.Buckets
import HostRoster.Proofs.Calls
import HostRoster.Proofs.Convergence
import HostRoster.Proofs.Correlation
import HostRoster.Proofs.Creation
import HostRoster.Proofs.Dealing
import HostRoster.Proofs.Diff
import HostRoster.Proofs.Exchange
import HostRoster.Proofs.Execution
import HostRoster.Proofs.Faithful
import HostRoster.Proofs.Fingerprints
import HostRoster.Proofs.Folding
import HostRoster.Proofs.Idempotence
import HostRoster.Proofs.InMemory
import HostRoster.Proofs.Instants
import HostRoster.Proofs.JsonText
import HostRoster.Proofs.KeyMap
import HostRoster.Proofs.Locks
import HostRoster.Proofs.Naming
import HostRoster.Proofs.Preparation
import HostRoster.Proofs.Recovery
import HostRoster.Proofs.Repair
import HostRoster.Proofs.Redealing
import HostRoster.Proofs.Retention
import HostRoster.Proofs.Shelf
import HostRoster.Proofs.Operations
import HostRoster.Proofs.Ownership
import HostRoster.Proofs.LockRace
import HostRoster.Proofs.SerialRuns
import HostRoster.Proofs.Paths
import HostRoster.Proofs.Drafts
import HostRoster.Proofs.Bounds
import HostRoster.Proofs.Enactment
import HostRoster.Proofs.Capacity
import HostRoster.Proofs.Transactions
import HostRoster.Proofs.Vetoes
import HostRoster.Proofs.Protection
import HostRoster.Proofs.ListingOrder
import HostRoster.Proofs.Placement
import HostRoster.Proofs.Destruction
import HostRoster.Proofs.StoredDocuments
import HostRoster.Proofs.Backends
import HostRoster.Proofs.Deadlines
import HostRoster.Proofs.Listings
import HostRoster.Proofs.Watching
import HostRoster.Proofs.Previews
import HostRoster.Proofs.StatusViews
import HostRoster.Proofs.Searching
import HostRoster.Proofs.Waiting
import HostRoster.Proofs.Bookkeeping
import HostRoster.Proofs.Stacks
import HostRoster.Proofs.HostKeys
import HostRoster.Proofs.Entries
import HostRoster.Proofs.Starting
