import PackageDepot.Backend.Fault
import PackageDepot.Backend.Git
import PackageDepot.Backend.Images
import PackageDepot.Clock.Context
import PackageDepot.Clock.Routine
import PackageDepot.Clock.Schedule
import PackageDepot.CommandLine.Arguments
import PackageDepot.CommandLine.Command
import PackageDepot.CommandLine.Failure
import PackageDepot.CommandLine.Render
import PackageDepot.Config
import PackageDepot.Decimal.Binary64
import PackageDepot.Depot
import PackageDepot.Dict
import PackageDepot.Error
import PackageDepot.File.Access
import PackageDepot.File.Path
import PackageDepot.File.Tree
import PackageDepot.Fixture
import PackageDepot.Function.Builtin
import PackageDepot.Function.Image
import PackageDepot.Json.Node
import PackageDepot.Json.Value
import PackageDepot.Logging
import PackageDepot.Main
import PackageDepot.Package.Key
import PackageDepot.Package.Kptfile
import PackageDepot.Package.Lineage
import PackageDepot.Package.Revision
import PackageDepot.Package.Task
import PackageDepot.Pipeline.Snapshot
import PackageDepot.Pipeline.Transform
import PackageDepot.Pipeline.Validation
import PackageDepot.Repository.Basic
import PackageDepot.Repository.Registry
import PackageDepot.Service.Basic
import PackageDepot.Service.Call
import PackageDepot.Service.Engine
import PackageDepot.Service.Index
import PackageDepot.Service.Pipeline
import PackageDepot.Service.Resolve
import PackageDepot.Store
import PackageDepot.Testing.CaseLog
import PackageDepot.Testing.Cleanup
import PackageDepot.Testing.Suite
import PackageDepot.Text.Blank
import PackageDepot.Text.Cut
import PackageDepot.Text.Digits
import PackageDepot.Text.Quoted
import PackageDepot.Toml.Document
import PackageDepot.Toml.Scalar
import PackageDepot.Toml.Value
import PackageDepot.Wire.Codec
import PackageDepot.Wire.Fault
import PackageDepot.Wire.Record
import PackageDepot.Wire.Source
import PackageDepot.Wire.Text
import PackageDepot.Yaml.Cursor
import PackageDepot.Yaml.Node
import PackageDepot.Yaml.Plain
import PackageDepot.Yaml.Render
import PackageDepot.Yaml.ScalarText
import PackageDepot.Yaml.Token
import PackageDepot.Yaml.Tree
import PackageDepot.Yaml.Value
import PackageDepot.Proofs.Routine.Protocol
import PackageDepot.Proofs.Routine.Ends
import PackageDepot.Proofs.Service.ReadOnly
import PackageDepot.Proofs.Store.Lookup
import PackageDepot.Proofs.Traffic.Basic
import PackageDepot.Proofs.Traffic.Phases
import PackageDepot.Proofs.Traffic.History
import PackageDepot.Proofs.Traffic.Leases
import PackageDepot.Proofs.Traffic.Effects
import PackageDepot.Proofs.Routine.Open
import PackageDepot.Proofs.Traffic.Commits
import PackageDepot.Proofs.Traffic.Reads
import PackageDepot.Proofs.Traffic.SingleWriter
import PackageDepot.Proofs.Traffic.Registration
import PackageDepot.Proofs.Traffic.Orphans
import PackageDepot.Proofs.Service.Runs
import PackageDepot.Proofs.Service.Reading
import PackageDepot.Proofs.Traffic.Writes
import PackageDepot.Proofs.Backend.Git
import PackageDepot.Proofs.Service.Pinning
import PackageDepot.Proofs.Clock.Context
import PackageDepot.Proofs.Routine.Keeps
import PackageDepot.Proofs.Routine.Solo
import PackageDepot.Proofs.Routine.Prompt
import PackageDepot.Proofs.Repository.Registry
import PackageDepot.Proofs.Pipeline.Validation
import PackageDepot.Proofs.Pipeline.Building
import PackageDepot.Proofs.Pipeline.Manifest
import PackageDepot.Proofs.Pipeline.Lineage
import PackageDepot.Proofs.Pipeline.Stages
import PackageDepot.Proofs.Pipeline.Undisturbed
import PackageDepot.Proofs.Pipeline.LeftFold
import PackageDepot.Proofs.Traffic.Built
import PackageDepot.Proofs.Traffic.Manifests
import PackageDepot.Proofs.Traffic.Lineage
import PackageDepot.Proofs.Traffic.DeadContexts
import PackageDepot.Proofs.Service.Answers
import PackageDepot.Proofs.Backend.Discovery
import PackageDepot.Proofs.Service.Parts
import PackageDepot.Proofs.Service.Agreement
import PackageDepot.Proofs.Service.Resolutions
import PackageDepot.Proofs.Traffic.Sequential
import PackageDepot.Proofs.Traffic.Course
import PackageDepot.Proofs.Service.Gathering
import PackageDepot.Proofs.Traffic.Creations
import PackageDepot.Proofs.Traffic.Listings
import PackageDepot.Proofs.Pipeline.Spared
import PackageDepot.Proofs.Pipeline.Origins
import PackageDepot.Proofs.Traffic.Locks
import PackageDepot.Proofs.Routine.Likewise
import PackageDepot.Proofs.Service.Likewise
import PackageDepot.Proofs.Service.Outlook
import PackageDepot.Proofs.Service.Veil
import PackageDepot.Proofs.Service.Isolation
import PackageDepot.Proofs.Traffic.Likewise
import PackageDepot.Proofs.Traffic.Veil
import PackageDepot.Proofs.Traffic.Apart
import PackageDepot.Proofs.Traffic.Independence
import PackageDepot.Proofs.Yaml.Outline
import PackageDepot.Proofs.Function.Fields
import PackageDepot.Proofs.Function.Paths
import PackageDepot.Proofs.Function.Aim
import PackageDepot.Proofs.Function.Evaluation
import PackageDepot.Proofs.Service.Prompt
import PackageDepot.Proofs.Traffic.Deletions
import PackageDepot.Proofs.Wire.Record
import PackageDepot.Proofs.Package.Kptfile
import PackageDepot.Proofs.Traffic.Addresses
import PackageDepot.Proofs.Pipeline.Cloning
import PackageDepot.Proofs.Pipeline.Failures
import PackageDepot.Proofs.Pipeline.Deadlines
import PackageDepot.Proofs.Pipeline.Untouched
import PackageDepot.Proofs.Clock.Lone
import PackageDepot.Proofs.Wire.Lawful
import PackageDepot.Proofs.Wire.RoundTrips
import PackageDepot.Proofs.File.Places
import PackageDepot.Proofs.CommandLine.Output
import PackageDepot.Proofs.File.Writes
import PackageDepot.Proofs.Backend.Packages
import PackageDepot.Proofs.Testing.Cleanup
import PackageDepot.Proofs.Traffic.Published
import PackageDepot.Proofs.CommandLine.ReadBack
import PackageDepot.Proofs.Package.Key
import PackageDepot.Proofs.Function.Idempotence
import PackageDepot.Proofs.Pipeline.RoundTrip
import PackageDepot.Proofs.Traffic.Bookkeeping
import PackageDepot.Proofs.Pipeline.Patches
import PackageDepot.Proofs.Testing.Suite
import PackageDepot.Clock.Instant
import PackageDepot.Pipeline.Deadline
import PackageDepot.Proofs.Clock.Instant
import PackageDepot.Proofs.Pipeline.Timeouts
import PackageDepot.Proofs.Clock.Family
import PackageDepot.Proofs.Function.Naming
