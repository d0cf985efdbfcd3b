import HostBindings.Keyed
import HostBindings.Text.Blank
import HostBindings.Text.Case
import HostBindings.Text.Quoted
import HostBindings.Text.Occurrence
import HostBindings.Json.Reader
import HostBindings.Json.Printer
import HostBindings.Fault
import HostBindings.Log
import HostBindings.Proxy.ObjectName
import HostBindings.Proxy.FunctionName
import HostBindings.Registration.Description
import HostBindings.Definitions.Modules
import HostBindings.Locale.Code
import HostBindings.Locale.CanonicalTree
import HostBindings.Locale.Merge
import HostBindings.Locale.Completeness
import HostBindings.Locale.Collector
import HostBindings.Locale.Synchronization
import HostBindings.Locale.Interleaving
import HostBindings.Elaboration.Run
import HostBindings.Excel.Emitter
import HostBindings.Workflow.Command
import HostBindings.Main
import HostBindings.Proofs.Keyed.Lookup
import HostBindings.Proofs.Fault.Sequences
import HostBindings.Proofs.Json.Paths
import HostBindings.Proofs.Proxy.Identity
import HostBindings.Proofs.Registration.Registered
import HostBindings.Proofs.Merge.Level
import HostBindings.Proofs.Merge.Paths
import HostBindings.Proofs.Catalog.Required
import HostBindings.Proofs.Catalog.Synchronized
import HostBindings.Proofs.CanonicalTree.Levels
import HostBindings.Proofs.CanonicalTree.Functions
import HostBindings.Proofs.CanonicalTree.Entries
import HostBindings.Proofs.CanonicalTree.Values
import HostBindings.Proofs.Elaboration.Stages
import HostBindings.Proofs.Elaboration.Endings
import HostBindings.Proofs.Elaboration.Refinement
import HostBindings.Proofs.Elaboration.Replay
import HostBindings.Proofs.Elaboration.Protocol
import HostBindings.Proofs.Elaboration.Obstacles
import HostBindings.Proofs.Collector.Collected
import HostBindings.Proofs.Collector.Agreement
import HostBindings.Proofs.Collector.Documented
import HostBindings.Proofs.Catalog.Complete
import HostBindings.Proofs.Registration.Climbs
import HostBindings.Proofs.Registration.Lineage
import HostBindings.Proofs.Registration.Parameters
import HostBindings.Proofs.Registration.Methods
import HostBindings.Proofs.Registration.Flattening
import HostBindings.Proofs.Registration.Waiting
import HostBindings.Proofs.Registration.Substitution
import HostBindings.Proofs.Registration.Leftovers
import HostBindings.Proofs.Disk.Contents
import HostBindings.Proofs.Synchronization.Plans
import HostBindings.Proofs.Synchronization.Schedules
import HostBindings.Proofs.Synchronization.Outcomes
import HostBindings.Proofs.Disk.Joined
import HostBindings.Proofs.Json.Numerals
import HostBindings.Proofs.Json.Shapes
import HostBindings.Proofs.Json.Quoted
import HostBindings.Proofs.Json.Tokens
import HostBindings.Proofs.Json.RoundTrip
import HostBindings.Proofs.Json.Readable
import HostBindings.Proofs.Merge.FixedPoint
import HostBindings.Proofs.CanonicalTree.Shape
import HostBindings.Proofs.Synchronization.Twice
import HostBindings.Proofs.Elaboration.Placement
import HostBindings.Proofs.Excel.Calls
import HostBindings.Proofs.Excel.Endings
import HostBindings.Proofs.Excel.InStep
import HostBindings.Proofs.Excel.Blocks
import HostBindings.Proofs.Registration.Ordered
import HostBindings.Proofs.Excel.Trailing
import HostBindings.Proofs.Elaboration.Emissions
import HostBindings.Proofs.Excel.Following
import HostBindings.Proofs.Excel.Gathered
import HostBindings.Proofs.Excel.Names
import HostBindings.Proofs.Disk.Written
import HostBindings.Proofs.Disk.Kept
import HostBindings.Proofs.Synchronization.Rediscovery
import HostBindings.Proofs.Synchronization.Resynchronized
import HostBindings.Proofs.Elaboration.Simulation
import HostBindings.Proofs.Excel.Outputs
import HostBindings.Proofs.Workflow.Endings
import HostBindings.Proofs.Workflow.Regeneration
import HostBindings.Proofs.Workflow.Untouched
import HostBindings.Proofs.Elaboration.Duplicates
import HostBindings.Proofs.Elaboration.Dangling
import HostBindings.Proofs.Elaboration.Localized
import HostBindings.Proofs.Catalog.Texts
import HostBindings.Proofs.Excel.ParameterNames
import HostBindings.Proofs.Excel.Texts
import HostBindings.Proofs.Json.Walks
import HostBindings.Proofs.Merge.Conflicts
import HostBindings.Proofs.Merge.Changes
import HostBindings.Proofs.Merge.Reports
import HostBindings.Proofs.Elaboration.Reuse
import HostBindings.Proofs.Locale.Codes
import HostBindings.Proofs.Locale.Order
import HostBindings.Proofs.Catalog.Policies
import HostBindings.Proofs.Catalog.Regions
import HostBindings.Proofs.Json.Rearranged
import HostBindings.Proofs.CanonicalTree.Refusals
import HostBindings.Proofs.CanonicalTree.Places
import HostBindings.Proofs.CanonicalTree.OrderIndependence
import HostBindings.Proofs.CanonicalTree.Arrival
import HostBindings.Proofs.CanonicalTree.Siblings
import HostBindings.Proofs.Text.Bytes
import HostBindings.Proofs.Text.Occurrence
import HostBindings.Proofs.Synchronization.Discovery
import HostBindings.Proofs.Locale.ByteOrder
import HostBindings.Proofs.Proxy.FunctionNames
import HostBindings.Proofs.Proxy.ObjectNames
import HostBindings.Proofs.Proxy.Chains
import HostBindings.Proofs.Json.Leaves
import HostBindings.Proofs.Locale.Gaps
