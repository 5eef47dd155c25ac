import Uplift.Config.Layers
import Uplift.Import
import Uplift.Rewrite.Tree
import Uplift.Versions.Unchecked
import Uplift.Proofs.Digits
import Uplift.Proofs.Entries
import Uplift.Proofs.Versions.Ascending
import Uplift.Proofs.Versions.Listing
import Uplift.Proofs.Journal
import Uplift.Proofs.Versions.Resolution
import Uplift.Proofs.Versions.Marker
import Uplift.Proofs.Plan
import Uplift.Proofs.Engine.Assembly
import Uplift.Proofs.Engine.Phases
import Uplift.Proofs.Engine.Execution
import Uplift.Proofs.Engine.Delivery
import Uplift.Proofs.Engine.SecondPass
import Uplift.Proofs.Engine.KeptVersions
import Uplift.Proofs.Versions.Declared
import Uplift.Proofs.Engine.Meaning
import Uplift.Proofs.Rewrite.Writable
import Uplift.Proofs.Family
import Uplift.Proofs.Versions.Overlong
import Uplift.Proofs.Engine.Escapes
import Uplift.Proofs.Entries.Distinct
import Uplift.Proofs.Config.FieldNames
import Uplift.Proofs.Rewrite.Promotion
import Uplift.Proofs.Rewrite.ContentField
import Uplift.Proofs.Rewrite.Walk
import Uplift.Proofs.Value
import Uplift.Proofs.Rewrite.Settled
import Uplift.Proofs.Family.Settled
import Uplift.Proofs.Engine.Settled
import Uplift.Proofs.Engine.Staging
import Uplift.Proofs.Entries.Match
import Uplift.Proofs.Value.Alike
import Uplift.Proofs.Journal.Agree
import Uplift.Proofs.Rewrite.Alike
import Uplift.Proofs.Family.ByName
import Uplift.Proofs.Versions.Alike
import Uplift.Proofs.Digest.Alike
import Uplift.Proofs.Journal.Warnings
import Uplift.Proofs.Engine.Alike
import Uplift.Proofs.Registry.History
import Uplift.Proofs.Digest.Decoding
import Uplift.Proofs.Digest.Identity
import Uplift.Proofs.Family.Service
import Uplift.Proofs.Engine.Service
import Uplift.Proofs.Config.Merge
import Uplift.Proofs.Value.Reach
import Uplift.Proofs.Config.Precedence
import Uplift.Proofs.Scalar.Writable
import Uplift.Proofs.Config.Conflict
import Uplift.Proofs.Config.Layers
import Uplift.Proofs.Config.Overrides
import Uplift.Proofs.Engine.Overrides
import Uplift.Proofs.Engine.Guard
import Uplift.Proofs.Engine.Chronicle
import Uplift.Proofs.Text.Trim
import Uplift.Proofs.Versions.Grammar
import Uplift.Proofs.Versions.Priority
import Uplift.Proofs.Versions.Written
import Uplift.Proofs.Plan.Partition
import Uplift.Proofs.Plan.Legacy
import Uplift.Proofs.Scalar.Order
import Uplift.Proofs.Config.Acceptance
import Uplift.Proofs.Digest.Ambiguity
import Uplift.Proofs.Scalar.Blank
import Uplift.Proofs.Value.Distinct
import Uplift.Proofs.Value.Leaves
import Uplift.Proofs.Rewrite.EveryObject
import Uplift.Proofs.Rewrite.Renaming
import Uplift.Proofs.Rewrite.Filling
import Uplift.Proofs.Family.Chain
import Uplift.Proofs.Value.Ways
import Uplift.Proofs.Rewrite.Reach
import Uplift.Proofs.Rewrite.Visits
import Uplift.Proofs.Rewrite.Changes
import Uplift.Proofs.Rewrite.Reachable
import Uplift.Proofs.Family.Tidying
import Uplift.Proofs.Journal.Parallel
import Uplift.Proofs.Family.Parallel
import Uplift.Proofs.Engine.Gap
import Uplift.Proofs.Family.Operations
import Uplift.Proofs.Engine.Identity
import Uplift.Proofs.Journal.Tally
import Uplift.Proofs.Family.Tally
import Uplift.Proofs.Engine.Tally
import Uplift.Proofs.Registry.Order
import Uplift.Proofs.Engine.Registration
import Uplift.Proofs.Rewrite.Renamed
import Uplift.Proofs.Rewrite.Filled
import Uplift.Proofs.Graph.Placed
import Uplift.Proofs.Graph.Turning
import Uplift.Proofs.Rewrite.Edits
import Uplift.Proofs.Graph.Editing
import Uplift.Proofs.Rewrite.InField
import Uplift.Proofs.Rewrite.TopDown
import Uplift.Proofs.Graph.Walking
import Uplift.Proofs.Graph.Promoting
import Uplift.Proofs.Graph.Treating
import Uplift.Proofs.Graph.Migrating
import Uplift.Proofs.Graph.Gap
