import RecordGraph.Config.Layers
import RecordGraph.Preload.Run
import RecordGraph.Proofs.Schema.Direct
import RecordGraph.Record.IndexPath
import RecordGraph.Store.Basic
import RecordGraph.Store.Script
import RecordGraph.Proofs.Schema.Building
import RecordGraph.Proofs.Schema.Agreement
import RecordGraph.Proofs.Schema.History
import RecordGraph.Proofs.Walk.Reaching
import RecordGraph.Proofs.Record.Conformity
import RecordGraph.Proofs.Preload.Attaching
import RecordGraph.Proofs.Preload.Hydration
import RecordGraph.Proofs.Preload.Loading
import RecordGraph.Proofs.Preload.Planning
import RecordGraph.Proofs.Preload.Running
import RecordGraph.Proofs.Store.Finding
import RecordGraph.Proofs.Store.Reading
import RecordGraph.Proofs.Store.Conditions
import RecordGraph.Proofs.Preload.Rows
import RecordGraph.Proofs.Preload.Statements
import RecordGraph.Proofs.Preload.Joining
import RecordGraph.Proofs.Preload.Answering
import RecordGraph.Proofs.Preload.Growing
import RecordGraph.Proofs.Preload.Stepping
import RecordGraph.Proofs.Preload.Refinement
import RecordGraph.Proofs.Schema.Closure
import RecordGraph.Proofs.Preload.Fetching
import RecordGraph.Proofs.Preload.Repeating
import RecordGraph.Proofs.Preload.Batching
import RecordGraph.Proofs.Preload.Composing
import RecordGraph.Proofs.Preload.Needed
import RecordGraph.Proofs.Record.Besides
import RecordGraph.Proofs.Preload.Options
import RecordGraph.Proofs.Schema.KeyTypes
import RecordGraph.Proofs.Schema.WellFormed
import RecordGraph.Proofs.Tag.Grammar
import RecordGraph.Proofs.Schema.Inference
import RecordGraph.Proofs.Preload.Restoring
import RecordGraph.Proofs.Preload.Matching
import RecordGraph.Proofs.Value.Zeros
import RecordGraph.Proofs.Record.Lens
import RecordGraph.Proofs.Preload.Halting
import RecordGraph.Proofs.Tag.Merging
import RecordGraph.Proofs.Value.Wrapping
import RecordGraph.Proofs.Walk.Failing
import RecordGraph.Proofs.Preload.Selecting
import RecordGraph.Proofs.Walk.Addresses
import RecordGraph.Proofs.Walk.Values
import RecordGraph.Proofs.Walk.Pushing
import RecordGraph.Proofs.Schema.Columns
import RecordGraph.Proofs.Preload.Listing
import RecordGraph.Proofs.Context.Families
import RecordGraph.Proofs.Row.Lookup
import RecordGraph.Proofs.Schema.Annotating
import RecordGraph.Proofs.Schema.Ending
