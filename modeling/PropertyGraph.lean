import PropertyGraph.BindingRow
import PropertyGraph.Check.Expectation
import PropertyGraph.Check.Quoted
import PropertyGraph.Check.Scenario
import PropertyGraph.Check.TextPattern.Basic
import PropertyGraph.Check.TextPattern.Reader
import PropertyGraph.Check.Visible
import PropertyGraph.Entity.Id
import PropertyGraph.Entity.Node
import PropertyGraph.Entity.Properties
import PropertyGraph.Entity.Relationship
import PropertyGraph.Graph.Basic
import PropertyGraph.Graph.Change
import PropertyGraph.Graph.Error
import PropertyGraph.Graph.History
import PropertyGraph.Graph.IdSupply
import PropertyGraph.Graph.LabelCatalog
import PropertyGraph.Graph.Scan
import PropertyGraph.Index.Adjacency
import PropertyGraph.Index.Postings
import PropertyGraph.Index.PropertyIndex
import PropertyGraph.Index.Registry
import PropertyGraph.Match.Plan
import PropertyGraph.Match.Planning
import PropertyGraph.Match.Search
import PropertyGraph.Number.Binary64
import PropertyGraph.Number.Line
import PropertyGraph.Number.Shortest
import PropertyGraph.Ordered.Map
import PropertyGraph.Ordered.Set
import PropertyGraph.Ordered.Sort
import PropertyGraph.Pattern.Basic
import PropertyGraph.Pattern.Error
import PropertyGraph.Pattern.OfPaths
import PropertyGraph.Pattern.Path
import PropertyGraph.Predicate
import PropertyGraph.Session
import PropertyGraph.Statement.Error
import PropertyGraph.Statement.Execution
import PropertyGraph.Statement.MergeStream
import PropertyGraph.Statement.Statistics
import PropertyGraph.Value.Basic
import PropertyGraph.Value.Order
import PropertyGraph.Value.Text
import PropertyGraph.Proofs.Ordered.Map
import PropertyGraph.Proofs.Index.Postings
import PropertyGraph.Proofs.Ordered.Sort
import PropertyGraph.Proofs.Index.PropertyIndex
import PropertyGraph.Proofs.Entity.Node
import PropertyGraph.Proofs.Index.Registry
import PropertyGraph.Proofs.Index.Agreement
import PropertyGraph.Proofs.Index.Verification
import PropertyGraph.Proofs.Action
import PropertyGraph.Proofs.Graph.Writes
import PropertyGraph.Proofs.Graph.Storage
import PropertyGraph.Proofs.Graph.Issuance
import PropertyGraph.Proofs.Graph.LabelHistory
import PropertyGraph.Proofs.Graph.Labels
import PropertyGraph.Proofs.Graph.Edges
import PropertyGraph.Proofs.Graph.Cascade
import PropertyGraph.Proofs.Graph.Coherence
import PropertyGraph.Proofs.Graph.IndexHistory
import PropertyGraph.Proofs.Graph.Scan
import PropertyGraph.Proofs.Pattern.WellFormed
import PropertyGraph.Proofs.Match.Assignment
import PropertyGraph.Proofs.Match.Outcomes
import PropertyGraph.Proofs.Match.Search
import PropertyGraph.Proofs.Match.Enumeration
import PropertyGraph.Proofs.Match.Planning
import PropertyGraph.Proofs.Match.Schedule
import PropertyGraph.Proofs.Match.Components
import PropertyGraph.Proofs.Match.Limit
import PropertyGraph.Proofs.Match.WellPlanned
import PropertyGraph.Proofs.Match.Exactness
import PropertyGraph.Proofs.Statement.Create
import PropertyGraph.Proofs.Statement.Merge
import PropertyGraph.Proofs.Pattern.Tidy
import PropertyGraph.Proofs.BindingRow
import PropertyGraph.Proofs.Pattern.Columns
import PropertyGraph.Proofs.Pattern.Literals
import PropertyGraph.Proofs.Statement.Instance
import PropertyGraph.Proofs.Statement.RowShape
import PropertyGraph.Proofs.Session.Requests
import PropertyGraph.Proofs.Statement.Refusal
import PropertyGraph.Proofs.Statement.Repetition
import PropertyGraph.Proofs.Session.Idempotence
import PropertyGraph.Proofs.Session.NestedLoop
import PropertyGraph.Proofs.Graph.Attachment
import PropertyGraph.Proofs.Graph.Deletion
import PropertyGraph.Proofs.Graph.Integrity
import PropertyGraph.Proofs.Statement.Ledger
import PropertyGraph.Proofs.Graph.Twins
import PropertyGraph.Proofs.Statement.Parallel
import PropertyGraph.Proofs.Session.Acceleration
import PropertyGraph.Proofs.Pattern.Mentions
import PropertyGraph.Proofs.Pattern.Joinable
import PropertyGraph.Proofs.Pattern.Meaning
import PropertyGraph.Proofs.Session.Definition
import PropertyGraph.Proofs.Graph.Refusal
import PropertyGraph.Proofs.Graph.Retirement
import PropertyGraph.Proofs.Statement.Deleted
import PropertyGraph.Proofs.Statement.Tally
import PropertyGraph.Proofs.Session.Multiplicity
import PropertyGraph.Proofs.Number.Exact
import PropertyGraph.Proofs.Value.IndexOrder
import PropertyGraph.Proofs.Index.Filing
import PropertyGraph.Proofs.Statement.Removed
import PropertyGraph.Proofs.Match.Arena
