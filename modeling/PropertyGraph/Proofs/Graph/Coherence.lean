import PropertyGraph.Proofs.Graph.Edges
import PropertyGraph.Proofs.Graph.Indexes
import PropertyGraph.Proofs.Graph.Labels

/-!
# Coherent graphs

A graph is coherent if what is derived from its entities agrees with them: the
identities, the label index, the adjacency and the property indexes, with no
alarm raised. Every reachable graph is coherent.
-/

namespace PropertyGraph

namespace Graph

variable {g g' : Graph}

/-- Everything that the graph derives agrees with what it stores. -/
structure Coherent (g : Graph) : Prop where
  stored : g.Stored
  labelled : g.Labelled
  linked : g.Linked
  indexed : g.Indexed
  quiet : g.alarms = []

theorem Coherent.empty (config : GraphConfig) : (Graph.empty config).Coherent where
  stored := .empty config
  labelled := .empty config
  linked := .empty config
  indexed := .empty config
  quiet := rfl

theorem Coherent.write (coherent : g.Coherent) (step : Write g g') : g'.Coherent where
  stored := coherent.stored.write step
  labelled := coherent.labelled.write coherent.stored step
  linked := coherent.linked.write coherent.stored step
  indexed := coherent.indexed.write coherent.stored step
  quiet := (coherent.indexed.alarms_write coherent.stored step).trans coherent.quiet

/-- Every reachable graph is coherent. -/
theorem Reachable.coherent (reachable : g.Reachable) : g.Coherent :=
  reachable.of_writes .empty .write

end Graph

end PropertyGraph
