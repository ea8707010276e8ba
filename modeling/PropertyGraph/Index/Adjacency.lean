import PropertyGraph.Entity.Id
import PropertyGraph.Index.Postings
import PropertyGraph.Ordered.Sort

/-!
# Adjacency

Which relationships leave and which enter each node, filed by node and
relationship type. Every relationship is posted twice, under its source on the
leaving side and under its target on the entering side.
-/

namespace PropertyGraph

open Std

/-- A node together with a relationship type. -/
structure TypedEnd where
  node : NodeId
  type : String
  deriving DecidableEq

namespace TypedEnd

instance : Ord TypedEnd := ⟨compareLex (compareOn node) (compareOn type)⟩

instance : TransOrd TypedEnd :=
  inferInstanceAs (TransCmp (compareLex (compareOn node) (compareOn type)))

instance : LawfulEqOrd TypedEnd where
  eq_of_compare {a b} h := by
    obtain ⟨nodes, types⟩ := Ordering.then_eq_eq.1 h
    cases a
    cases b
    cases LawfulEqOrd.eq_of_compare nodes
    cases LawfulEqOrd.eq_of_compare types
    rfl

end TypedEnd

/-- The relationships at each node, by direction and type. -/
structure Adjacency where
  leaving : Postings TypedEnd RelId
  entering : Postings TypedEnd RelId

namespace Adjacency

/-- The adjacency of a graph without relationships. -/
def empty : Adjacency := ⟨∅, ∅⟩

/-- File a relationship at both its ends. -/
def add (a : Adjacency) (rel : RelId) (type : String) (source target : NodeId) : Adjacency :=
  { leaving := a.leaving.post ⟨source, type⟩ rel
    entering := a.entering.post ⟨target, type⟩ rel }

/-- Strike a relationship at both its ends. -/
def remove (a : Adjacency) (rel : RelId) (type : String) (source target : NodeId) :
    Adjacency :=
  { leaving := a.leaving.withdraw ⟨source, type⟩ rel
    entering := a.entering.withdraw ⟨target, type⟩ rel }

/-- The relationships of one side at a node, of one type or of all, ascending. -/
def atNode (side : Postings TypedEnd RelId) (node : NodeId) : Option String → List RelId
  | some type => side.members ⟨node, type⟩
  | none =>
    sortBy compare <|
      (side.toList.filter fun posting => posting.1.node = node).map Prod.snd

/-- The relationships that leave a node, ascending. -/
def edgesFrom (a : Adjacency) (node : NodeId) (type : Option String) : List RelId :=
  atNode a.leaving node type

/-- The relationships that enter a node, ascending. -/
def edgesTo (a : Adjacency) (node : NodeId) (type : Option String) : List RelId :=
  atNode a.entering node type

/-- The relationships at either end of which the node stands, each once. -/
def edgesInvolving (a : Adjacency) (node : NodeId) : List RelId :=
  (OrderedSet.ofList (a.edgesFrom node none ++ a.edgesTo node none)).toList

end Adjacency

end PropertyGraph
