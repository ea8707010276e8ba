import PropertyGraph.Index.Postings
import PropertyGraph.Predicate

/-!
# Property indexes

A property index files nodes under the value of one property, values in index
order. Values equal in that order, such as `1` and `1.0`, share an entry, and
the entry keeps the value that opened it. A scan cuts out the part of the order
in which the operator can hold, stays inside the operand's rank, and tests the
entries that are left.
-/

namespace PropertyGraph

/-- Nodes filed under property values, and how many postings that makes. -/
structure PropertyIndex where
  postings : Postings Value NodeId
  size : Nat

namespace PropertyIndex

/-- The index of no nodes. -/
def empty : PropertyIndex := ⟨∅, 0⟩

instance : Inhabited PropertyIndex := ⟨empty⟩

/-- Whether the index holds nothing. -/
def isEmpty (index : PropertyIndex) : Bool := index.size == 0

/-- File a node under a value. Null is never filed. -/
def insert (index : PropertyIndex) (value : Value) (node : NodeId) : PropertyIndex :=
  if value.isNull then index
  else
    { postings := index.postings.post value node
      size := if index.postings.holds value node then index.size else index.size + 1 }

/-- Strike a node from under a value. -/
def remove (index : PropertyIndex) (value : Value) (node : NodeId) : PropertyIndex :=
  { postings := index.postings.withdraw value node
    size := if index.postings.holds value node then index.size - 1 else index.size }

/-- File a node under the value it has, if it has one. -/
def file (index : PropertyIndex) (node : NodeId) : Option Value → PropertyIndex
  | some value => index.insert value node
  | none => index

/-- Strike a node from under the value it had, if it had one. -/
def strike (index : PropertyIndex) (node : NodeId) : Option Value → PropertyIndex
  | some value => index.remove value node
  | none => index

/-- The entries whose values can stand in the relation to the operand. -/
def range (index : PropertyIndex) (op : CompareOp) (operand : Value) :
    List (Value × OrderedSet NodeId) :=
  match op with
  | .eq => (index.postings.sets.onwards operand).takeWhile fun e => compare e.1 operand == .eq
  | .lt | .le =>
    (index.postings.sets.upTo operand).dropWhile fun e => e.1.rank != operand.rank
  | .gt | .ge =>
    (index.postings.sets.onwards operand).takeWhile fun e => e.1.rank == operand.rank
  | .ne => index.postings.sets.entries

/-- The nodes filed under a value that satisfies `value op operand`, by value
and then by node. -/
def scan (index : PropertyIndex) (op : CompareOp) (operand : Value) : List NodeId :=
  if operand.isNull then []
  else
    ((index.range op operand).filter fun e => op.holds e.1 operand).flatMap fun e => e.2.toList

/-- Every posting, by value and then by node. -/
def toList (index : PropertyIndex) : List (Value × NodeId) := index.postings.toList

end PropertyIndex

end PropertyGraph
