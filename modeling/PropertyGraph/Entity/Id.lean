/-!
# Entity identities

Nodes and relationships are numbered separately; a reference says which of the
two kinds it names, so a node and a relationship with one number are never
confused.
-/

namespace PropertyGraph

open Std

/-- The identity of a node. -/
structure NodeId where
  number : Nat
  deriving DecidableEq, Inhabited

/-- The identity of a relationship. -/
structure RelId where
  number : Nat
  deriving DecidableEq, Inhabited

/-- One of the two kinds of entity. -/
inductive EntityKind where
  | node
  | relationship
  deriving DecidableEq

/-- A reference to a node or to a relationship. -/
inductive EntityRef where
  | node (id : NodeId)
  | relationship (id : RelId)
  deriving DecidableEq

/-! ## Order -/

instance : Ord NodeId := ⟨compareOn NodeId.number⟩

instance : TransOrd NodeId := inferInstanceAs (TransCmp (compareOn NodeId.number))

instance : LawfulEqOrd NodeId where
  eq_of_compare {a b} h := by
    cases a
    cases b
    exact congrArg NodeId.mk (LawfulEqOrd.eq_of_compare h)

instance : Ord RelId := ⟨compareOn RelId.number⟩

instance : TransOrd RelId := inferInstanceAs (TransCmp (compareOn RelId.number))

instance : LawfulEqOrd RelId where
  eq_of_compare {a b} h := by
    cases a
    cases b
    exact congrArg RelId.mk (LawfulEqOrd.eq_of_compare h)

/-! ## Text -/

def NodeId.text (id : NodeId) : String := "n" ++ toString id.number

def RelId.text (id : RelId) : String := "r" ++ toString id.number

def EntityKind.text : EntityKind → String
  | .node => "node"
  | .relationship => "relationship"

namespace EntityRef

def text : EntityRef → String
  | .node id => id.text
  | .relationship id => id.text

/-- The kind of the entity referred to. -/
def kind : EntityRef → EntityKind
  | .node _ => .node
  | .relationship _ => .relationship

/-- The node referred to, if it is a node. -/
def node? : EntityRef → Option NodeId
  | .node id => some id
  | .relationship _ => none

/-- The relationship referred to, if it is a relationship. -/
def relationship? : EntityRef → Option RelId
  | .node _ => none
  | .relationship id => some id

end EntityRef

end PropertyGraph
