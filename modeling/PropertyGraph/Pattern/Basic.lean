import PropertyGraph.BindingRow
import PropertyGraph.Entity.Relationship
import PropertyGraph.Predicate

/-!
# Patterns

A pattern is a small graph of slots, to be filled by live entities or to be
created. Every named node has one slot however often the paths mention it;
every anonymous node and every relationship has a slot of its own. The ends of
a relationship slot are positions in the list of node slots.
-/

namespace PropertyGraph

/-- A node of a pattern: the labels and property values it must have. -/
structure NodeSlot where
  var : Option String
  labels : List String
  literals : List (String × Value)
  deriving DecidableEq

namespace NodeSlot

/-- The literals as predicates of a scan. -/
def predicates (slot : NodeSlot) : List PropertyPredicate :=
  slot.literals.map fun literal => .equality literal.1 literal.2

/-- Whether a node has every label and literal of the slot. -/
def accepts (slot : NodeSlot) (node : Node) : Bool :=
  (slot.labels.all fun label => node.hasLabel label) && node.properties.satisfy slot.literals

/-- The properties of a node created for the slot. -/
def properties (slot : NodeSlot) : Properties := .ofPairs slot.literals

/-- The variable, or an underscore. -/
def displayName (slot : NodeSlot) : String := slot.var.getD "_"

/-- What a row binds the slot's variable to. -/
def bound? (slot : NodeSlot) (row : BindingRow) : Option EntityRef := slot.var.bind row.get?

end NodeSlot

/-- A relationship of a pattern: its type, the slots of its ends and the
property values it must have. -/
structure RelSlot where
  var : Option String
  type : String
  source : Nat
  target : Nat
  literals : List (String × Value)
  deriving DecidableEq

namespace RelSlot

/-- Whether a relationship has the type and every literal of the slot. Its ends
are not looked at. -/
def accepts (slot : RelSlot) (rel : Relationship) : Bool :=
  rel.type == slot.type && rel.properties.satisfy slot.literals

/-- The properties of a relationship created for the slot. -/
def properties (slot : RelSlot) : Properties := .ofPairs slot.literals

/-- The variable, or an underscore. -/
def displayName (slot : RelSlot) : String := slot.var.getD "_"

/-- What a row binds the slot's variable to. -/
def bound? (slot : RelSlot) (row : BindingRow) : Option EntityRef := slot.var.bind row.get?

end RelSlot

/-- A slot of either kind, by its position. -/
inductive SlotRef where
  | node (position : Nat)
  | rel (position : Nat)
  deriving DecidableEq

/-- Node slots, relationship slots, and all slots in the order in which the
paths first mention them. -/
structure Pattern where
  nodes : List NodeSlot
  rels : List RelSlot
  order : List SlotRef
  deriving DecidableEq

namespace Pattern

/-- The pattern without slots. -/
def empty : Pattern := ⟨[], [], []⟩

/-- The slot of a node variable. -/
def nodeSlot? (p : Pattern) (var : String) : Option Nat :=
  p.nodes.findIdx? fun slot => slot.var == some var

/-- The slot of a relationship variable. -/
def relSlot? (p : Pattern) (var : String) : Option Nat :=
  p.rels.findIdx? fun slot => slot.var == some var

/-- The variable of a slot. -/
def var? (p : Pattern) : SlotRef → Option String
  | .node position => p.nodes[position]?.bind NodeSlot.var
  | .rel position => p.rels[position]?.bind RelSlot.var

/-- The variables, in the order in which the paths first mention them. -/
def varNames (p : Pattern) : List String := p.order.filterMap p.var?

/-- Number of entities that the pattern describes. -/
def slotCount (p : Pattern) : Nat := p.nodes.length + p.rels.length

end Pattern

/-- Entities put into the slots of a pattern, by position; some slots may be
vacant. -/
structure Assignment where
  nodes : List (Option NodeId)
  rels : List (Option RelId)
  deriving DecidableEq

namespace Assignment

/-- The assignment that leaves every slot of a pattern vacant. -/
def vacant (p : Pattern) : Assignment :=
  ⟨p.nodes.map fun _ => none, p.rels.map fun _ => none⟩

/-- The node in a node slot. -/
def node? (a : Assignment) (slot : Nat) : Option NodeId := (a.nodes[slot]?).join

/-- The relationship in a relationship slot. -/
def rel? (a : Assignment) (slot : Nat) : Option RelId := (a.rels[slot]?).join

/-- The entity in a slot. -/
def entity? (a : Assignment) : SlotRef → Option EntityRef
  | .node position => (a.node? position).map .node
  | .rel position => (a.rel? position).map .relationship

/-- Put a node into a slot, or vacate it. -/
def setNode (a : Assignment) (slot : Nat) (node : Option NodeId) : Assignment :=
  { a with nodes := a.nodes.set slot node }

/-- Put a relationship into a slot, or vacate it. -/
def setRel (a : Assignment) (slot : Nat) (rel : Option RelId) : Assignment :=
  { a with rels := a.rels.set slot rel }

end Assignment

/-- Extend a row by the variable of one slot, if it has one and is filled. -/
def Pattern.bindSlot (p : Pattern) (a : Assignment) (row : BindingRow) (slot : SlotRef) :
    BindingRow :=
  match p.var? slot, a.entity? slot with
  | some var, some entity => row.bind var entity
  | _, _ => row

/-- Extend a row by the variables of the filled slots, in the order in which
the paths first mention them. -/
def Pattern.bindRow (p : Pattern) (row : BindingRow) (a : Assignment) : BindingRow :=
  p.order.foldl (p.bindSlot a) row

end PropertyGraph
