import PropertyGraph.Ordered.Map

/-!
# Ordered sets

A finite set listed in strictly ascending order, kept as the keys of an
ordered map without values.
-/

namespace PropertyGraph

open Std

/-- A finite set in ascending order. -/
structure OrderedSet (α : Type u) [Ord α] where
  toMap : OrderedMap α Unit

namespace OrderedSet

variable {α : Type u} [Ord α]

/-- The set without elements. -/
def empty : OrderedSet α := ⟨∅⟩

instance : EmptyCollection (OrderedSet α) := ⟨empty⟩

instance : Inhabited (OrderedSet α) := ⟨empty⟩

/-- The elements in ascending order. -/
def toList (s : OrderedSet α) : List α := s.toMap.keys

/-- Whether an element compares equal to `a`. -/
def contains (s : OrderedSet α) (a : α) : Bool := s.toMap.contains a

/-- Number of elements. -/
def size (s : OrderedSet α) : Nat := s.toMap.size

/-- Whether there is no element. -/
def isEmpty (s : OrderedSet α) : Bool := s.toMap.isEmpty

/-- Add an element. -/
def insert [TransOrd α] (s : OrderedSet α) (a : α) : OrderedSet α := ⟨s.toMap.insert a ()⟩

/-- Take an element out. -/
def erase [TransOrd α] (s : OrderedSet α) (a : α) : OrderedSet α := ⟨s.toMap.erase a⟩

/-- The set of the elements of a list. -/
def ofList [TransOrd α] (as : List α) : OrderedSet α := as.foldl insert empty

end OrderedSet

end PropertyGraph
