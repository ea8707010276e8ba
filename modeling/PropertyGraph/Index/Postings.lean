import PropertyGraph.Ordered.Set

/-!
# Postings

An index at its plainest: under each key the ascending list of the members
posted there. A key whose last member is withdrawn is dropped with it.
-/

namespace PropertyGraph

open Std

/-- Members posted under keys, keys and members in ascending order. -/
structure Postings (κ : Type u) (ι : Type v) [Ord κ] [Ord ι] where
  sets : OrderedMap κ (OrderedSet ι)

namespace Postings

variable {κ : Type u} {ι : Type v} [Ord κ] [Ord ι]

/-- The index without postings. -/
def empty : Postings κ ι := ⟨∅⟩

instance : EmptyCollection (Postings κ ι) := ⟨empty⟩

instance : Inhabited (Postings κ ι) := ⟨empty⟩

/-- The members under a key, ascending. -/
def members (p : Postings κ ι) (key : κ) : List ι :=
  ((p.sets.get? key).getD ∅).toList

/-- Number of members under a key. -/
def count (p : Postings κ ι) (key : κ) : Nat := ((p.sets.get? key).getD ∅).size

/-- Whether a member is posted under a key. -/
def holds (p : Postings κ ι) (key : κ) (member : ι) : Bool :=
  ((p.sets.get? key).getD ∅).contains member

/-- Every posting, by key and then by member. -/
def toList (p : Postings κ ι) : List (κ × ι) :=
  p.sets.entries.flatMap fun e => e.2.toList.map fun member => (e.1, member)

/-- Post a member under a key. -/
def post [TransOrd κ] [TransOrd ι] (p : Postings κ ι) (key : κ) (member : ι) :
    Postings κ ι :=
  ⟨p.sets.alter key fun set => some ((set.getD ∅).insert member)⟩

/-- What is left of a key's members when one is withdrawn; none of them, no key. -/
def without [TransOrd ι] (set : OrderedSet ι) (member : ι) : Option (OrderedSet ι) :=
  let rest := set.erase member
  if rest.isEmpty then none else some rest

/-- Withdraw a member from under a key. -/
def withdraw [TransOrd κ] [TransOrd ι] (p : Postings κ ι) (key : κ) (member : ι) :
    Postings κ ι :=
  ⟨p.sets.alter key fun set => set.bind fun set => without set member⟩

end Postings

end PropertyGraph
