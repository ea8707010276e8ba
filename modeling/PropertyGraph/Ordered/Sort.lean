/-!
# Sorting

A stable sort by a comparison: elements that compare equal keep their order.
-/

namespace PropertyGraph

variable {α : Type u}

/-- Put an element into a sorted list, in front of those that compare equal. -/
def insertSorted (cmp : α → α → Ordering) (a : α) : List α → List α
  | [] => [a]
  | b :: bs => if (cmp a b).isLE then a :: b :: bs else b :: insertSorted cmp a bs

/-- The elements of a list in ascending order, equals in their given order. -/
def sortBy (cmp : α → α → Ordering) (as : List α) : List α :=
  as.foldr (insertSorted cmp) []

end PropertyGraph
