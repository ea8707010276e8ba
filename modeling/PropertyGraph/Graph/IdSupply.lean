/-!
# Identity supply

Identities are numbers handed out from 1 upward. Numbers given back are handed
out again first, the latest one foremost.
-/

namespace PropertyGraph

/-- The next fresh number and the numbers given back, latest first. -/
structure IdSupply where
  fresh : Nat
  returned : List Nat
  deriving DecidableEq

namespace IdSupply

/-- The supply that has handed out nothing. -/
def full : IdSupply := ⟨1, []⟩

/-- Hand out a number. -/
def take (s : IdSupply) : Nat × IdSupply :=
  match s.returned with
  | number :: returned => (number, { s with returned })
  | [] => (s.fresh, { s with fresh := s.fresh + 1 })

/-- Give a number back. -/
def giveBack (s : IdSupply) (number : Nat) : IdSupply :=
  { s with returned := number :: s.returned }

end IdSupply

end PropertyGraph
