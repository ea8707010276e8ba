import PropertyGraph.Entity.Id

/-!
# Binding rows

A row of bindings names entities, in the order in which the names were first
bound. Binding a name again changes its entity and keeps its place.
-/

namespace PropertyGraph

/-- Names bound to entities, in binding order. -/
structure BindingRow where
  entries : List (String × EntityRef)
  deriving DecidableEq

namespace BindingRow

/-- The row that binds nothing. -/
def empty : BindingRow := ⟨[]⟩

instance : Inhabited BindingRow := ⟨empty⟩

/-- The entity of a name. -/
def get? (row : BindingRow) (name : String) : Option EntityRef :=
  (row.entries.find? fun e => e.1 == name).map Prod.snd

/-- Whether a name is bound. -/
def binds (row : BindingRow) (name : String) : Bool := (row.get? name).isSome

/-- The bound names, in binding order. -/
def names (row : BindingRow) : List String := row.entries.map Prod.fst

/-- Bind a name in a list of bindings. -/
def bindEntry (name : String) (entity : EntityRef) :
    List (String × EntityRef) → List (String × EntityRef)
  | [] => [(name, entity)]
  | e :: es => if e.1 = name then (name, entity) :: es else e :: bindEntry name entity es

/-- Bind a name. -/
def bind (row : BindingRow) (name : String) (entity : EntityRef) : BindingRow :=
  ⟨bindEntry name entity row.entries⟩

/-- Bind the names of a list in turn. -/
def ofList (bindings : List (String × EntityRef)) : BindingRow :=
  bindings.foldl (fun row b => row.bind b.1 b.2) empty

/-- The row in braces. -/
def text (row : BindingRow) : String :=
  "\x7b" ++ ", ".intercalate (row.entries.map fun e => e.1 ++ ": " ++ e.2.text) ++ "\x7d"

end BindingRow

end PropertyGraph
