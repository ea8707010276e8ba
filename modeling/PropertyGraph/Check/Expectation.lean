import PropertyGraph.Check.Quoted
import PropertyGraph.Check.TextPattern.Reader
import PropertyGraph.Session

/-!
# Expectations

What a statement is expected to do: change certain counters, give a number of
rows, fail with a certain message, or leave the graph in a certain state. An
expected error outranks everything else that is expected.
-/

namespace PropertyGraph

/-- What a statement is expected to do; what is `none` may be anything. -/
structure Expectation where
  labelsAdded : Option Nat := none
  nodesCreated : Option Nat := none
  relationshipsCreated : Option Nat := none
  propertiesSet : Option Nat := none
  nodesDeleted : Option Nat := none
  relationshipsDeleted : Option Nat := none
  indicesCreated : Option Nat := none
  indicesDeleted : Option Nat := none
  noChanges : Bool := false
  rows : Option Nat := none
  /-- A part of the error's message. -/
  error : Option String := none
  /-- A pattern in the error's message. -/
  errorPattern : Option String := none
  custom : Option (Graph → StatementResult → Bool) := none

/-! ## Complaints -/

/-- How a statement fell short of an expectation. -/
inductive Complaint where
  | otherError (expected got : String)
  | noError (expected : String)
  | badPattern (fault : TextPattern.Fault)
  | unmatchedError (pattern got : String)
  | noErrorToMatch (pattern : String)
  | changes (stats : Statistics)
  | counter (name : String) (expected got : Nat) (stats : Statistics)
  | rowCount (expected got : Nat)
  | custom

/-- The message of a complaint. -/
def Complaint.message : Complaint → String
  | .otherError expected got =>
    "expected error containing '" ++ expected ++ "', got: " ++ got
  | .noError expected =>
    "expected error containing '" ++ expected ++ "', but step succeeded"
  | .badPattern fault => "invalid regex pattern: " ++ fault.message
  | .unmatchedError pattern got =>
    "expected error matching '" ++ pattern ++ "', got: " ++ got
  | .noErrorToMatch pattern =>
    "expected error matching '" ++ pattern ++ "', but step succeeded"
  | .changes stats => "expected no changes, got: " ++ stats.text
  | .counter name expected got stats =>
    "expected " ++ toString expected ++ " " ++ name ++ ", got " ++ toString got ++
      "\n  statistics: " ++ stats.text
  | .rowCount expected got =>
    "expected " ++ toString expected ++ " rows, got " ++ toString got
  | .custom => "custom assertion failed"

/-- Why a step of a scenario failed: its statement did, or an expectation was
not met. -/
inductive StepFailure where
  | statement (step message : String)
  | expectation (step : String) (complaint : Complaint)

/-- The message of a failure. -/
def StepFailure.message : StepFailure → String
  | .statement step message => "step '" ++ step ++ "' failed: " ++ message
  | .expectation step complaint =>
    "assertion failed for step '" ++ step ++ "': " ++ complaint.message

/-- Whether a text begins with another or contains it further on. -/
def isWithin (part : List Char) : List Char → Bool
  | [] => part.isEmpty
  | c :: ahead => part.isPrefixOf (c :: ahead) || isWithin part ahead

/-- Whether a text contains another. -/
def textContains (text part : String) : Bool := isWithin part.toList text.toList

namespace Expectation

/-! ## Checking -/

/-- The expected counters, in their fixed order. -/
def counters (e : Expectation) : List (Option Nat) :=
  [e.labelsAdded, e.nodesCreated, e.relationshipsCreated, e.propertiesSet,
    e.nodesDeleted, e.relationshipsDeleted, e.indicesCreated, e.indicesDeleted]

/-- The first counter that is not as expected. -/
def firstMiss (e : Expectation) (stats : Statistics) : Option Complaint :=
  (Statistics.counterNames.zip (e.counters.zip stats.counts)).findSome?
    fun (name, wanted, got) => match wanted with
      | some expected =>
        if got = expected then none else some (.counter name expected got stats)
      | none => none

/-- Check a result against an expectation of success. -/
def checkResult (e : Expectation) (g : Graph) (result : StatementResult) :
    Except Complaint Unit := do
  if e.noChanges && !result.stats.isEmpty then throw (.changes result.stats)
  if let some complaint := e.firstMiss result.stats then throw complaint
  if let some expected := e.rows then
    if result.rows.length ≠ expected then throw (.rowCount expected result.rows.length)
  if let some holds := e.custom then
    if !holds g result then throw .custom

/-- Check that a statement failed with a message that contains a text. -/
def checkError (expected : String) : Except String StatementResult → Except Complaint Unit
  | .error got => if textContains got expected then .ok () else .error (.otherError expected got)
  | .ok _ => .error (.noError expected)

/-- Check that a statement failed with a message in which a pattern occurs. -/
def checkErrorPattern (pattern : String) (outcome : Except String StatementResult) :
    Except Complaint Unit := do
  let read ← (TextPattern.read pattern).mapError .badPattern
  match outcome with
  | .error got => if read.occursIn got then return () else throw (.unmatchedError pattern got)
  | .ok _ => throw (.noErrorToMatch pattern)

/-- Check how the statement of a step came out. -/
def verify (e : Expectation) (step : String) (g : Graph)
    (outcome : Except String StatementResult) : Except StepFailure Unit :=
  match e.error, e.errorPattern, outcome with
  | some expected, _, _ => (checkError expected outcome).mapError (.expectation step)
  | none, some pattern, _ =>
    (checkErrorPattern pattern outcome).mapError (.expectation step)
  | none, none, .error message => .error (.statement step message)
  | none, none, .ok result => (e.checkResult g result).mapError (.expectation step)

/-! ## Description -/

/-- A value that may be missing. -/
def optional {α : Type} (render : α → String) : Option α → String
  | some a => "Some(" ++ render a ++ ")"
  | none => "None"

/-- The expectation field by field. -/
def describe (e : Expectation) : String :=
  let fields : List (String × String) :=
    [("labels_added", optional toString e.labelsAdded),
      ("nodes_created", optional toString e.nodesCreated),
      ("relationships_created", optional toString e.relationshipsCreated),
      ("properties_set", optional toString e.propertiesSet),
      ("nodes_deleted", optional toString e.nodesDeleted),
      ("relationships_deleted", optional toString e.relationshipsDeleted),
      ("no_changes", if e.noChanges then "true" else "false"),
      ("rows", optional toString e.rows),
      ("error", optional quoted e.error),
      ("error_pattern", optional quoted e.errorPattern),
      ("custom", optional (fun _ => quoted "<fn>") e.custom)]
  "Assertion \x7b " ++ ", ".intercalate (fields.map fun f => f.1 ++ ": " ++ f.2) ++ " \x7d"

end Expectation

end PropertyGraph
