import PropertyGraph.Check.Expectation

/-!
# Scenarios

A scenario is a list of statements with expectations, run in order on one
session until one of them is not met.
-/

namespace PropertyGraph

/-- A statement and what is expected of it. -/
structure Step where
  name : String
  statement : Statement
  expectation : Expectation

/-- Steps to be run on one session, and how its graph behaves if the scenario
opens it itself. -/
structure Scenario where
  name : String
  config : GraphConfig
  steps : List Step

namespace Scenario

/-- Run one step. -/
def runStep (step : Step) (s : Session) : Except StepFailure Unit × Session :=
  match Session.run step.statement s with
  | (outcome, s) =>
    (step.expectation.verify step.name s.graph (outcome.mapError SessionError.message), s)

/-- Run steps on a session until one fails. -/
def runSteps : List Step → Session → Except StepFailure Unit × Session
  | [], s => (.ok (), s)
  | step :: steps, s => match runStep step s with
    | (.ok (), s) => runSteps steps s
    | (.error failure, s) => (.error failure, s)

/-- Run the scenario on a session. -/
def runOn (scenario : Scenario) (s : Session) : Except StepFailure Unit × Session :=
  runSteps scenario.steps s

/-- Run the scenario on a session of its own; answers the session. -/
def run (scenario : Scenario) : Except StepFailure Session :=
  match scenario.runOn (.start scenario.config) with
  | (.ok (), s) => .ok s
  | (.error failure, _) => .error failure

end Scenario

end PropertyGraph
