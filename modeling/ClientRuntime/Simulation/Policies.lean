import ClientRuntime.Report.Retry
import ClientRuntime.Retry.Policy

/-!
Policies for services whose values are texts, and what they make of results.
-/

namespace ClientRuntime.Simulation

/-- Which policy to make. -/
inductive PolicyPlan where
  | never
  | standard (p : StandardPolicy)
  /-- One directive for values and one for errors. -/
  | fixed (ok error : RetryDirective)
  | acceptors (p : AcceptorPolicy String ServiceError)

namespace PolicyPlan

def policy : PolicyPlan → RetryPolicy String ServiceError
  | never => .never
  | standard p => p.policy
  | fixed ok error => fun result =>
    match result with
    | .ok _ => ok
    | .error _ => error
  | acceptors p => p.policy

def directive : RetryDirective → Json
  | .success => .text "success"
  | .failure => .text "failure"
  | .retry cause => .text cause.name

/-- The class of an error; only a classifier knows one. -/
def classOf (classifier : Option StandardPolicy) : Except ServiceError String → Json
  | .ok _ => .null
  | .error e =>
    Report.option (fun c => .text (RetryCause.name c))
      (classifier.bind fun p => p.classify (OperationError.metadata e))

def report (plan : PolicyPlan) (classifier : Option StandardPolicy)
    (results : List (Except ServiceError String)) : Json :=
  let acceptors :=
    match plan with
    | acceptors p =>
      .object [("debug", .text p.describe), ("count", Report.natural p.acceptors.length)]
    | _ => .null
  .object
    [("results", .array (results.map fun r =>
        let d := plan.policy r
        .object [("directive", directive d), ("retry", .flag d.isRetry),
          ("class", classOf classifier r)])),
      ("acceptors", acceptors)]

end PolicyPlan

end ClientRuntime.Simulation
