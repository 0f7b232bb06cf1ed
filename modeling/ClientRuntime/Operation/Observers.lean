import ClientRuntime.Operation.Interceptor

/-!
Interceptors that watch an execution: one posts messages at the main stages, one posts metrics at
the end.
-/

namespace ClientRuntime

namespace Interceptor

variable {η : Type} {S : OperationShape}

/-- A check that posts something about an execution and passes. -/
def posting (id : ExecutionId) (post : Execution → World η → World η) : Check η S := do
  Fiber.modify fun w => post (w.execution id) w
  return .ok ()

def loggingComponent : String := "LoggingInterceptor"

/-- Posts a message to the span of an execution. -/
def message (id : ExecutionId) (level : TraceLevel) (text : Execution → String) : Check η S :=
  posting id fun e w => w.say e.span level loggingComponent (text e) none

def attemptText (e : Execution) : String := "Attempt " ++ toString e.attempt

def finalText (e : Execution) (result : S.Result) : String :=
  let ending :=
    match result with
    | .ok _ => "succeeded"
    | .error error => "failed: " ++ OperationError.message error
  e.operation ++ " " ++ ending ++ " after " ++ toString e.attempt ++ " attempt(s)"

/-- Messages at the main stages. A failed execution ends with a warning. -/
def logging : Interceptor η S where
  describe := loggingComponent
  readBeforeExecution v :=
    message v.execution .debug fun e => "Starting " ++ e.operation ++ " (" ++ e.idText ++ ")"
  readAfterSerialization v := message v.execution .trace fun _ => "Request serialized"
  readBeforeAttempt v := message v.execution .debug fun e => attemptText e ++ " starting"
  readAfterTransmit v := message v.execution .trace fun e => attemptText e ++ " received a response"
  readAfterAttempt v :=
    message v.execution .debug fun e =>
      match v.result with
      | .ok _ => attemptText e ++ " succeeded"
      | .error error => attemptText e ++ " failed: " ++ OperationError.message error
  readAfterExecution v :=
    posting v.execution fun e w =>
      let w :=
        w.emit .debug [("operation", .text e.operation), ("attempts", .natural e.attempt)]
          "Execution finished"
      let level := if v.result.isOk then TraceLevel.debug else .warning
      w.say e.span level loggingComponent (finalText e v.result) none

def metricsComponent : String := "AttemptMetricsInterceptor"

/-- The number of attempts and the time since the start, once the execution has finished. -/
def metrics : Interceptor η S where
  describe := metricsComponent
  readAfterExecution v :=
    posting v.execution fun e w =>
      let w := w.postCount e.span metricsComponent "attempts" e.attempt
      w.postTiming e.span metricsComponent "execution_duration" (w.clock.now.since e.startedAt)

end Interceptor

end ClientRuntime
