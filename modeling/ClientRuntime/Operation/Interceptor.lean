import ClientRuntime.Operation.Context
import ClientRuntime.Retry.Error

/-!
Interceptors: hooks at the stages of an operation. Every hook sees what exists at its stage, and
may fail. Reading hooks only look; modifying hooks hand on what they were given or something else
in its place, also when they fail.
-/

namespace ClientRuntime

/-- The types of one operation. -/
structure OperationShape where
  Input : Type
  Request : Type
  Response : Type
  Output : Type
  Error : Type
  errors : OperationError Error

namespace OperationShape

instance (S : OperationShape) : OperationError S.Error := S.errors

/-- What an attempt or an execution comes to. -/
abbrev Result (S : OperationShape) : Type := Except S.Error S.Output

end OperationShape

/-- The stages at which hooks run, in the order of an execution without errors. -/
inductive Stage where
  | readBeforeExecution
  | modifyBeforeSerialization
  | readBeforeSerialization
  | readAfterSerialization
  | modifyBeforeRetryLoop
  | readBeforeAttempt
  | modifyBeforeSigning
  | readBeforeSigning
  | readAfterSigning
  | modifyBeforeTransmit
  | readBeforeTransmit
  | readAfterTransmit
  | modifyBeforeDeserialization
  | readBeforeDeserialization
  | readAfterDeserialization
  | modifyBeforeAttemptCompletion
  | readAfterAttempt
  | modifyBeforeCompletion
  | readAfterExecution
  deriving DecidableEq

def Stage.name : Stage → String
  | readBeforeExecution => "read_before_execution"
  | modifyBeforeSerialization => "modify_before_serialization"
  | readBeforeSerialization => "read_before_serialization"
  | readAfterSerialization => "read_after_serialization"
  | modifyBeforeRetryLoop => "modify_before_retry_loop"
  | readBeforeAttempt => "read_before_attempt"
  | modifyBeforeSigning => "modify_before_signing"
  | readBeforeSigning => "read_before_signing"
  | readAfterSigning => "read_after_signing"
  | modifyBeforeTransmit => "modify_before_transmit"
  | readBeforeTransmit => "read_before_transmit"
  | readAfterTransmit => "read_after_transmit"
  | modifyBeforeDeserialization => "modify_before_deserialization"
  | readBeforeDeserialization => "read_before_deserialization"
  | readAfterDeserialization => "read_after_deserialization"
  | modifyBeforeAttemptCompletion => "modify_before_attempt_completion"
  | readAfterAttempt => "read_after_attempt"
  | modifyBeforeCompletion => "modify_before_completion"
  | readAfterExecution => "read_after_execution"

/-- Before serialization. -/
structure InputView (S : OperationShape) where
  execution : ExecutionId
  input : S.Input

/-- From serialization until transmission. -/
structure RequestView (S : OperationShape) where
  execution : ExecutionId
  input : S.Input
  request : S.Request

/-- From transmission until deserialization. -/
structure ResponseView (S : OperationShape) where
  execution : ExecutionId
  input : S.Input
  request : S.Request
  response : S.Response

/-- Once there is a result. What was not reached before is absent. -/
structure ResultView (S : OperationShape) where
  execution : ExecutionId
  input : S.Input
  request : Option S.Request
  response : Option S.Response
  result : S.Result

/-- What a reading hook does. -/
abbrev Check (η : Type) (S : OperationShape) := Fiber (World η) (Except S.Error Unit)

/-- What a modifying hook does: what to go on with, and whether it failed. -/
abbrev Change (η δ : Type) (S : OperationShape) :=
  Fiber (World η) (δ × Except S.Error Unit)

def Check.pass {η : Type} {S : OperationShape} : Check η S := return .ok ()

def Change.keep {η : Type} {S : OperationShape} {δ : Type} (d : δ) : Change η δ S :=
  return (d, .ok ())

/-- Hooks that are not given do nothing. -/
structure Interceptor (η : Type) (S : OperationShape) where
  describe : String
  readBeforeExecution : InputView S → Check η S := fun _ => .pass
  modifyBeforeSerialization : InputView S → Change η S.Input S := fun v => .keep v.input
  readBeforeSerialization : InputView S → Check η S := fun _ => .pass
  readAfterSerialization : RequestView S → Check η S := fun _ => .pass
  modifyBeforeRetryLoop : RequestView S → Change η S.Request S := fun v => .keep v.request
  readBeforeAttempt : RequestView S → Check η S := fun _ => .pass
  modifyBeforeSigning : RequestView S → Change η S.Request S := fun v => .keep v.request
  readBeforeSigning : RequestView S → Check η S := fun _ => .pass
  readAfterSigning : RequestView S → Check η S := fun _ => .pass
  modifyBeforeTransmit : RequestView S → Change η S.Request S := fun v => .keep v.request
  readBeforeTransmit : RequestView S → Check η S := fun _ => .pass
  readAfterTransmit : ResponseView S → Check η S := fun _ => .pass
  modifyBeforeDeserialization : ResponseView S → Change η S.Response S := fun v => .keep v.response
  readBeforeDeserialization : ResponseView S → Check η S := fun _ => .pass
  readAfterDeserialization : ResultView S → Check η S := fun _ => .pass
  modifyBeforeAttemptCompletion : ResultView S → Change η S.Result S := fun v => .keep v.result
  readAfterAttempt : ResultView S → Check η S := fun _ => .pass
  modifyBeforeCompletion : ResultView S → Change η S.Result S := fun v => .keep v.result
  readAfterExecution : ResultView S → Check η S := fun _ => .pass

end ClientRuntime
