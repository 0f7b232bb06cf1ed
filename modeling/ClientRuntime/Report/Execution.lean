import ClientRuntime.Operation.Context
import ClientRuntime.Report.Basic

/-!
Reports of executions.
-/

namespace ClientRuntime.Report

def execution {η : Type} (w : World η) (i : ExecutionId) : Json :=
  let e := w.execution i
  .object [("operation", .text e.operation), ("attempt", natural e.attempt),
    ("started_at", instant e.startedAt), ("attributes", texts e.attributes.names),
    ("suppressed", texts e.suppressed), ("span", .object (spanFields w e.span))]

end ClientRuntime.Report
