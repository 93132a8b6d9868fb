import AgentValet.Approvals.Client
import AgentValet.Lang.Python

namespace AgentValet.Approvals.PythonClient
open Base Lang Client

inductive Raised where
  | proxyError (status : ℕ) (body : ErrorBody)
  | approvalDenied (detail : Option String)
  | approvalExpired
  | upstreamError (status : ℤ) (data : Option Json)
  /-- An exception that is none of the package's: of `.get` or of `int`. -/
  | uncaught

abbrev Ended := Except Raised (Option Json)

def asStr (v : Option Json) : Option String :=
  match v with
  | some (.str s) => some s
  | _ => none

/-- `result.get("status", 0)` -/
def upstreamStatus (fields : List (String × Json)) : Json :=
  (Json.lookup fields "status").getD (.num (.int 0))

def resultEnded : Option Json → Ended
  | some (.obj fields) =>
    let data := Json.lookup fields "data"
    match Python.int (upstreamStatus fields) with
    | none => .error .uncaught
    | some n => if 200 ≤ n ∧ n < 300 then .ok data else .error (.upstreamError n data)
  | _ => .error .uncaught

/-- `interpret_approval_status`; `none` is `(False, None)`. -/
def interpretApprovalStatus (payload : Payload) : Option Ended :=
  let status := Json.lookup payload "status"
  let executionError := Json.lookup payload "execution_error"
  if isStr status "denied" then some (.error (.approvalDenied (asStr executionError)))
  else if isStr status "expired" then some (.error .approvalExpired)
  else if Python.truthy executionError then
    some (.error (.proxyError 502 (.reexecutionFailed executionError)))
  else if isStr status "approved" && Python.truthy (Json.lookup payload "executed_at") &&
      Python.truthy (Json.lookup payload "result") then
    some (resultEnded (Json.lookup payload "result"))
  else none

end AgentValet.Approvals.PythonClient
