import AgentValet.Approvals.Exchange
import AgentValet.Base.Polling

namespace AgentValet.Approvals.Client
open Base Lang

structure Options where
  /-- `importPKCS8` takes the private key. -/
  keyImports : Bool
  approvalTimeoutMs : ℚ

structure WaitContext where
  platform : Option String
  scope : Option String
  endpoint : Option String
  timeoutMs : Option ℚ

structure PendingInfo where
  approvalId : String
  elapsedMs : ℚ
  platform : String
  scope : String
  endpoint : String

/-- The tests on an ok answer, in the order they are made in; `none` goes on waiting. -/
def interpret (body : Payload) : Option Verdict :=
  let status := Json.lookup body "status"
  let executionError := Json.lookup body "execution_error"
  if isStr status "denied" then some (quoting executionError (.denied executionError))
  else if isStr status "expired" then some .expired
  else if JavaScript.truthy executionError then
    some (quoting executionError (.reexecutionFailed executionError))
  else if isStr status "approved" && JavaScript.truthy (Json.lookup body "executed_at") &&
      JavaScript.truthy (Json.lookup body "result") then
    some (resultVerdict id (Json.lookup body "result"))
  else none

/-- A key that does not import fails every attempt, and the loop takes that for a transient. -/
def attempt (opts : Options) (x : Exchange Payload) : Attempt Payload :=
  if opts.keyImports then authedFetch x else .transportFailure

def waitForApproval (opts : Options) (clock : Clock) (polls : ℕ → Exchange Payload)
    (approvalId : String) (ctx : WaitContext) : PollLoop Verdict (List PendingInfo) where
  running := clock.within (ctx.timeoutMs.getD opts.approvalTimeoutMs)
  poll k := pollVerdict interpret (attempt opts (polls k))
  advance k infos :=
    match attempt opts (polls k) with
    | .transportFailure => infos
    | .response _ =>
      infos ++ [⟨approvalId, clock.elapsed k, ctx.platform.getD "", ctx.scope.getD "",
        ctx.endpoint.getD ""⟩]
  late := .timedOut

inductive ErrorBody where
  | text (text : String)
  | reexecutionFailed (executionError : Option Json)

inductive Thrown where
  | proxyError (status : ℕ) (body : ErrorBody)
  | approvalDenied (detail : Option Json)
  | approvalExpired
  | upstreamError (status data : Option Json)
  | approvalTimeout
  | typeError

/-- What the caller gets: the data, or an error of the class thrown there. -/
def settle : Verdict → Except Thrown (Option Json)
  | .returned data => .ok data
  | .upstreamError status data => .error (.upstreamError status data)
  | .denied detail => .error (.approvalDenied detail)
  | .expired => .error .approvalExpired
  | .reexecutionFailed err => .error (.proxyError 502 (.reexecutionFailed err))
  | .statusError status text => .error (.proxyError status (.text text))
  | .timedOut => .error .approvalTimeout
  | .typeError => .error .typeError

end AgentValet.Approvals.Client
