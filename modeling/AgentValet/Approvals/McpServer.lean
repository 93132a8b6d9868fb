import AgentValet.Approvals.Exchange
import AgentValet.Base.Polling
import Mathlib.Data.Rat.Floor

namespace AgentValet.Approvals.McpServer
open Base Lang

def approvalProgressIntervalMs : ℚ := 5000

structure OriginalCall where
  platform : String
  scope : String
  endpoint : String

structure Progress where
  progress : ℚ
  total : ℚ
  message : String

structure Told where
  lastProgressAt : ℚ
  sent : List Progress

/-- `sendProgress`, which does nothing without a token and whose failures are dropped. -/
def sendProgress (progressToken : Option Json) (sent : List Progress) (p : Progress) :
    List Progress :=
  match progressToken with
  | none => sent
  | some _ => sent ++ [p]

def round (x : ℚ) : ℤ := ⌊x + 1 / 2⌋

/-- `r.data ?? null` -/
def orNull (data : Option Json) : Option Json := some (data.getD .null)

/-- The tests on an ok answer: here the executed result comes first. -/
def interpret (body : Payload) : Option Verdict :=
  let status := Json.lookup body "status"
  let executionError := Json.lookup body "execution_error"
  if isStr status "approved" && JavaScript.truthy (Json.lookup body "executed_at") &&
      JavaScript.truthy (Json.lookup body "result") then
    some (resultVerdict orNull (Json.lookup body "result"))
  else if isStr status "denied" then some (quoting executionError (.denied executionError))
  else if isStr status "expired" then some .expired
  else if JavaScript.truthy executionError then
    some (quoting executionError (.reexecutionFailed executionError))
  else none

def told (budget : ℚ) (originalCall : OriginalCall)
    (progressToken : Option Json) : Told where
  lastProgressAt := 0
  sent :=
    let platform := originalCall.platform
    let scope := originalCall.scope
    sendProgress progressToken []
      ⟨0, budget, s!"Owner approval required for {platform}:{scope} — waiting…"⟩

def waitForApproval (clock : Clock) (budget : ℚ) (polls : ℕ → Exchange Payload)
    (progressToken : Option Json) : PollLoop Verdict Told where
  running := clock.within budget
  poll k := pollVerdict interpret (authedFetch (polls k))
  advance k s :=
    match authedFetch (polls k) with
    | .transportFailure => s
    | .response _ =>
      if approvalProgressIntervalMs ≤ clock.considered k - s.lastProgressAt then
        let seconds := round (clock.elapsed k / 1000)
        { lastProgressAt := clock.sent k
          sent := sendProgress progressToken s.sent
            ⟨clock.elapsed k, budget, s!"Waiting for owner approval — {seconds}s elapsed"⟩ }
      else s
  late := .timedOut

end AgentValet.Approvals.McpServer
